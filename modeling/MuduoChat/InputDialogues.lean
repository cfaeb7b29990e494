import MuduoChat.ChatCodecStreams
import MuduoChat.ChatServerSteps

/-!
# Dialogues on the input of connections

The server with the input buffer of every connection.  A chunk of input is
appended to the buffer and the codec's loop is run; each of its calls is an
action of the server: a payload that parses is an envelope received, one that
does not is a parse error, and a refused length shuts the connection down.
After a shutdown muduo goes on delivering input.

The codec leaves its loop at a refused length and finds the same length again
at the next chunk.  After an envelope without a known payload, which shuts the
connection down as well, it goes on to the next frame.
-/

namespace MuduoChat

structure InputServer where
  server : ChatServer := ChatServer.initial
  buffers : Conn → Buffer := fun _ => {}

/-- Whether `onEnvelope` has a handler for the payload. -/
def Envelope.Handled : Envelope → Bool
  | .heartbeat _ | .notSet => false
  | _ => true

/-- Whether the codec is what makes the server take the action. -/
def ChatServer.Action.IsInput : ChatServer.Action → Bool
  | .receive .. | .invalidLength _ | .parseError _ => true
  | _ => false

namespace InputServer

inductive Action where
  /-- A chunk of input arrives on a connection. -/
  | input (conn : Conn) (chunk : Bytes)
  /-- Anything the server does without input. -/
  | server (action : ChatServer.Action)

section Steps

variable (host : ByteOrder) (parse : Bytes → Option Envelope)
  (config : ServerConfig)

/-- What a call of the codec makes the server do. -/
def actionOf (conn : Conn) : CodecCall → ChatServer.Action
  | .handleMessage payload =>
      match parse payload with
      | none => .parseError conn
      | some envelope => .receive conn envelope
  | .shutdown => .invalidLength conn

def input (system : InputServer) (conn : Conn) (chunk : Bytes) :
    Option InputServer :=
  match ChatCodec.onMessage host ((system.buffers conn).append chunk) with
  | .error _ => none
  | .ok (calls, rest) =>
      (Runs.runFrom (ChatServer.step config) system.server
        (calls.map (actionOf parse conn))).map fun server =>
          { server := server
            buffers := Function.update system.buffers conn rest }

def step (system : InputServer) : Action → Option InputServer
  | .input conn chunk =>
      if system.server.sessions.connected conn then
        input host parse config system conn chunk
      else none
  | .server action =>
      if action.IsInput then none
      else (ChatServer.step config system.server action).map fun server =>
        { system with server := server }

end Steps

/-! ## The end of a dialogue -/

/-- Once a connection is shut down, no envelope received on it has a
handler. -/
def DialoguesEnd (history : List Event) : Prop :=
  history.Pairwise fun newer older => ∀ conn request envelope,
    older = .shutdown conn → newer = .received request conn envelope →
      envelope.Handled = false

/-- The chunks that arrive on a connection. -/
def chunksOn (conn : Conn) (actions : List Action) : List Bytes :=
  actions.filterMap fun
    | .input other chunk => if other = conn then some chunk else none
    | .server _ => none

/-- The envelopes in a stream of bytes, up to the first length that is
refused. -/
def envelopes (parse : Bytes → Option Envelope) (bytes : Bytes) :
    List Envelope :=
  (wireReader.drain bytes).1.filterMap parse

/-- No envelope behind one without a known payload has a handler. -/
def Orderly (envelopes : List Envelope) : Prop :=
  envelopes.Pairwise fun earlier later =>
    earlier = .notSet → later.Handled = false

/-! ## Input is never refused -/

section Progress

variable {config : ServerConfig}

theorem connected_of_conns {manager next : SessionManager}
    (hconns : next.conns = manager.conns) (conn : Conn) :
    next.connected conn = manager.connected conn := by
  rw [SessionManager.connected, SessionManager.connected, hconns]

theorem connected_receive (server : ChatServer) (conn other : Conn)
    (envelope : Envelope) :
    (server.receive conn envelope).sessions.connected other =
      server.sessions.connected other := by
  rw [connected_of_conns
    (ChatServer.responds_receive server conn envelope).conns]
  cases envelope with
  | logoutReq req => exact SessionManager.connected_deauthenticate _ conn other
  | _ => rfl

/-- The calls of the codec find the connection up. -/
theorem exists_run_calls (parse : Bytes → Option Envelope) (conn : Conn)
    (calls : List CodecCall) {server : ChatServer}
    (hconnected : server.sessions.connected conn = true) :
    ∃ next, Runs.runFrom (ChatServer.step config) server
      (calls.map (actionOf parse conn)) = some next := by
  induction calls generalizing server with
  | nil => exact ⟨server, rfl⟩
  | cons call rest ih =>
      have hstep : ∃ next,
          ChatServer.step config server (actionOf parse conn call) =
            some next ∧ next.sessions.connected conn = true := by
        unfold actionOf
        split
        · split
          · exact ⟨_, if_pos hconnected, hconnected⟩
          · refine ⟨_, if_pos hconnected, ?_⟩
            rw [connected_receive, hconnected]
        · exact ⟨_, if_pos hconnected, hconnected⟩
      obtain ⟨middle, hstep, hmiddle⟩ := hstep
      obtain ⟨next, hnext⟩ := ih hmiddle
      refine ⟨next, ?_⟩
      rw [List.map_cons, Runs.runFrom_cons, hstep]
      exact hnext

theorem input_eq (host : ByteOrder) (parse : Bytes → Option Envelope)
    (config : ServerConfig) (system : InputServer) (conn : Conn)
    (chunk : Bytes) :
    input host parse config system conn chunk =
      (Runs.runFrom (ChatServer.step config) system.server
        ((loopResult ((system.buffers conn).bytes ++ chunk)).1.map
          (actionOf parse conn))).map fun server =>
            { server := server
              buffers := Function.update system.buffers conn
                (loopResult ((system.buffers conn).bytes ++ chunk)).2 } := by
  unfold input Buffer.append
  rw [ChatCodec.onMessage_eq]

/-- Whatever arrives on a connection that is up, the server takes it. -/
theorem exists_step_input (host : ByteOrder)
    (parse : Bytes → Option Envelope) {system : InputServer} {conn : Conn}
    (chunk : Bytes)
    (hconnected : system.server.sessions.connected conn = true) :
    ∃ next, step host parse config system (.input conn chunk) =
      some next := by
  obtain ⟨server, hserver⟩ := @exists_run_calls config parse conn
    (loopResult ((system.buffers conn).bytes ++ chunk)).1 _ hconnected
  rw [step, if_pos hconnected, input_eq, hserver]
  exact ⟨_, rfl⟩

end Progress

/-! ## What is said on a connection -/

/-- An envelope received, or nothing for a shutdown. -/
def utterance (conn : Conn) : Event → Option (Option Envelope)
  | .received _ other envelope =>
      if other = conn then some (some envelope) else none
  | .shutdown other => if other = conn then some none else none
  | _ => none

/-- The envelopes received on a connection and its shutdowns, oldest
first. -/
def dialogue (conn : Conn) (server : ChatServer) : List (Option Envelope) :=
  (server.history.filterMap (utterance conn)).reverse

/-- What an action of the server adds to a dialogue. -/
def said (conn : Conn) : ChatServer.Action → List (Option Envelope)
  | .receive other envelope =>
      if other = conn then
        some envelope :: (if envelope = .notSet then [none] else [])
      else []
  | .invalidLength other => if other = conn then [none] else []
  | _ => []

section Dialogues

open ChatServer

variable {config : ServerConfig} {server next : ChatServer} {conn : Conn}

theorem dialogue_of_history (hhistory : next.history = server.history) :
    dialogue conn next = dialogue conn server := by
  rw [dialogue, dialogue, hhistory]

theorem dialogue_push {event : Event}
    (hhistory : next.history = event :: server.history) :
    dialogue conn next =
      dialogue conn server ++ (utterance conn event).toList := by
  rw [dialogue, dialogue, hhistory, List.filterMap_cons]
  cases utterance conn event with
  | none => exact (List.append_nil _).symm
  | some entry => exact List.reverse_cons

/-- Nothing but an envelope received and a shutdown is part of a dialogue. -/
theorem dialogue_push_other {event : Event}
    (hhistory : next.history = event :: server.history)
    (hevent : utterance conn event = none) :
    dialogue conn next = dialogue conn server := by
  rw [dialogue_push hhistory, hevent]
  exact List.append_nil _

@[simp] theorem dialogue_send (server : ChatServer) (target : Conn)
    (msg : ServerMessage) :
    dialogue conn (server.send target msg) = dialogue conn server :=
  dialogue_push_other rfl rfl

@[simp] theorem dialogue_sendError (server : ChatServer) (target : Conn)
    (code : Nat) (reason : String) :
    dialogue conn (server.sendError target code reason) =
      dialogue conn server :=
  dialogue_push_other rfl rfl

@[simp] theorem dialogue_runInPool (server : ChatServer) (request : Nat)
    (task : Task) :
    dialogue conn (server.runInPool request task) = dialogue conn server :=
  dialogue_of_history rfl

@[simp] theorem dialogue_withSessions (server : ChatServer)
    (sessions : SessionManager) :
    dialogue conn (server.withSessions sessions) = dialogue conn server :=
  dialogue_of_history rfl

@[simp] theorem dialogue_withRooms (server : ChatServer)
    (rooms : RoomManager) :
    dialogue conn (server.withRooms rooms) = dialogue conn server :=
  dialogue_of_history rfl

theorem dialogue_foldl {Item : Type} {change : ChatServer → Item → ChatServer}
    (hchange : ∀ server item,
      dialogue conn (change server item) = dialogue conn server)
    (items : List Item) (server : ChatServer) :
    dialogue conn (items.foldl change server) = dialogue conn server := by
  induction items generalizing server with
  | nil => rfl
  | cons item rest ih => exact (ih (change server item)).trans (hchange _ _)

@[simp] theorem dialogue_sendAll (server : ChatServer)
    (outgoing : List Outgoing) :
    dialogue conn (server.sendAll outgoing) = dialogue conn server :=
  dialogue_foldl (fun server out => dialogue_send server out.1 out.2) outgoing
    server

@[simp] theorem dialogue_sendFriendList (server : ChatServer)
    (target : Conn) :
    dialogue conn (server.sendFriendList target) = dialogue conn server :=
  dialogue_push_other rfl rfl

@[simp] theorem dialogue_notifyWithFriends (server : ChatServer)
    (uid : String) (msg : ServerMessage) :
    dialogue conn (server.notifyWithFriends uid msg) =
      dialogue conn server := by
  unfold notifyWithFriends
  split <;> simp

theorem dialogue_loginDone (server : ChatServer) (request : Nat)
    (target : Conn) (result : LoginResult) (token : String) (now : Nat) :
    dialogue conn (server.loginDone request target result token now) =
      dialogue conn server := by
  have hentered (server : ChatServer) :
      dialogue conn (server.record (.loggedIn request target result)) =
        dialogue conn server :=
    dialogue_push_other rfl rfl
  have hpending (server : ChatServer) (requests : List String) :
      dialogue conn (server.sendPendingRequests target requests) =
        dialogue conn server :=
    dialogue_foldl (fun _ _ => by simp) requests server
  have hoffline (server : ChatServer) (messages : List MessageInfo) :
      dialogue conn
          (server.sendOfflineMessages request target messages now) =
        dialogue conn server := by
    unfold sendOfflineMessages
    dsimp only
    split <;> simp
  simp [loginDone, hentered, hpending, hoffline]

theorem dialogue_chatDone (server : ChatServer) (request : Nat)
    (target : Conn) (sender recipient room content : String)
    (result : SendMessageResult) (now : Nat) :
    dialogue conn (server.chatDone request target sender recipient room
      content result now) = dialogue conn server := by
  unfold chatDone
  split_ifs
  · simp
  · dsimp only
    split <;> simp
  · simp
  · rfl

/-- Callbacks add nothing to a dialogue. -/
theorem dialogue_runCallback (server : ChatServer) (request now : Nat)
    (callback : Callback) :
    dialogue conn (server.runCallback request now callback) =
      dialogue conn server := by
  cases callback with
  | tokenLogin target result token =>
      simp only [runCallback]
      split <;> simp [dialogue_loginDone]
  | login target result =>
      simp only [runCallback]
      split <;> simp [dialogue_loginDone]
  | register target ok => exact dialogue_send server target _
  | chat target sender recipient room content result =>
      exact dialogue_chatDone server request target sender recipient room
        content result now
  | createRoom target uid name result =>
      simp only [runCallback]
      split <;> simp
  | joinRoom target uid roomName result =>
      simp only [runCallback]
      split <;> simp
  | friendRequest target sender recipient message =>
      simp [runCallback, friendRequestDone]
  | friendResponse target requester responder accepted =>
      simp [runCallback, friendResponseDone]
  | friendRemove target uid friend => simp [runCallback, friendRemoveDone]
  | recallMsg target uid msgId recipient room result =>
      simp only [runCallback, recallDone]
      split <;> simp

theorem dialogue_whenAuthenticated (server : ChatServer) (request : Nat)
    (target : Conn) (task : String → Task) :
    dialogue conn (server.whenAuthenticated request target task) =
      dialogue conn server := by
  unfold whenAuthenticated
  split <;> simp

/-- No handler shuts a connection down. -/
theorem dialogue_onEnvelope (server : ChatServer) (request : Nat)
    (target : Conn) {envelope : Envelope} (hset : envelope ≠ .notSet) :
    dialogue conn (server.onEnvelope request target envelope) =
      dialogue conn server := by
  cases envelope with
  | loginReq req =>
      show dialogue conn (server.handleLogin request target req) = _
      unfold handleLogin
      split_ifs <;> simp
  | logoutReq req =>
      have hleft (server : ChatServer) :
          dialogue conn (server.record (.loggedOut request target)) =
            dialogue conn server :=
        dialogue_push_other rfl rfl
      simp [onEnvelope, handleLogout, hleft]
  | registerReq req =>
      show dialogue conn (server.handleRegister request target req) = _
      unfold handleRegister
      split_ifs <;> simp
  | heartbeat beat => rfl
  | notSet => exact absurd rfl hset
  | _ => exact dialogue_whenAuthenticated server request target _

theorem dialogue_receive (server : ChatServer) (target : Conn)
    (envelope : Envelope) :
    dialogue conn (server.receive target envelope) =
      dialogue conn server ++ said conn (.receive target envelope) := by
  have harrived : dialogue conn (server.arrived target envelope) =
      dialogue conn server ++
        (if target = conn then [some envelope] else []) := by
    rw [dialogue_push rfl, utterance]
    split <;> rfl
  by_cases hset : envelope = .notSet
  · subst hset
    have hshutdown : dialogue conn (server.receive target .notSet) =
        dialogue conn (server.arrived target .notSet) ++
          (utterance conn (.shutdown target)).toList :=
      dialogue_push rfl
    rw [hshutdown, harrived, utterance, said]
    split <;> simp
  · have hhandled : dialogue conn (server.receive target envelope) =
        dialogue conn (server.arrived target envelope) :=
      dialogue_onEnvelope (server.arrived target envelope) server.requests
        target hset
    rw [hhandled, harrived, said, if_neg hset]

theorem dialogue_step {action : ChatServer.Action}
    (hstep : ChatServer.step config server action = some next) :
    dialogue conn next = dialogue conn server ++ said conn action := by
  have hother {after : ChatServer} {event : Event}
      (hhistory : after.history = event :: server.history)
      (hevent : utterance conn event = none) :
      dialogue conn after = dialogue conn server ++ [] :=
    (dialogue_push_other hhistory hevent).trans (List.append_nil _).symm
  cases steps_of_step hstep with
  | receive target envelope => exact dialogue_receive server target envelope
  | invalidLength target =>
      rw [dialogue_push rfl, utterance, said]
      split <;> rfl
  | parseError target => exact hother rfl rfl
  | close target => exact hother rfl rfl
  | start request task rest hqueue => exact hother rfl rfl
  | call index worker call rest answer hworker hprog => exact hother rfl rfl
  | finish index request task callback hworker =>
      cases callback with
      | none => exact (List.append_nil _).symm
      | some callback => exact (List.append_nil _).symm
  | callback loop now request callback rest hloop =>
      exact (dialogue_runCallback _ request now callback).trans
        (List.append_nil _).symm

theorem dialogue_run {actions : List ChatServer.Action}
    (hrun : Runs.runFrom (ChatServer.step config) server actions =
      some next) :
    dialogue conn next =
      dialogue conn server ++ actions.flatMap (said conn) := by
  induction actions generalizing server with
  | nil =>
      cases hrun
      exact (List.append_nil _).symm
  | cons action rest ih =>
      obtain ⟨middle, hstep, hrest⟩ := Option.bind_eq_some_iff.mp hrun
      rw [ih hrest, dialogue_step hstep, List.flatMap_cons,
        List.append_assoc]

end Dialogues

/-! ## The calls of the codec -/

/-- A refused length ends the frames for good: from then on every call of the
codec is another shutdown. -/
theorem receive_calls (host : ByteOrder) (bytes : Bytes)
    (chunks : List Bytes) :
    ∃ count, ChatCodec.receive host ⟨bytes⟩ chunks =
      .ok ((wireReader.feed bytes chunks).1.map .handleMessage ++
        List.replicate count .shutdown,
          ⟨(wireReader.feed bytes chunks).2⟩) := by
  induction chunks generalizing bytes with
  | nil => exact ⟨0, rfl⟩
  | cons chunk rest ih =>
      obtain ⟨count, hrest⟩ := ih (wireReader.drain (bytes ++ chunk)).2
      have hfirst : ChatCodec.receive host ⟨bytes⟩ (chunk :: rest) =
          .ok ((loopResult (bytes ++ chunk)).1 ++
            ((wireReader.feed (wireReader.drain (bytes ++ chunk)).2 rest).1.map
              .handleMessage ++ List.replicate count .shutdown),
            ⟨(wireReader.feed bytes (chunk :: rest)).2⟩) := by
        have hbuffer : (loopResult (bytes ++ chunk)).2 =
            ⟨(wireReader.drain (bytes ++ chunk)).2⟩ := rfl
        simp only [ChatCodec.receive, Buffer.append, ChatCodec.onMessage_eq,
          bind, Except.bind, hbuffer, hrest]
        rfl
      rw [hfirst]
      have hfeed : (wireReader.feed bytes (chunk :: rest)).1 =
          (wireReader.drain (bytes ++ chunk)).1 ++
            (wireReader.feed (wireReader.drain (bytes ++ chunk)).2 rest).1 :=
        rfl
      rcases wireReader.head_residual (bytes ++ chunk) with hhead | hhead
      · have hclosing : closingCalls (wireReader.drain (bytes ++ chunk)).2 =
            [] := by
          simp [closingCalls,
            show wireHead (wireReader.drain (bytes ++ chunk)).2 = _
              from hhead]
        refine ⟨count, ?_⟩
        rw [loopResult, hclosing, hfeed, List.append_nil, List.map_append,
          List.append_assoc]
      · have hclosing : closingCalls (wireReader.drain (bytes ++ chunk)).2 =
            [.shutdown] := by
          simp [closingCalls,
            show wireHead (wireReader.drain (bytes ++ chunk)).2 = _
              from hhead]
        refine ⟨count + 1, ?_⟩
        rw [loopResult, hclosing, hfeed, wireReader.feed_of_invalid hhead rest,
          List.append_assoc, List.append_nil, List.replicate_succ]
        rfl

section Streams

variable {host : ByteOrder} {parse : Bytes → Option Envelope}
  {config : ServerConfig} {conn : Conn}

theorem said_other {other : Conn} (hother : other ≠ conn)
    (call : CodecCall) : said conn (actionOf parse other call) = [] := by
  unfold actionOf
  split
  · split
    · rfl
    · exact if_neg hother
  · exact if_neg hother

theorem said_server {action : ChatServer.Action}
    (hinput : action.IsInput = false) : said conn action = [] := by
  cases action with
  | receive other envelope => cases hinput
  | invalidLength other => cases hinput
  | _ => rfl

/-- One step reads at most one chunk of a connection, and adds to its dialogue
what the codec calls for. -/
theorem step_reads {system next : InputServer} {action : Action}
    {chunks : List Bytes}
    (hstep : step host parse config system action = some next)
    {calls : List CodecCall} {rest : Buffer}
    (hlater : ChatCodec.receive host (next.buffers conn) chunks =
      .ok (calls, rest)) :
    ∃ first, ChatCodec.receive host (system.buffers conn)
        (chunksOn conn [action] ++ chunks) = .ok (first ++ calls, rest) ∧
      dialogue conn next.server = dialogue conn system.server ++
        first.flatMap fun call => said conn (actionOf parse conn call) := by
  cases action with
  | server action =>
      obtain ⟨hinput, hmap⟩ := Option.ite_none_left_eq_some.mp hstep
      obtain ⟨server, hserver, rfl⟩ := Option.map_eq_some_iff.mp hmap
      refine ⟨[], hlater, ?_⟩
      rw [dialogue_step hserver, said_server (by simpa using hinput)]
      rfl
  | input other chunk =>
      obtain ⟨-, hinput⟩ := Option.ite_none_right_eq_some.mp hstep
      rw [input_eq] at hinput
      obtain ⟨server, hserver, rfl⟩ := Option.map_eq_some_iff.mp hinput
      have hsaid := @dialogue_run config _ _ conn _ hserver
      rw [List.flatMap_map] at hsaid
      by_cases hother : other = conn
      · subst hother
        dsimp only at hlater
        rw [Function.update_self] at hlater
        refine ⟨_, ?_, hsaid⟩
        have hchunks : chunksOn other [.input other chunk] = [chunk] := by
          simp [chunksOn]
        rw [hchunks, List.singleton_append, ChatCodec.receive, Buffer.append,
          ChatCodec.onMessage_eq]
        simp only [bind, Except.bind, hlater]
        rfl
      · dsimp only at hlater
        rw [Function.update_of_ne (Ne.symm hother)] at hlater
        have hchunks : chunksOn conn [.input other chunk] = [] := by
          simp [chunksOn, hother]
        refine ⟨[], ?_, ?_⟩
        · rw [hchunks]
          exact hlater
        · simp only [said_other hother] at hsaid
          rw [hsaid]
          simp

/-- In a run, the codec reads on each connection the chunks that arrive there,
and its calls make up the dialogue. -/
theorem run_reads {system last : InputServer} {actions : List Action}
    (hrun : Runs.runFrom (step host parse config) system actions =
      some last) :
    ∃ calls, ChatCodec.receive host (system.buffers conn)
        (chunksOn conn actions) = .ok (calls, last.buffers conn) ∧
      dialogue conn last.server = dialogue conn system.server ++
        calls.flatMap fun call => said conn (actionOf parse conn call) := by
  induction actions generalizing system with
  | nil =>
      cases hrun
      exact ⟨[], rfl, (List.append_nil _).symm⟩
  | cons action rest ih =>
      obtain ⟨next, hstep, hrest⟩ := Option.bind_eq_some_iff.mp hrun
      obtain ⟨calls, hreceive, hlater⟩ := ih hrest
      obtain ⟨first, hfirst, hsaid⟩ := step_reads hstep hreceive
      have hchunks : chunksOn conn (action :: rest) =
          chunksOn conn [action] ++ chunksOn conn rest := by
        rw [chunksOn, ← List.singleton_append, List.filterMap_append]
        rfl
      refine ⟨first ++ calls, hchunks ▸ hfirst, ?_⟩
      rw [hlater, hsaid, List.flatMap_append, List.append_assoc]

/-! ## Whether dialogues end -/

/-- What a reception adds to the dialogue. -/
def utter (envelope : Envelope) : List (Option Envelope) :=
  some envelope :: (if envelope = .notSet then [none] else [])

theorem mem_utter {envelope : Envelope} :
    some envelope ∈ utter envelope :=
  List.mem_cons_self

theorem none_mem_utter {envelope : Envelope} :
    none ∈ utter envelope ↔ envelope = .notSet := by
  unfold utter
  split <;> simp_all

theorem eq_of_some_mem_utter {envelope other : Envelope}
    (hmem : some other ∈ utter envelope) : other = envelope := by
  unfold utter at hmem
  split at hmem <;> simpa using hmem

theorem said_handleMessage (payloads : List Bytes) :
    ((payloads.map CodecCall.handleMessage).flatMap fun call =>
      said conn (actionOf parse conn call)) =
        (payloads.filterMap parse).flatMap utter := by
  induction payloads with
  | nil => rfl
  | cons payload rest ih =>
      rw [List.map_cons, List.flatMap_cons, ih, List.filterMap_cons,
        actionOf]
      cases parse payload with
      | none => rfl
      | some envelope =>
          rw [List.flatMap_cons]
          exact congrArg (· ++ _) (if_pos rfl)

theorem said_shutdown (count : Nat) :
    ((List.replicate count CodecCall.shutdown).flatMap fun call =>
      said conn (actionOf parse conn call)) = List.replicate count none := by
  induction count with
  | zero => rfl
  | succ count ih =>
      rw [List.replicate_succ, List.flatMap_cons, ih, actionOf, said,
        if_pos rfl]
      rfl

/-- The dialogue of a connection is a function of its stream, up to the
number of shutdowns for a refused length. -/
theorem dialogue_eq {last : InputServer} {actions : List Action}
    (hrun : Runs.runFrom (step host parse config) {} actions = some last) :
    ∃ count, dialogue conn last.server =
      (envelopes parse (chunksOn conn actions).flatten).flatMap utter ++
        List.replicate count none := by
  obtain ⟨calls, hreceive, hdialogue⟩ := @run_reads _ _ _ conn _ _ _ hrun
  obtain ⟨count, hcalls⟩ := receive_calls host [] (chunksOn conn actions)
  have hstart : ({} : InputServer).buffers conn = ⟨[]⟩ := rfl
  rw [hstart, hcalls] at hreceive
  obtain ⟨rfl, -⟩ := Prod.mk.inj (Except.ok.inj hreceive)
  have hfeed : wireReader.feed [] (chunksOn conn actions) =
      wireReader.drain (chunksOn conn actions).flatten := by
    simpa using wireReader.feed_eq_drain []
      (wireReader.drain_of_incomplete rfl) (chunksOn conn actions)
  refine ⟨count, hdialogue.trans ?_⟩
  rw [List.flatMap_append, said_handleMessage, said_shutdown, hfeed]
  rfl

/-- Once there was a shutdown, no envelope with a handler is received. -/
def Ends (said : List (Option Envelope)) : Prop :=
  said.Pairwise fun earlier later => ∀ envelope, earlier = none →
    later = some envelope → envelope.Handled = false

theorem ends_iff_orderly (envelopes : List Envelope) (count : Nat) :
    Ends (envelopes.flatMap utter ++ List.replicate count none) ↔
      Orderly envelopes := by
  have hpair : ∀ earlier later : Envelope,
      (∀ x ∈ utter earlier, ∀ y ∈ utter later, ∀ envelope, x = none →
        y = some envelope → envelope.Handled = false) ↔
      (earlier = .notSet → later.Handled = false) := by
    intro earlier later
    constructor
    · intro hends hnot
      exact hends none (none_mem_utter.mpr hnot) (some later) mem_utter later
        rfl rfl
    · rintro hends x hx y hy envelope rfl rfl
      rw [eq_of_some_mem_utter hy]
      exact hends (none_mem_utter.mp hx)
  have hone : ∀ envelope ∈ envelopes,
      (utter envelope).Pairwise fun earlier later => ∀ other,
        earlier = none → later = some other → other.Handled = false := by
    intro envelope _
    unfold utter
    split <;> simp
  unfold Ends Orderly
  rw [List.pairwise_append, List.pairwise_flatMap]
  simp only [hpair]
  constructor
  · rintro ⟨⟨-, horderly⟩, -, -⟩
    exact horderly
  · intro horderly
    refine ⟨⟨hone, horderly⟩, ?_, ?_⟩
    · simp
    · intro earlier _ later hlater envelope _ hsome
      rw [List.eq_of_mem_replicate hlater] at hsome
      cases hsome

/-- Dialogues end when each of them does. -/
theorem dialoguesEnd_iff (server : ChatServer) :
    DialoguesEnd server.history ↔ ∀ conn, Ends (dialogue conn server) := by
  have hentry : ∀ (conn : Conn) (newer older : Event),
      (∀ request envelope, older = .shutdown conn →
        newer = .received request conn envelope →
          envelope.Handled = false) ↔
      ∀ later, utterance conn newer = some later →
        ∀ earlier, utterance conn older = some earlier →
          ∀ envelope, earlier = none → later = some envelope →
            envelope.Handled = false := by
    intro conn newer older
    constructor
    · rintro hends _ hnewer _ holder envelope rfl rfl
      have hold : older = .shutdown conn := by
        cases older <;> simp_all [utterance]
      have hnew : ∃ request,
          newer = .received request conn envelope := by
        cases newer <;> simp_all [utterance]
      obtain ⟨request, hnew⟩ := hnew
      exact hends request envelope hold hnew
    · rintro hends request envelope rfl rfl
      exact hends (some envelope) (by simp [utterance]) none
        (by simp [utterance]) envelope rfl rfl
  unfold DialoguesEnd Ends dialogue
  simp only [List.pairwise_reverse, List.pairwise_filterMap, ← hentry]
  simp only [List.pairwise_iff_getElem]
  exact ⟨fun hends conn i j hi hj hlt => hends i j hi hj hlt conn,
    fun hends i j hi hj hlt conn => hends conn i j hi hj hlt⟩

/-- Over every run, whatever the chunks are: dialogues end if and only if, on
every connection, no frame with a handler lies behind one without a known
payload. -/
theorem dialogues_end_iff (actions : List Action) (last : InputServer)
    (hrun : Runs.runFrom (step host parse config) {} actions = some last) :
    DialoguesEnd last.server.history ↔
      ∀ conn, Orderly (envelopes parse (chunksOn conn actions).flatten) := by
  rw [dialoguesEnd_iff]
  refine forall_congr' fun conn => ?_
  obtain ⟨count, hdialogue⟩ := @dialogue_eq _ _ _ conn _ _ hrun
  rw [hdialogue, ends_iff_orderly]

end Streams

/-! ## Frames of the client -/

section Frames

variable {host : ByteOrder} {payloads : List Bytes}

theorem drain_frames
    (hsize : ∀ payload ∈ payloads, payload.length ≤ maxPayload) :
    wireReader.drain (payloads.flatMap (ChatClient.sendEnvelope host)) =
      (payloads, []) := by
  have hframes : ∀ payload ∈ payloads,
      wireReader.head (ChatClient.sendEnvelope host payload) =
        .frame payload (ChatClient.sendEnvelope host payload).length := by
    intro payload hmem
    rw [ChatClient.sendEnvelope_eq]
    exact wireHead_frame (hsize payload hmem)
  have hdrain := wireReader.drain_frames_append
    (ChatClient.sendEnvelope host) payloads hframes []
  have hrest : wireReader.drain [] = ([], []) :=
    wireReader.drain_of_incomplete rfl
  rw [hrest] at hdrain
  simpa using hdrain

theorem envelopes_frames (parse : Bytes → Option Envelope)
    (hsize : ∀ payload ∈ payloads, payload.length ≤ maxPayload)
    (conn target : Conn) :
    envelopes parse (chunksOn conn
        [.input target (payloads.flatMap (ChatClient.sendEnvelope host))]
      ).flatten =
      if target = conn then payloads.filterMap parse else [] := by
  by_cases htarget : target = conn
  · simp [chunksOn, htarget, envelopes, drain_frames hsize]
  · have hnone : wireReader.drain [] = ([], []) :=
      wireReader.drain_of_incomplete rfl
    simp [chunksOn, htarget, envelopes, hnone]

theorem run_frames {parse : Bytes → Option Envelope}
    {config : ServerConfig} {conn : Conn} {server : ChatServer}
    (hsize : ∀ payload ∈ payloads, payload.length ≤ maxPayload)
    (hserver : Runs.runFrom (ChatServer.step config) ChatServer.initial
      (payloads.map fun payload =>
        actionOf parse conn (.handleMessage payload)) = some server) :
    Runs.runFrom (step host parse config) {}
        [.input conn (payloads.flatMap (ChatClient.sendEnvelope host))] =
      some ⟨server, Function.update (fun _ => {}) conn ⟨[]⟩⟩ := by
  have hloop : loopResult
      (payloads.flatMap (ChatClient.sendEnvelope host)) =
        (payloads.map .handleMessage, ⟨[]⟩) := by
    rw [loopResult, drain_frames hsize]
    exact congrArg (·, _) (List.append_nil _)
  have hconnected :
      ({} : InputServer).server.sessions.connected conn = true := rfl
  rw [Runs.runFrom_cons, step, if_pos hconnected, input_eq]
  simp only [List.nil_append, hloop, List.map_map]
  exact congrArg (fun next => (Option.map _ next).bind _) hserver

end Frames

/-- What protobuf finds in an empty payload, and in one with an empty logout
request. -/
def parseSample (payload : Bytes) : Option Envelope :=
  if payload = [] then some .notSet
  else if payload = [0x5A, 0] then some (.logoutReq {})
  else none

def oneLoop : ServerConfig := { threads := 1, loopOf := fun _ => 0 }

def sampleInput (payloads : List Bytes) : List Action :=
  [.input 0 (payloads.flatMap (ChatClient.sendEnvelope .little))]

theorem dialogues_end_logoutFirst :
    ∃ last, Runs.runFrom (step .little parseSample oneLoop) {}
        (sampleInput [[0x5A, 0], []]) = some last ∧
      DialoguesEnd last.server.history := by
  have hsize : ∀ payload ∈ [[0x5A, 0], []],
      List.length (α := UInt8) payload ≤ maxPayload := by
    decide
  have hrun := @run_frames .little _ parseSample oneLoop 0 _ hsize rfl
  refine ⟨_, hrun, (dialogues_end_iff _ _ hrun).mpr fun conn => ?_⟩
  rw [envelopes_frames parseSample hsize]
  split
  · simp [parseSample, Orderly]
  · exact List.Pairwise.nil

/-- A logout request behind an envelope without a payload, both in one
chunk: the connection is shut down, and then the request is handled. -/
theorem dialogues_end_fails_logoutBehind :
    ∃ last, Runs.runFrom (step .little parseSample oneLoop) {}
        (sampleInput [[], [0x5A, 0]]) = some last ∧
      last.server.history =
        [.sent 0 ServerReplies.logoutReply, .loggedOut 1 0,
          .received 1 0 (.logoutReq {}), .shutdown 0,
          .received 0 0 .notSet] ∧
      ¬ DialoguesEnd last.server.history := by
  have hsize : ∀ payload ∈ [[], [0x5A, 0]],
      List.length (α := UInt8) payload ≤ maxPayload := by
    decide
  refine ⟨_, @run_frames .little _ parseSample oneLoop 0 _ hsize rfl, rfl,
    ?_⟩
  intro hends
  have hhandled := List.pairwise_iff_getElem.mp hends 2 3 (by decide)
    (by decide) (by decide) 0 1 (.logoutReq {}) rfl rfl
  cases hhandled

end InputServer

end MuduoChat
