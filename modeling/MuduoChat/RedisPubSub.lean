import MuduoChat.CStrings
import MuduoChat.LabelledRuns
import Mathlib.Logic.Function.Basic
import Mathlib.Data.List.Basic

/-!
# Subscriptions at Redis

`RedisPubSub` has a connection for its subscriptions, and a thread that reads
this connection once it is started.  The client library does not tell answers
from other replies: a command writes itself into a buffer, takes the next
reply on its connection for its own, and sends the buffer only if it finds no
reply that was read earlier.  On a connection with subscriptions the next
reply may as well be a message.

The methods are called by one thread, before and after the other one is
started, and nothing keeps the two out of the library at the same time.  What
the library does between two looks at its buffers is taken as one step.
-/

namespace MuduoChat

/-- An array of three elements; the last one is a number in the answers to
commands. -/
structure PushReply where
  type : String
  channel : String
  message : String := ""
  deriving DecidableEq

inductive PushCommand where
  | subscribe (channel : String)
  | unsubscribe (channel : String)
  deriving DecidableEq

/-- What the thread that calls the methods is doing. -/
inductive PubSubCaller where
  | idle
  /-- In `redisCommand`, until there is a reply. -/
  | awaiting
  /-- In `stop`, until the other thread has ended. -/
  | joining
  deriving DecidableEq

/-- Where the thread of `runLoop` is. -/
inductive PubSubLoop where
  | notStarted
  /-- Before the test of `running_`. -/
  | testing
  /-- In `redisGetReply`. -/
  | waiting
  | ended
  deriving DecidableEq

/-- Who has read a reply. -/
inductive PubSubReader where
  /-- A command, as its answer. -/
  | caller
  /-- The thread of `runLoop`. -/
  | loop
  deriving DecidableEq

/-- The object together with its connection: commands go from `written` by
`incoming` to the server, and replies from the server by `outgoing` to
`reader`.  The last three fields keep account of what has happened. -/
structure RedisPubSub where
  running : Bool := false
  /-- `sub_conn_` is not a null pointer. -/
  connected : Bool := true
  err : Bool := false
  callbacks : String → Option ℕ := fun _ => none
  caller : PubSubCaller := .idle
  loop : PubSubLoop := .notStarted
  written : List PushCommand := []
  incoming : List PushCommand := []
  channels : List String := []
  outgoing : List PushReply := []
  reader : List PushReply := []
  /-- All replies of the server. -/
  replied : List PushReply := []
  /-- The replies that have been read. -/
  read : List (PubSubReader × PushReply) := []
  /-- The calls of the callbacks. -/
  delivered : List (ℕ × String × String) := []

namespace RedisPubSub

inductive Action where
  | subscribe (channel : String) (callback : ℕ)
  | unsubscribe (channel : String)
  /-- The command has its reply, or the connection is broken. -/
  | answered
  | start
  | test
  /-- `runLoop` has its reply, or the connection is broken. -/
  | reply
  | stop
  | joined
  /-- The library sends what is in its buffer. -/
  | flush
  /-- The library reads `count + 1` replies at once. -/
  | fill (count : ℕ)
  /-- The server executes a command. -/
  | serve
  /-- Somebody publishes a message. -/
  | publish (channel message : String)
  | lose

/-- What `runLoop` does with a reply. -/
def dispatch (callbacks : String → Option ℕ) (reply : PushReply) :
    Option (ℕ × String × String) :=
  if cstr reply.type = "message" then
    (callbacks (cstr reply.channel)).map fun callback =>
      (callback, cstr reply.channel, cstr reply.message)
  else none

/-- A thread is in the library and finds nothing that was read earlier.  It
sends what is written before it waits; that it may do so again only adds
runs. -/
def Blocked (pubsub : RedisPubSub) : Prop :=
  (pubsub.caller = .awaiting ∨ pubsub.loop = .waiting) ∧
    pubsub.reader = [] ∧ pubsub.err = false

instance (pubsub : RedisPubSub) : Decidable pubsub.Blocked :=
  inferInstanceAs (Decidable (_ ∧ _))

/-- The test of `subscribe` and `unsubscribe`. -/
def Callable (pubsub : RedisPubSub) : Prop :=
  pubsub.connected = true ∧ pubsub.caller = .idle

instance (pubsub : RedisPubSub) : Decidable pubsub.Callable :=
  inferInstanceAs (Decidable (_ ∧ _))

def subscribe (pubsub : RedisPubSub) (channel : String) (callback : ℕ) :
    RedisPubSub :=
  { pubsub with
    callbacks := Function.update pubsub.callbacks channel (some callback)
    written := pubsub.written ++ [.subscribe (cstr channel)]
    caller := .awaiting }

def unsubscribe (pubsub : RedisPubSub) (channel : String) : RedisPubSub :=
  { pubsub with
    callbacks := Function.update pubsub.callbacks channel none
    written := pubsub.written ++ [.unsubscribe (cstr channel)]
    caller := .awaiting }

/-- The server answers on the connection. -/
def sendReply (pubsub : RedisPubSub) (reply : PushReply) : RedisPubSub :=
  { pubsub with
    outgoing := pubsub.outgoing ++ [reply]
    replied := pubsub.replied ++ [reply] }

def serve (pubsub : RedisPubSub) : PushCommand → RedisPubSub
  | .subscribe channel =>
      { pubsub.sendReply { type := "subscribe", channel := channel } with
        channels := pubsub.channels.insert channel }
  | .unsubscribe channel =>
      { pubsub.sendReply { type := "unsubscribe", channel := channel } with
        channels := pubsub.channels.erase channel }

/-- One round of the loop in `runLoop`, up to the next test. -/
def handle (pubsub : RedisPubSub) (reply : PushReply)
    (rest : List PushReply) : RedisPubSub :=
  { pubsub with
    reader := rest
    read := pubsub.read ++ [(.loop, reply)]
    delivered := pubsub.delivered ++
      (dispatch pubsub.callbacks reply).toList
    loop := .testing }

def step (pubsub : RedisPubSub) : Action → Option RedisPubSub
  | .subscribe channel callback =>
      if pubsub.Callable then some (pubsub.subscribe channel callback)
      else none
  | .unsubscribe channel =>
      if pubsub.Callable then some (pubsub.unsubscribe channel) else none
  | .answered =>
      if pubsub.caller = .awaiting then
        match pubsub.reader with
        | reply :: rest => some { pubsub with
            reader := rest
            read := pubsub.read ++ [(.caller, reply)]
            caller := .idle }
        | [] =>
            if pubsub.err then some { pubsub with caller := .idle } else none
      else none
  | .start =>
      if pubsub.caller = .idle ∧ pubsub.running = false then
        some { pubsub with
          running := true
          loop := if pubsub.connected then .testing else .ended }
      else none
  | .test =>
      if pubsub.loop = .testing then some { pubsub with
        loop := if pubsub.running then .waiting else .ended }
      else none
  | .reply =>
      if pubsub.loop = .waiting then
        match pubsub.reader with
        | reply :: rest => some (pubsub.handle reply rest)
        | [] =>
            if pubsub.err then some { pubsub with loop := .testing } else none
      else none
  | .stop =>
      if pubsub.caller = .idle then
        some { pubsub with running := false, caller := .joining }
      else none
  | .joined =>
      if pubsub.caller = .joining ∧
          (pubsub.loop = .notStarted ∨ pubsub.loop = .ended) then
        some { pubsub with connected := false, caller := .idle }
      else none
  | .flush =>
      if pubsub.Blocked then some { pubsub with
        written := []
        incoming := pubsub.incoming ++ pubsub.written }
      else none
  | .fill count =>
      if pubsub.Blocked ∧ pubsub.written = [] ∧
          count < pubsub.outgoing.length then
        some { pubsub with
          reader := pubsub.outgoing.take (count + 1)
          outgoing := pubsub.outgoing.drop (count + 1) }
      else none
  | .serve =>
      match pubsub.incoming with
      | [] => none
      | command :: rest =>
          some ({ pubsub with incoming := rest }.serve command)
  | .publish channel message =>
      if channel ∈ pubsub.channels then
        some (pubsub.sendReply
          { type := "message", channel := channel, message := message })
      else some pubsub
  | .lose => some { pubsub with err := true }

/-- What each action does, with what it found. -/
inductive Steps (pubsub : RedisPubSub) : Action → RedisPubSub → Prop
  | subscribe {channel : String} {callback : ℕ} (hcallable : pubsub.Callable) :
      Steps pubsub (.subscribe channel callback)
        (pubsub.subscribe channel callback)
  | unsubscribe {channel : String} (hcallable : pubsub.Callable) :
      Steps pubsub (.unsubscribe channel) (pubsub.unsubscribe channel)
  | answered {reply : PushReply} {rest : List PushReply}
      (hawaiting : pubsub.caller = .awaiting)
      (hreader : pubsub.reader = reply :: rest) :
      Steps pubsub .answered
        { pubsub with
          reader := rest
          read := pubsub.read ++ [(.caller, reply)]
          caller := .idle }
  | unanswered (hawaiting : pubsub.caller = .awaiting)
      (herr : pubsub.err = true) :
      Steps pubsub .answered { pubsub with caller := .idle }
  | start (hidle : pubsub.caller = .idle) :
      Steps pubsub .start
        { pubsub with
          running := true
          loop := if pubsub.connected then .testing else .ended }
  | test (htesting : pubsub.loop = .testing) :
      Steps pubsub .test
        { pubsub with loop := if pubsub.running then .waiting else .ended }
  | reply {reply : PushReply} {rest : List PushReply}
      (hreader : pubsub.reader = reply :: rest) :
      Steps pubsub .reply (pubsub.handle reply rest)
  | noReply (herr : pubsub.err = true) :
      Steps pubsub .reply { pubsub with loop := .testing }
  | stop (hidle : pubsub.caller = .idle) :
      Steps pubsub .stop
        { pubsub with running := false, caller := .joining }
  | joined (hloop : pubsub.loop = .notStarted ∨ pubsub.loop = .ended) :
      Steps pubsub .joined { pubsub with connected := false, caller := .idle }
  | flush :
      Steps pubsub .flush
        { pubsub with
          written := []
          incoming := pubsub.incoming ++ pubsub.written }
  | fill {count : Nat} (hreader : pubsub.reader = [])
      (hcount : count < pubsub.outgoing.length) :
      Steps pubsub (.fill count)
        { pubsub with
          reader := pubsub.outgoing.take (count + 1)
          outgoing := pubsub.outgoing.drop (count + 1) }
  | serve {command : PushCommand} {rest : List PushCommand}
      (hincoming : pubsub.incoming = command :: rest) :
      Steps pubsub .serve
        (({ pubsub with incoming := rest } : RedisPubSub).serve command)
  | published {channel message : String} (hmem : channel ∈ pubsub.channels) :
      Steps pubsub (.publish channel message)
        (pubsub.sendReply
          { type := "message", channel := channel, message := message })
  | unheard {channel message : String} :
      Steps pubsub (.publish channel message) pubsub
  | lose : Steps pubsub .lose { pubsub with err := true }

theorem steps_of_step {pubsub next : RedisPubSub} {action : Action}
    (hstep : pubsub.step action = some next) : Steps pubsub action next := by
  cases action with
  | subscribe channel callback =>
      obtain ⟨hcallable, hnext⟩ := Option.ite_none_right_eq_some.mp hstep
      cases hnext
      exact .subscribe hcallable
  | unsubscribe channel =>
      obtain ⟨hcallable, hnext⟩ := Option.ite_none_right_eq_some.mp hstep
      cases hnext
      exact .unsubscribe hcallable
  | answered =>
      obtain ⟨hawaiting, hnext⟩ := Option.ite_none_right_eq_some.mp hstep
      split at hnext
      · rename_i hreader
        cases hnext
        exact .answered hawaiting hreader
      · obtain ⟨herr, hnext⟩ := Option.ite_none_right_eq_some.mp hnext
        cases hnext
        exact .unanswered hawaiting herr
  | start =>
      obtain ⟨⟨hidle, _⟩, hnext⟩ := Option.ite_none_right_eq_some.mp hstep
      cases hnext
      exact .start hidle
  | test =>
      obtain ⟨htesting, hnext⟩ := Option.ite_none_right_eq_some.mp hstep
      cases hnext
      exact .test htesting
  | reply =>
      obtain ⟨_, hnext⟩ := Option.ite_none_right_eq_some.mp hstep
      split at hnext
      · rename_i hreader
        cases hnext
        exact .reply hreader
      · obtain ⟨herr, hnext⟩ := Option.ite_none_right_eq_some.mp hnext
        cases hnext
        exact .noReply herr
  | stop =>
      obtain ⟨hidle, hnext⟩ := Option.ite_none_right_eq_some.mp hstep
      cases hnext
      exact .stop hidle
  | joined =>
      obtain ⟨⟨_, hloop⟩, hnext⟩ := Option.ite_none_right_eq_some.mp hstep
      cases hnext
      exact .joined hloop
  | flush =>
      obtain ⟨_, hnext⟩ := Option.ite_none_right_eq_some.mp hstep
      cases hnext
      exact .flush
  | fill count =>
      obtain ⟨⟨hblocked, _, hcount⟩, hnext⟩ :=
        Option.ite_none_right_eq_some.mp hstep
      cases hnext
      exact .fill hblocked.2.1 hcount
  | serve =>
      simp only [RedisPubSub.step] at hstep
      split at hstep
      · cases hstep
      · rename_i hincoming
        cases hstep
        exact .serve hincoming
  | publish channel message =>
      simp only [RedisPubSub.step] at hstep
      split at hstep
      · rename_i hmem
        cases hstep
        exact .published hmem
      · cases hstep
        exact .unheard
  | lose =>
      cases hstep
      exact .lose

/-- The replies that `reader` has read. -/
def readBy (pubsub : RedisPubSub) (reader : PubSubReader) : List PushReply :=
  (pubsub.read.filter (·.1 = reader)).map Prod.snd

theorem readBy_concat {pubsub next : RedisPubSub} {reader : PubSubReader}
    {reply : PushReply} (hread : next.read = pubsub.read ++ [(reader, reply)])
    (other : PubSubReader) :
    next.readBy other =
      pubsub.readBy other ++ if reader = other then [reply] else [] := by
  rw [readBy, hread, List.filter_append, List.map_append]
  by_cases hreader : reader = other <;> simp [readBy, hreader]

/-! ## Accounts of the replies -/

section Accounting

variable {pubsub next : RedisPubSub} {action : Action}

/-- All replies have been read, lie in the library, or are on their way, in
the order in which the server has sent them. -/
def Accounted (pubsub : RedisPubSub) : Prop :=
  pubsub.replied =
    pubsub.read.map Prod.snd ++ pubsub.reader ++ pubsub.outgoing

theorem Accounted.sendReply (hpubsub : pubsub.Accounted)
    (reply : PushReply) : (pubsub.sendReply reply).Accounted := by
  show pubsub.replied ++ [reply] = pubsub.read.map Prod.snd ++
    pubsub.reader ++ (pubsub.outgoing ++ [reply])
  rw [← List.append_assoc, ← hpubsub]

/-- A reply from the library is read. -/
theorem Accounted.take (hpubsub : pubsub.Accounted) {reader : PubSubReader}
    {reply : PushReply} {rest : List PushReply}
    (hreader : pubsub.reader = reply :: rest) :
    pubsub.replied = (pubsub.read ++ [(reader, reply)]).map Prod.snd ++
      rest ++ pubsub.outgoing := by
  rw [hpubsub, hreader]
  simp

theorem Accounted.serve (hpubsub : pubsub.Accounted)
    (command : PushCommand) : (pubsub.serve command).Accounted := by
  cases command with
  | subscribe channel =>
      exact hpubsub.sendReply { type := "subscribe", channel := channel }
  | unsubscribe channel =>
      exact hpubsub.sendReply { type := "unsubscribe", channel := channel }

theorem Accounted.step (hpubsub : pubsub.Accounted)
    (hstep : pubsub.step action = some next) : next.Accounted := by
  cases steps_of_step hstep with
  | answered _ hreader | reply hreader => exact hpubsub.take hreader
  | fill hreader =>
      rename_i count _
      show pubsub.replied = pubsub.read.map Prod.snd ++
        pubsub.outgoing.take (count + 1) ++ pubsub.outgoing.drop (count + 1)
      rw [List.append_assoc, List.take_append_drop, hpubsub, hreader,
        List.append_nil]
  | serve =>
      rename_i command rest _
      have hrest : Accounted { pubsub with incoming := rest } := hpubsub
      exact hrest.serve command
  | published => exact hpubsub.sendReply _
  | _ => exact hpubsub

theorem accounted_of_run {actions : List Action}
    (hrun : Runs.runFrom RedisPubSub.step {} actions = some pubsub) :
    pubsub.Accounted := by
  have hstart : Accounted {} := rfl
  exact Runs.invariant_of_run hstart
    (fun _ _ _ hstep hpubsub => hpubsub.step hstep) hrun

end Accounting

/-! ## Answers -/

/-- The calls that write a command. -/
def Action.isCall : Action → Bool
  | .subscribe _ _ | .unsubscribe _ => true
  | _ => false

/-- The answers that were taken, and the one that is still awaited. -/
def answers (pubsub : RedisPubSub) : ℕ :=
  (pubsub.readBy .caller).length + if pubsub.caller = .awaiting then 1 else 0

theorem answers_step {pubsub next : RedisPubSub} {action : Action}
    (hstep : pubsub.step action = some next) :
    next.answers ≤ pubsub.answers + if action.isCall then 1 else 0 := by
  cases steps_of_step hstep with
  | subscribe hcallable | unsubscribe hcallable =>
      simp [answers, readBy, RedisPubSub.subscribe, RedisPubSub.unsubscribe,
        Action.isCall, hcallable.2]
  | answered hawaiting =>
      rw [answers, readBy_concat rfl]
      simp [answers, hawaiting, Action.isCall]
  | reply =>
      rw [answers, readBy_concat rfl, if_neg (by decide), List.append_nil]
      exact Nat.le_add_right _ _
  | unanswered | stop | joined =>
      exact Nat.le_add_right_of_le (Nat.add_le_add_left (by simp) _)
  | serve =>
      rename_i command _ _
      cases command <;> exact Nat.le_add_right _ _
  | _ => exact Nat.le_add_right _ _

/-- A call takes at most one reply. -/
theorem answers_of_run {pubsub : RedisPubSub} {actions : List Action}
    (hrun : Runs.runFrom step {} actions = some pubsub) :
    pubsub.answers ≤ actions.countP Action.isCall := by
  induction actions using List.reverseRecOn generalizing pubsub with
  | nil =>
      cases hrun
      exact le_rfl
  | append_singleton actions action ih =>
      obtain ⟨before, hbefore, hstep⟩ := Runs.runFrom_concat_eq_some hrun
      rw [List.countP_append, List.countP_singleton]
      exact (answers_step hstep).trans (Nat.add_le_add_right (ih hbefore) _)

/-! ## What is delivered -/

/-- The call of `callback` for a reply, if it is a message on `channel`. -/
def deliveryOn (channel : String) (callback : ℕ) (reply : PushReply) :
    Option (ℕ × String × String) :=
  if cstr reply.type = "message" ∧ cstr reply.channel = channel then
    some (callback, channel, cstr reply.message)
  else none

def deliveredOn (pubsub : RedisPubSub) (channel : String) :
    List (ℕ × String × String) :=
  pubsub.delivered.filter (·.2.1 = channel)

/-- The calls for `channel` leave it the one `callback`. -/
def Action.Keeps (channel : String) (callback : ℕ) : Action → Prop
  | .subscribe other callback' =>
      (cstr other = channel → other = channel) ∧
        (other = channel → callback' = callback)
  | .unsubscribe other => other ≠ channel
  | _ => True

section Delivering

variable {channel : String} {callback : ℕ}
variable {pubsub next : RedisPubSub} {action : Action}

theorem dispatch_filter {callbacks : String → Option ℕ} {reply : PushReply}
    (hset : cstr reply.type = "message" → cstr reply.channel = channel →
      callbacks channel = some callback) :
    (dispatch callbacks reply).toList.filter (·.2.1 = channel) =
      (deliveryOn channel callback reply).toList := by
  rw [dispatch, deliveryOn]
  by_cases htype : cstr reply.type = "message"
  · rw [if_pos htype]
    by_cases hchannel : cstr reply.channel = channel
    · rw [hchannel, hset htype hchannel]
      simp [htype]
    · cases callbacks (cstr reply.channel) <;> simp [hchannel]
  · simp [htype]

/-- Whoever sends messages on `channel` was asked to, and then `callback` was
set. -/
structure Follows (channel : String) (callback : ℕ)
    (pubsub : RedisPubSub) : Prop where
  asked : ∀ other, PushCommand.subscribe other ∈
    pubsub.incoming ++ pubsub.written → cstr other = channel →
      pubsub.callbacks channel = some callback
  subscribed : ∀ other ∈ pubsub.channels, cstr other = channel →
    pubsub.callbacks channel = some callback
  sent : ∀ reply ∈ pubsub.replied, cstr reply.type = "message" →
    cstr reply.channel = channel → pubsub.callbacks channel = some callback
  delivered : pubsub.deliveredOn channel =
    (pubsub.readBy .loop).filterMap (deliveryOn channel callback)

theorem follows_start : Follows channel callback {} := by
  constructor <;> simp [deliveredOn, readBy]

/-- A call that writes `command` and sets the callbacks. -/
theorem Follows.called (hpubsub : Follows channel callback pubsub)
    {callbacks : String → Option ℕ} {command : PushCommand}
    (hkept : pubsub.callbacks channel = some callback →
      callbacks channel = some callback)
    (hset : ∀ other, command = .subscribe other → cstr other = channel →
      callbacks channel = some callback) :
    Follows channel callback { pubsub with
      callbacks := callbacks
      written := pubsub.written ++ [command]
      caller := .awaiting } := by
  refine ⟨?_, ?_, ?_, hpubsub.delivered⟩
  · intro other hasked hother
    rw [← List.append_assoc, List.mem_append, List.mem_singleton] at hasked
    rcases hasked with hasked | hnew
    · exact hkept (hpubsub.asked other hasked hother)
    · exact hset other hnew.symm hother
  · exact fun other hmem hother =>
      hkept (hpubsub.subscribed other hmem hother)
  · exact fun reply hmem htype hchannel =>
      hkept (hpubsub.sent reply hmem htype hchannel)

theorem Follows.sendReply (hpubsub : Follows channel callback pubsub)
    (reply : PushReply)
    (hreply : cstr reply.type = "message" → cstr reply.channel = channel →
      pubsub.callbacks channel = some callback) :
    Follows channel callback (pubsub.sendReply reply) := by
  refine ⟨hpubsub.asked, hpubsub.subscribed, ?_, hpubsub.delivered⟩
  intro other hmem
  have hmem : other ∈ pubsub.replied ++ [reply] := hmem
  rw [List.mem_append, List.mem_singleton] at hmem
  rcases hmem with hmem | rfl
  · exact hpubsub.sent other hmem
  · exact hreply

theorem Follows.serve (hpubsub : Follows channel callback pubsub)
    {command : PushCommand} {rest : List PushCommand}
    (hincoming : pubsub.incoming = command :: rest) :
    Follows channel callback
      (({ pubsub with incoming := rest } : RedisPubSub).serve command) := by
  have hrest : Follows channel callback { pubsub with incoming := rest } := by
    refine ⟨fun other hmem => hpubsub.asked other ?_, hpubsub.subscribed,
      hpubsub.sent, hpubsub.delivered⟩
    rw [hincoming]
    exact List.mem_cons_of_mem _ hmem
  have hsubscribe : cstr "subscribe" ≠ "message" := by decide
  have hunsubscribe : cstr "unsubscribe" ≠ "message" := by decide
  cases command with
  | subscribe name =>
      have hsent := hrest.sendReply
        { type := "subscribe", channel := name }
        fun htype => absurd htype hsubscribe
      refine ⟨hsent.asked, ?_, hsent.sent, hsent.delivered⟩
      intro other hmem hother
      rcases List.mem_insert_iff.mp hmem with rfl | hmem
      · refine hpubsub.asked other ?_ hother
        rw [hincoming]
        exact List.mem_cons_self
      · exact hpubsub.subscribed other hmem hother
  | unsubscribe name =>
      have hsent := hrest.sendReply
        { type := "unsubscribe", channel := name }
        fun htype => absurd htype hunsubscribe
      refine ⟨hsent.asked, ?_, hsent.sent, hsent.delivered⟩
      intro other hmem
      exact hpubsub.subscribed other (List.mem_of_mem_erase hmem)

theorem Follows.answered (hpubsub : Follows channel callback pubsub)
    {reply : PushReply} {rest : List PushReply} :
    Follows channel callback { pubsub with
      reader := rest
      read := pubsub.read ++ [(.caller, reply)]
      caller := .idle } := by
  refine ⟨hpubsub.asked, hpubsub.subscribed, hpubsub.sent, ?_⟩
  have hloop : readBy { pubsub with
      reader := rest
      read := pubsub.read ++ [(.caller, reply)]
      caller := .idle } .loop = pubsub.readBy .loop := by
    rw [readBy_concat rfl]
    exact List.append_nil _
  exact hpubsub.delivered.trans (by rw [hloop])

theorem Follows.handle (hpubsub : Follows channel callback pubsub)
    (haccounted : pubsub.Accounted) {reply : PushReply}
    {rest : List PushReply} (hreader : pubsub.reader = reply :: rest) :
    Follows channel callback (pubsub.handle reply rest) := by
  have hmem : reply ∈ pubsub.replied := by
    rw [haccounted, hreader]
    simp
  refine ⟨hpubsub.asked, hpubsub.subscribed, hpubsub.sent, ?_⟩
  have hon := hpubsub.delivered
  rw [deliveredOn] at hon ⊢
  rw [@readBy_concat pubsub _ .loop reply rfl, RedisPubSub.handle,
    List.filter_append, hon, dispatch_filter (hpubsub.sent reply hmem),
    List.filterMap_append]
  cases hdelivery : deliveryOn channel callback reply <;> simp [hdelivery]

theorem Follows.step (hpubsub : Follows channel callback pubsub)
    (haccounted : pubsub.Accounted) (hkeeps : action.Keeps channel callback)
    (hstep : pubsub.step action = some next) :
    Follows channel callback next := by
  cases steps_of_step hstep with
  | subscribe =>
      rename_i other callback' _
      obtain ⟨hcut, hsame⟩ := hkeeps
      have hset : other = channel →
          Function.update pubsub.callbacks other (some callback') channel =
            some callback := by
        rintro rfl
        rw [Function.update_self, hsame rfl]
      refine hpubsub.called (fun hold => ?_) fun name hname hchannel => ?_
      · by_cases hother : other = channel
        · exact hset hother
        · rwa [Function.update_of_ne (Ne.symm hother)]
      · obtain rfl := PushCommand.subscribe.inj hname
        exact hset (hcut (cstr_cstr other ▸ hchannel))
  | unsubscribe =>
      refine hpubsub.called (fun hold => ?_) fun name hname => nomatch hname
      rwa [Function.update_of_ne (Ne.symm hkeeps)]
  | answered => exact hpubsub.answered
  | reply hreader => exact hpubsub.handle haccounted hreader
  | flush =>
      refine { hpubsub with asked := fun other hmem => ?_ }
      rw [List.append_nil] at hmem
      exact hpubsub.asked other hmem
  | serve hincoming => exact hpubsub.serve hincoming
  | published hmem =>
      exact hpubsub.sendReply _ fun _ hname =>
        hpubsub.subscribed _ hmem hname
  | _ => exact { hpubsub with }

theorem follows_of_run {actions : List Action}
    (hkeeps : ∀ action ∈ actions, action.Keeps channel callback)
    (hrun : Runs.runFrom RedisPubSub.step {} actions = some pubsub) :
    Follows channel callback pubsub := by
  have heach : Runs.EachStep RedisPubSub.step
      (fun _ action => action.Keeps channel callback) {} actions :=
    Runs.eachStep_of_forall fun action haction _ => hkeeps action haction
  have halways : Runs.Always RedisPubSub.step
      (fun pubsub => pubsub.Accounted ∧ Follows channel callback pubsub)
      {} actions := by
    refine Runs.always_of_eachStep ⟨rfl, follows_start⟩ ?_ heach
    rintro pubsub action next hstep ⟨haccounted, hfollows⟩ hok
    exact ⟨haccounted.step hstep, hfollows.step haccounted hok hstep⟩
  exact (halways actions pubsub (List.prefix_refl actions) hrun).2

end Delivering

/-- What a filter leaves gives as much as the whole list if and only if the
rest gives nothing. -/
theorem filterMap_filter_eq_iff {α β : Type*} {p : α → Bool} {f : α → Option β}
    {list : List α} :
    (list.filter p).filterMap f = list.filterMap f ↔
      ∀ a ∈ list, p a = false → f a = none := by
  induction list with
  | nil => simp
  | cons a rest ih =>
      have hshort : ((rest.filter p).filterMap f).length ≤
          (rest.filterMap f).length :=
        (List.filter_sublist.filterMap f).length_le
      rw [List.forall_mem_cons, ← ih]
      cases hp : p a <;> cases hf : f a <;> simp [hp, hf]
      intro heq
      rw [heq] at hshort
      rw [List.length_cons] at hshort
      exact absurd hshort (Nat.not_succ_le_self _)

/-- Every reply is read once, in order, by one of the two threads, and each
call takes at most one of them.  On a channel that keeps its callback, the
callback is called once for each message that `runLoop` has read, so that
none is lost if and only if no call has taken one for its answer. -/
theorem deliveries_of_run {channel : String} {callback : ℕ}
    {actions : List Action} {pubsub : RedisPubSub}
    (hkeeps : ∀ action ∈ actions, action.Keeps channel callback)
    (hrun : Runs.runFrom step {} actions = some pubsub) :
    pubsub.replied =
        pubsub.read.map Prod.snd ++ pubsub.reader ++ pubsub.outgoing ∧
      (pubsub.readBy .caller).length ≤ actions.countP Action.isCall ∧
      pubsub.deliveredOn channel =
        (pubsub.readBy .loop).filterMap (deliveryOn channel callback) ∧
      (pubsub.reader = [] → pubsub.outgoing = [] →
        (pubsub.deliveredOn channel =
            pubsub.replied.filterMap (deliveryOn channel callback) ↔
          ∀ reply ∈ pubsub.readBy .caller,
            deliveryOn channel callback reply = none)) := by
  have haccounted : pubsub.Accounted := accounted_of_run hrun
  have hdelivered := (follows_of_run hkeeps hrun).delivered
  have hanswers : (pubsub.readBy .caller).length ≤ pubsub.answers :=
    Nat.le_add_right _ _
  refine ⟨haccounted, hanswers.trans (answers_of_run hrun), hdelivered, ?_⟩
  intro hreader houtgoing
  rw [Accounted, hreader, houtgoing, List.append_nil, List.append_nil]
    at haccounted
  rw [hdelivered, haccounted, readBy, List.filterMap_map, List.filterMap_map,
    filterMap_filter_eq_iff, readBy, List.forall_mem_map]
  constructor
  · intro hnone entry hmem
    obtain ⟨hmem, hcaller⟩ := List.mem_filter.mp hmem
    rw [decide_eq_true_iff] at hcaller
    exact hnone entry hmem (by simp [hcaller])
  · rintro hnone ⟨reader, reply⟩ hmem hloop
    cases reader with
    | caller => exact hnone _ (List.mem_filter.mpr ⟨hmem, rfl⟩)
    | loop => simp at hloop

/-- A second subscription while the other thread reads: the call takes a
message on the first channel for its answer. -/
def twoSubscriptions : List Action :=
  [.subscribe "news" 1, .flush, .serve, .fill 0, .answered, .start, .test,
    .publish "news" "early", .subscribe "jobs" 2, .flush, .serve, .fill 1,
    .answered, .reply, .publish "news" "late", .test, .fill 0, .reply]

theorem deliveries_of_run_twoSubscriptions : ∃ pubsub,
    Runs.runFrom step {} twoSubscriptions = some pubsub ∧
      pubsub.deliveredOn "news" = [(1, "news", "late")] ∧
      ¬ ∀ reply ∈ pubsub.readBy .caller,
        deliveryOn "news" 1 reply = none := by
  have hkeeps : ∀ action ∈ twoSubscriptions, action.Keeps "news" 1 := by
    simp [twoSubscriptions, Action.Keeps]
    decide
  obtain ⟨pubsub, hrun, hreader, houtgoing, hdelivered, hreplied⟩ :
      ∃ pubsub, Runs.runFrom step {} twoSubscriptions = some pubsub ∧
        pubsub.reader = [] ∧ pubsub.outgoing = [] ∧
        pubsub.deliveredOn "news" = [(1, "news", "late")] ∧
        (pubsub.replied.filterMap (deliveryOn "news" 1)).length = 2 :=
    ⟨_, rfl, rfl, rfl, rfl, rfl⟩
  obtain ⟨-, -, -, hiff⟩ := deliveries_of_run hkeeps hrun
  refine ⟨pubsub, hrun, hdelivered, fun hnone => ?_⟩
  rw [← (hiff hreader houtgoing).mpr hnone, hdelivered] at hreplied
  cases hreplied

/-! ## The end of the thread -/

/-- `stop` waits for the other thread, this one is in the library, no reply
is on its way, and the server has nothing to send. -/
structure Silent (pubsub : RedisPubSub) : Prop where
  caller : pubsub.caller = .joining
  connected : pubsub.connected = true
  loop : pubsub.loop = .waiting
  err : pubsub.err = false
  written : pubsub.written = []
  incoming : pubsub.incoming = []
  channels : pubsub.channels = []
  outgoing : pubsub.outgoing = []
  reader : pubsub.reader = []

/-- Nothing but a broken connection can change this. -/
theorem Silent.step {pubsub next : RedisPubSub} {action : Action}
    (hpubsub : Silent pubsub) (haction : action ≠ .lose)
    (hstep : pubsub.step action = some next) : Silent next := by
  have hbusy : pubsub.caller ≠ .idle ∧ pubsub.caller ≠ .awaiting := by
    rw [hpubsub.caller]
    decide
  have hheld : ¬ pubsub.err = true := by
    rw [hpubsub.err]
    decide
  cases steps_of_step hstep with
  | subscribe hcallable | unsubscribe hcallable =>
      exact absurd hcallable.2 hbusy.1
  | start hidle | stop hidle => exact absurd hidle hbusy.1
  | answered hawaiting | unanswered hawaiting =>
      exact absurd hawaiting hbusy.2
  | noReply herr => exact absurd herr hheld
  | reply hreader =>
      rw [hpubsub.reader] at hreader
      cases hreader
  | test htesting =>
      exact absurd (hpubsub.loop.symm.trans htesting) (by decide)
  | joined hloop =>
      rw [hpubsub.loop] at hloop
      rcases hloop with hloop | hloop <;> cases hloop
  | flush =>
      refine { hpubsub with written := rfl, incoming := ?_ }
      show pubsub.incoming ++ pubsub.written = []
      rw [hpubsub.incoming, hpubsub.written]
      rfl
  | fill _ hcount =>
      rw [hpubsub.outgoing] at hcount
      exact absurd hcount (Nat.not_lt_zero _)
  | serve hincoming =>
      rw [hpubsub.incoming] at hincoming
      cases hincoming
  | published hmem =>
      rw [hpubsub.channels] at hmem
      exact absurd hmem List.not_mem_nil
  | unheard => exact hpubsub
  | lose => exact absurd rfl haction

/-- As long as the connection holds, `stop` does not return: the thread looks
at `running_` only between two replies. -/
theorem stop_waits {pubsub last : RedisPubSub} {actions : List Action}
    (hpubsub : Silent pubsub) (hactions : ∀ action ∈ actions, action ≠ .lose)
    (hrun : Runs.runFrom step pubsub actions = some last) :
    last.caller = .joining ∧ last.connected = true ∧
      last.loop = .waiting := by
  have heach : Runs.EachStep step (fun _ action => action ≠ .lose) pubsub
      actions :=
    Runs.eachStep_of_forall fun action haction _ => hactions action haction
  have hlast : Silent last :=
    Runs.always_of_eachStep hpubsub
      (fun _ _ _ hstep hsilent hok => hsilent.step hok hstep) heach actions
      last (List.prefix_refl actions) hrun
  exact ⟨hlast.caller, hlast.connected, hlast.loop⟩

/-- What `main` does: it subscribes to nothing, and stops after the event loop
has ended. -/
def mainStops : List Action := [.start, .test, .stop]

theorem stop_waits_mainStops : ∃ pubsub last,
    Runs.runFrom step {} mainStops = some pubsub ∧
      Runs.runFrom step pubsub [.publish "news" "late", .flush] = some last ∧
      last.running = false ∧ last.caller = .joining ∧
      last.connected = true ∧ last.loop = .waiting := by
  obtain ⟨pubsub, last, hpubsub, hsilent, hlast, hrunning⟩ :
      ∃ pubsub last, Runs.runFrom step {} mainStops = some pubsub ∧
        Silent pubsub ∧
        Runs.runFrom step pubsub [.publish "news" "late", .flush] =
          some last ∧
        last.running = false :=
    ⟨_, _, rfl, ⟨rfl, rfl, rfl, rfl, rfl, rfl, rfl, rfl, rfl⟩, rfl, rfl⟩
  exact ⟨pubsub, last, hpubsub, hlast, hrunning,
    stop_waits hsilent (by simp) hlast⟩

end RedisPubSub

end MuduoChat
