import MuduoChat.NodeRequests

/-!
# A server that mirrors a node

`ChatServer` takes the answers of its repositories as they come; a node works
them out, statement by statement.  Whatever a node does can be seen at some
server as well: the messages it sends and the state they come from do not
tell the two apart.  So nothing is lost by proving what a server never does
without looking at the databases.
-/

namespace MuduoChat

namespace ChatServer

variable (server : ChatServer) (workers : List Worker) (past : List Event)

/-! ## Workers and the record -/

/-- The server with other workers and with a past behind its record. -/
def under : ChatServer :=
  { server with workers := workers, history := server.history ++ past }

/-- The function looks neither at the workers nor at the record. -/
def Uniform (act : ChatServer → ChatServer) : Prop :=
  ∀ server workers past,
    act (server.under workers past) = (act server).under workers past

@[simp] theorem under_record (event : Event) :
    (server.under workers past).record event =
      (server.record event).under workers past :=
  rfl

@[simp] theorem under_send (conn : Conn) (msg : ServerMessage) :
    (server.under workers past).send conn msg =
      (server.send conn msg).under workers past :=
  rfl

@[simp] theorem under_sendError (conn : Conn) (code : Nat)
    (reason : String) :
    (server.under workers past).sendError conn code reason =
      (server.sendError conn code reason).under workers past :=
  rfl

@[simp] theorem under_runInPool (request : Nat) (task : Task) :
    (server.under workers past).runInPool request task =
      (server.runInPool request task).under workers past :=
  rfl

@[simp] theorem under_withSessions (sessions : SessionManager) :
    (server.under workers past).withSessions sessions =
      (server.withSessions sessions).under workers past :=
  rfl

@[simp] theorem under_withRooms (rooms : RoomManager) :
    (server.under workers past).withRooms rooms =
      (server.withRooms rooms).under workers past :=
  rfl

@[simp] theorem under_sessions :
    (server.under workers past).sessions = server.sessions :=
  rfl

@[simp] theorem under_rooms :
    (server.under workers past).rooms = server.rooms :=
  rfl

theorem under_foldl {Item : Type} {act : ChatServer → Item → ChatServer}
    (hact : ∀ item, Uniform fun server => act server item)
    (items : List Item) :
    items.foldl act (server.under workers past) =
      (items.foldl act server).under workers past := by
  induction items generalizing server with
  | nil => rfl
  | cons item items ih =>
      rw [List.foldl_cons, List.foldl_cons]
      exact (congrArg (fun server => items.foldl act server)
        (hact item server workers past)).trans (ih _)

@[simp] theorem under_sendAll (outgoing : List Outgoing) :
    (server.under workers past).sendAll outgoing =
      (server.sendAll outgoing).under workers past :=
  under_foldl server workers past (fun _ _ _ _ => rfl) outgoing

@[simp] theorem under_sendFriendList (conn : Conn) :
    (server.under workers past).sendFriendList conn =
      (server.sendFriendList conn).under workers past :=
  rfl

@[simp] theorem under_sendPendingRequests (conn : Conn)
    (requests : List String) :
    (server.under workers past).sendPendingRequests conn requests =
      (server.sendPendingRequests conn requests).under workers past :=
  under_foldl server workers past (fun _ _ _ _ => rfl) requests

@[simp] theorem under_sendOfflineMessages (request : Nat) (conn : Conn)
    (messages : List MessageInfo) (now : Nat) :
    (server.under workers past).sendOfflineMessages request conn messages
        now =
      (server.sendOfflineMessages request conn messages now).under workers
        past := by
  unfold sendOfflineMessages
  by_cases hempty : messages = []
  · simp [hempty]
  · simp [hempty]

@[simp] theorem under_notifyWithFriends (uid : String)
    (msg : ServerMessage) :
    (server.under workers past).notifyWithFriends uid msg =
      (server.notifyWithFriends uid msg).under workers past := by
  unfold notifyWithFriends
  rw [under_sessions]
  cases server.sessions.getConnection uid <;> rfl

/-! ## What a server does -/

theorem uniform_whenAuthenticated (request : Nat) (conn : Conn)
    (task : String → Task) :
    Uniform fun server => server.whenAuthenticated request conn task := by
  intro server workers past
  by_cases hlogin : server.sessions.isAuthenticated conn = true
  · simp [whenAuthenticated, hlogin]
  · simp [whenAuthenticated, hlogin]

theorem uniform_onEnvelope (request : Nat) (conn : Conn)
    (envelope : Envelope) :
    Uniform fun server => server.onEnvelope request conn envelope := by
  intro server workers past
  cases envelope with
  | loginReq req =>
      simp only [onEnvelope, handleLogin, under_sendError, under_runInPool]
      split_ifs <;> rfl
  | registerReq req =>
      simp only [onEnvelope, handleRegister, under_sendError,
        under_runInPool]
      split_ifs <;> rfl
  | logoutReq | heartbeat | notSet => rfl
  | _ =>
      dsimp only [onEnvelope]
      exact uniform_whenAuthenticated request conn _ server workers past

theorem uniform_receive (conn : Conn) (envelope : Envelope) :
    Uniform fun server => server.receive conn envelope :=
  fun server workers past =>
    uniform_onEnvelope server.requests conn envelope
      { server with
        requests := server.requests + 1
        history := .received server.requests conn envelope ::
          server.history } workers past

theorem uniform_loginDone (request : Nat) (conn : Conn)
    (result : LoginResult) (token : String) (now : Nat) :
    Uniform fun server =>
      server.loginDone request conn result token now := by
  intro server workers past
  simp [loginDone]

theorem uniform_chatDone (request : Nat) (conn : Conn)
    (sender recipient room content : String) (result : SendMessageResult)
    (now : Nat) :
    Uniform fun server =>
      server.chatDone request conn sender recipient room content result
        now := by
  intro server workers past
  simp only [chatDone, under_sessions, under_rooms, under_sendAll,
    under_send, under_sendError, under_runInPool]
  split_ifs
  · rfl
  · cases server.sessions.getConnection recipient <;> rfl
  · rfl
  · rfl

theorem uniform_recallDone (conn : Conn) (uid : String) (msgId : Int)
    (recipient room : String) (result : RecallResult) (now : Nat) :
    Uniform fun server =>
      server.recallDone conn uid msgId recipient room result now := by
  intro server workers past
  simp only [recallDone, under_sessions, under_rooms, under_sendAll,
    under_send, under_sendError]
  split_ifs <;> rfl

theorem uniform_runCallback (request now : Nat) (callback : Callback) :
    Uniform fun server => server.runCallback request now callback := by
  intro server workers past
  cases callback with
  | tokenLogin conn result token =>
      simp only [runCallback, under_sendError]
      split_ifs
      · exact uniform_loginDone request conn result token now server workers
          past
      · rfl
  | login conn result =>
      simp only [runCallback, under_sendError]
      split_ifs
      · exact uniform_loginDone request conn result result.token now server
          workers past
      · rfl
  | chat conn sender recipient room content result =>
      exact uniform_chatDone request conn sender recipient room content
        result now server workers past
  | createRoom conn uid name result =>
      simp only [runCallback, under_sendError, under_rooms, under_withRooms]
      split_ifs <;> rfl
  | joinRoom conn uid roomName result =>
      simp only [runCallback, under_sendError, under_rooms, under_withRooms]
      split_ifs <;> rfl
  | recallMsg conn uid msgId recipient room result =>
      exact uniform_recallDone conn uid msgId recipient room result now
        server workers past
  | register | friendRequest | friendResponse | friendRemove =>
      simp [runCallback, friendRequestDone, friendResponseDone,
        friendRemoveDone]

end ChatServer

/-! ## Servers that look alike -/

/-- Whether the event can be noticed from outside: a task that is started or
asks for something cannot. -/
def Event.isShown : Event → Bool
  | started .. | called .. => false
  | _ => true

namespace ChatServer

/-- The servers differ in their workers only, and in what was recorded of
them. -/
structure Alike (first second : ChatServer) : Prop where
  sessions : first.sessions = second.sessions
  rooms : first.rooms = second.rooms
  queue : first.queue = second.queue
  loops : first.loops = second.loops
  requests : first.requests = second.requests
  history : first.history.filter Event.isShown =
    second.history.filter Event.isShown

variable {first second third : ChatServer} {act : ChatServer → ChatServer}

theorem Alike.refl (server : ChatServer) : server.Alike server :=
  ⟨rfl, rfl, rfl, rfl, rfl, rfl⟩

theorem Alike.trans (hfirst : first.Alike second)
    (hsecond : second.Alike third) : first.Alike third :=
  ⟨hfirst.sessions.trans hsecond.sessions, hfirst.rooms.trans hsecond.rooms,
    hfirst.queue.trans hsecond.queue, hfirst.loops.trans hsecond.loops,
    hfirst.requests.trans hsecond.requests,
    hfirst.history.trans hsecond.history⟩

theorem alike_under (server : ChatServer) {workers others : List Worker}
    {past other : List Event}
    (hpast : past.filter Event.isShown = other.filter Event.isShown) :
    (server.under workers past).Alike (server.under others other) := by
  refine ⟨rfl, rfl, rfl, rfl, rfl, ?_⟩
  show (server.history ++ past).filter _ = (server.history ++ other).filter _
  rw [List.filter_append, List.filter_append, hpast]

/-- What does not look at the workers and the record does the same on servers
that look alike. -/
theorem Alike.of_uniform (halike : first.Alike second)
    (hact : Uniform act) : (act first).Alike (act second) := by
  let core : ChatServer := { first with workers := [], history := [] }
  have hfirst : first = core.under first.workers first.history := rfl
  have hsecond : second = core.under second.workers second.history := by
    obtain ⟨hsessions, hrooms, hqueue, hloops, hrequests, -⟩ := halike
    cases second
    simp only at hsessions hrooms hqueue hloops hrequests
    simp only [core, under, List.nil_append, hsessions, hrooms, hqueue,
      hloops, hrequests]
  rw [hfirst, hsecond, hact, hact]
  exact alike_under _ halike.history

theorem workers_of_uniform (hact : Uniform act) (server : ChatServer) :
    (act server).workers = server.workers := by
  have hsame : act server = (act { server with history := [] }).under
      server.workers server.history :=
    hact { server with history := [] } server.workers server.history
  rw [hsame]
  rfl

theorem uniform_queueInLoop (config : ServerConfig) (request : Nat)
    (callback : Option Callback) :
    Uniform fun server => server.queueInLoop config request callback := by
  intro server workers past
  cases callback <;> rfl

/-! ## Calls that nobody notices -/

theorem run_calls (config : ServerConfig) {index request : Nat} {task : Task}
    {prog rest : ServiceProg (Option Callback)}
    {log : List (Sigma RepositoryCall.Answer)}
    (hreaches : Prog.Reaches prog log rest) {server : ChatServer}
    (hworker : server.workers[index]? = some ⟨request, task, prog⟩) :
    ∃ after, Runs.runFrom (step config) server
        (log.map fun entry => .call index entry.1 entry.2) = some after ∧
      after.workers = server.workers.set index ⟨request, task, rest⟩ ∧
      after.Alike server := by
  induction hreaches generalizing server with
  | refl prog =>
      refine ⟨server, rfl, ?_, .refl server⟩
      obtain ⟨hlt, hget⟩ := List.getElem?_eq_some_iff.mp hworker
      rw [← hget, List.set_getElem_self]
  | @step call next answer log rest hrest ih =>
      let called : ChatServer :=
        { server with
          workers := server.workers.set index
            ⟨request, task, next answer⟩
          history := .called request call answer :: server.history }
      have hcall : step config server (.call index call answer) =
          some called := by
        simp [step, makeCall, hworker, Prog.resume, called]
      obtain ⟨after, hrun, hworkers, halike⟩ := @ih called
        (List.getElem?_set_self (List.getElem?_eq_some_iff.mp hworker).1)
      refine ⟨after, ?_, ?_, ?_⟩
      · rw [List.map_cons, Runs.runFrom_cons, hcall]
        exact hrun
      · rw [hworkers]
        exact List.set_set _
      · exact halike.trans ⟨rfl, rfl, rfl, rfl, rfl, rfl⟩

end ChatServer

/-! ## The server a node stands for -/

namespace ChatNode

open ThreadSystem

variable {config : ServerConfig} {node next : ChatNode}
  {server : ChatServer} {action : Action}

/-- The worker that is about to begin a task. -/
def workerOf (config : ServerConfig) (item : PoolTask) : Worker :=
  ⟨item.request, item.task, item.task.program config.nodeId⟩

/-- The server looks like the one of the node; its workers make their calls
only when the threads of the node are through with theirs. -/
structure Mirrors (config : ServerConfig) (node : ChatNode)
    (server : ChatServer) : Prop where
  faithful : ∀ thread ∈ node.threads, (system config).Faithful thread
  alike : server.Alike node.server
  workers : server.workers =
    (node.threads.map Thread.op).map (workerOf config)

theorem Mirrors.of_uniform {act : ChatServer → ChatServer}
    (hmirrors : Mirrors config node server)
    (hact : ChatServer.Uniform act) :
    Mirrors config { node with server := act node.server } (act server) where
  faithful := hmirrors.faithful
  alike := hmirrors.alike.of_uniform hact
  workers := (ChatServer.workers_of_uniform hact server).trans
    hmirrors.workers

theorem Mirrors.start (hmirrors : Mirrors config node server)
    (hstep : node.startTask config = some next) :
    ∃ after, ChatServer.step config server .start = some after ∧
      Mirrors config next after := by
  have hstarted : step config node .start = some next := hstep
  have hfaithful := faithful_step hstarted hmirrors.faithful
  unfold startTask at hstep
  split at hstep
  · cases hstep
  · rename_i item rest hqueue
    obtain ⟨hidle, hnext⟩ := Option.ite_none_right_eq_some.mp hstep
    cases hnext
    have hserver : server.queue = ⟨item.request, item.task⟩ :: rest :=
      hmirrors.alike.queue.trans hqueue
    have hfree : server.workers.length < config.threads := by
      rw [hmirrors.workers, List.length_map, List.length_map]
      exact hidle
    have hstart : ChatServer.step config server .start = some
        { server with
          queue := rest
          workers := server.workers ++ [workerOf config item]
          history := .started item.request item.task :: server.history } := by
      simp only [ChatServer.step, ChatServer.startTask, hserver, if_pos hfree,
        workerOf]
    refine ⟨_, hstart, hfaithful, ?_, ?_⟩
    · obtain ⟨hsessions, hrooms, -, hloops, hrequests, hhistory⟩ :=
        hmirrors.alike
      exact ⟨hsessions, hrooms, rfl, hloops, hrequests, hhistory⟩
    · simp [hmirrors.workers, ThreadSystem.begin]

theorem Mirrors.finish {index : Nat} (hmirrors : Mirrors config node server)
    (hstep : node.finishTask config index = some next) :
    ∃ actions after, Runs.runFrom (ChatServer.step config) server actions =
        some after ∧ Mirrors config next after := by
  have hfinished : step config node (.finish index) = some next := hstep
  have hfaithful := faithful_step hfinished hmirrors.faithful
  cases steps_of_step hfinished with
  | @finish _ thread callback hthread hprog =>
      have hmem := List.mem_of_getElem? hthread
      have hreaches : Prog.Reaches
          ((thread.op.task.program config.nodeId).translate answerRepository)
          thread.log (.ret callback) :=
        hprog ▸ hmirrors.faithful thread hmem
      obtain ⟨outer, houter, -⟩ := hreaches.of_translate
      have hworker : server.workers[index]? =
          some (workerOf config thread.op) := by
        simp [hmirrors.workers, hthread]
      obtain ⟨called, hrun, hworkers, halike⟩ :=
        ChatServer.run_calls config houter hworker
      have hlast : called.workers[index]? =
          some ⟨thread.op.request, thread.op.task, .ret callback⟩ := by
        rw [hworkers]
        exact List.getElem?_set_self
          (List.getElem?_eq_some_iff.mp hworker).1
      have hfinish : ChatServer.step config called (.finish index) =
          some (ChatServer.queueInLoop config
            { called with workers := called.workers.eraseIdx index }
            thread.op.request callback) := by
        simp [ChatServer.step, ChatServer.finishTask, hlast]
      refine ⟨_, _, Runs.runFrom_concat hrun hfinish, hfaithful, ?_, ?_⟩
      · have hidle : ({ called with
            workers := called.workers.eraseIdx index } : ChatServer).Alike
              called := ⟨rfl, rfl, rfl, rfl, rfl, rfl⟩
        exact (hidle.trans (halike.trans hmirrors.alike)).of_uniform
          (ChatServer.uniform_queueInLoop config thread.op.request callback)
      · rw [ChatServer.workers_of_uniform
          (ChatServer.uniform_queueInLoop config thread.op.request callback)]
        show called.workers.eraseIdx index = _
        rw [hworkers, List.eraseIdx_set_eq, hmirrors.workers]
        simp [List.eraseIdx_map]

/-- What arrives from outside. -/
theorem Mirrors.outside {conn : Conn} {outer : ChatServer.Action}
    {act : ChatServer → ChatServer} (hmirrors : Mirrors config node server)
    (houter : ∀ server : ChatServer, server.step config outer =
      if server.sessions.connected conn then some (act server) else none)
    (hact : ChatServer.Uniform act)
    (hstep : node.onServer config outer = some next) :
    ∃ after, ChatServer.step config server outer = some after ∧
      Mirrors config next after := by
  rw [onServer, houter] at hstep
  obtain ⟨_, hserver, rfl⟩ := Option.map_eq_some_iff.mp hstep
  obtain ⟨hconnected, hsame⟩ := Option.ite_none_right_eq_some.mp hserver
  cases hsame
  refine ⟨act server, ?_, hmirrors.of_uniform hact⟩
  rw [houter, hmirrors.alike.sessions, if_pos hconnected]

theorem Mirrors.callback {loop now : Nat}
    (hmirrors : Mirrors config node server)
    (hstep : node.loopRound loop now = some next) :
    ∃ after, ChatServer.step config server (.callback loop now) =
        some after ∧ Mirrors config next after := by
  unfold loopRound at hstep
  split at hstep
  · cases hstep
  · rename_i functor rest hloop
    cases hstep
    have hserver : server.loops loop =
        ⟨functor.request, functor.callback⟩ :: rest :=
      (congrFun hmirrors.alike.loops loop).trans hloop
    have hact : ChatServer.Uniform fun server => ChatServer.runCallback
        { server with loops := Function.update node.server.loops loop rest }
        functor.request now functor.callback :=
      fun server => ChatServer.uniform_runCallback functor.request now
        functor.callback
        { server with loops := Function.update node.server.loops loop rest }
    have hafter := hmirrors.of_uniform hact
    refine ⟨_, ?_, hafter.faithful, hafter.alike, hafter.workers⟩
    rw [← hmirrors.alike.loops]
    simp only [ChatServer.step, ChatServer.loopRound, hserver]

theorem Mirrors.step (hmirrors : Mirrors config node server)
    (hstep : step config node action = some next) :
    ∃ actions after, Runs.runFrom (ChatServer.step config) server actions =
        some after ∧ Mirrors config next after := by
  -- One action of the server, or none.
  have hone {outer : ChatServer.Action} (hdone : ∃ after,
      ChatServer.step config server outer = some after ∧
        Mirrors config next after) :
      ∃ actions after, Runs.runFrom (ChatServer.step config) server actions =
        some after ∧ Mirrors config next after := by
    obtain ⟨after, houter, hafter⟩ := hdone
    exact ⟨[outer], after, by simp [houter], hafter⟩
  cases action with
  | receive conn envelope =>
      exact hone (hmirrors.outside (fun _ => rfl)
        (ChatServer.uniform_receive conn envelope) hstep)
  | invalidLength conn =>
      exact hone (hmirrors.outside (fun _ => rfl) (fun _ _ _ => rfl) hstep)
  | parseError conn =>
      exact hone (hmirrors.outside (fun _ => rfl) (fun _ _ _ => rfl) hstep)
  | close conn =>
      exact hone (hmirrors.outside (fun _ => rfl) (fun _ _ _ => rfl) hstep)
  | start => exact hone (hmirrors.start hstep)
  | finish index => exact hmirrors.finish hstep
  | callback loop now => exact hone (hmirrors.callback hstep)
  | exec index call answer =>
      have hfaithful := faithful_step hstep hmirrors.faithful
      cases steps_of_step hstep with
      | exec hthread hprog heffect =>
          refine ⟨[], server, rfl, hfaithful, hmirrors.alike, ?_⟩
          rw [hmirrors.workers, map_op_set hthread]
  | disturb event =>
      have hfaithful := faithful_step hstep hmirrors.faithful
      cases steps_of_step hstep with
      | disturb hdisturb =>
          exact ⟨[], server, rfl, hfaithful, hmirrors.alike,
            hmirrors.workers⟩

/-! ## What a node records -/

theorem isShown_of_isReply {event : Event} (hreply : event.IsReply) :
    event.isShown = true := by
  cases event with
  | started | called => exact hreply.elim
  | _ => rfl

theorem shown_receive {conn : Conn} {envelope : Envelope} {event : Event}
    (hevent : event ∈ (server.receive conn envelope).history) :
    event.isShown = true ∨ event ∈ server.history := by
  rcases (ChatServer.responds_receive server conn envelope).mem_history hevent
    with hreply | hold
  · exact .inl (isShown_of_isReply hreply)
  · cases envelope with
    | logoutReq req =>
        rcases List.mem_cons.mp hold with rfl | hold
        · exact .inl rfl
        · rcases List.mem_cons.mp hold with rfl | hold
          · exact .inl rfl
          · exact .inr hold
    | _ =>
        rcases List.mem_cons.mp hold with rfl | hold
        · exact .inl rfl
        · exact .inr hold

theorem shown_afterCallback {loop now : Nat} {functor : Functor}
    {rest : List Functor} {event : Event}
    (hevent : event ∈
      (node.afterCallback loop now functor rest).server.history) :
    event.isShown = true ∨ event ∈ node.server.history := by
  rcases (responds_afterCallback node loop now functor rest).mem_history
    hevent with hreply | hold
  · exact .inl (isShown_of_isReply hreply)
  · cases hentry : ChatServer.entry functor.callback with
    | none =>
        rw [hentry] at hold
        exact .inr hold
    | some login =>
        rw [hentry] at hold
        rcases List.mem_cons.mp hold with rfl | hold
        · exact .inl rfl
        · exact .inr hold

theorem shown_step (hstep : step config node action = some next)
    (hnode : ∀ event ∈ node.server.history, event.isShown = true) :
    ∀ event ∈ next.server.history, event.isShown = true := by
  intro event hevent
  cases steps_of_step hstep with
  | receive conn envelope =>
      exact (shown_receive hevent).elim id (hnode event)
  | callback loop now functor rest hloop =>
      exact (shown_afterCallback hevent).elim id (hnode event)
  | @finish index thread callback hthread hprog =>
      cases callback with
      | none => exact hnode event hevent
      | some callback => exact hnode event hevent
  | invalidLength | parseError | close =>
      rcases List.mem_cons.mp hevent with rfl | hold
      · rfl
      · exact hnode event hold
  | start | exec | disturb => exact hnode event hevent

/-- Whatever happens at a node, there is a server of which one sees the
same. -/
theorem mirrored_by_server {world : NodeWorld} {actions : List Action}
    (hrun : Runs.runFrom (ChatNode.step config) { world := world } actions =
      some node) :
    ∃ outer server,
      Runs.runFrom (ChatServer.step config) ChatServer.initial outer =
        some server ∧
      server.Alike node.server ∧
      server.history.filter Event.isShown = node.server.history := by
  have hnode := @Runs.invariant_of_run _ _ _
    (fun node => (∀ event ∈ node.server.history, event.isShown = true) ∧
      ∃ outer server,
        Runs.runFrom (ChatServer.step config) ChatServer.initial outer =
          some server ∧ Mirrors config node server)
    { world := world } node actions ?_ ?_ hrun
  · obtain ⟨hshown, outer, server, houter, hmirrors⟩ := hnode
    refine ⟨outer, server, houter, hmirrors.alike, ?_⟩
    exact hmirrors.alike.history.trans (List.filter_eq_self.mpr hshown)
  · exact ⟨by simp [ChatServer.initial], [], ChatServer.initial, rfl,
      by simp, .refl _, rfl⟩
  · rintro node action next hstep
      ⟨hshown, outer, server, houter, hmirrors⟩
    obtain ⟨more, after, hmore, hafter⟩ := hmirrors.step hstep
    refine ⟨shown_step hstep hshown, outer ++ more, after, ?_, hafter⟩
    rw [Runs.runFrom_append, houter]
    exact hmore

theorem mirrored_by_server_annLogin : ∃ node outer server,
    Runs.runFrom (ChatNode.step twoWorkers)
        { world := { db := annRegistered } } annLogin = some node ∧
      node.server.history.length = 4 ∧
      Runs.runFrom (ChatServer.step twoWorkers) ChatServer.initial outer =
        some server ∧
      server.history.filter Event.isShown = node.server.history := by
  obtain ⟨node, hrun, hlength⟩ : ∃ node,
      Runs.runFrom (ChatNode.step twoWorkers)
          { world := { db := annRegistered } } annLogin = some node ∧
        node.server.history.length = 4 :=
    ⟨_, rfl, rfl⟩
  obtain ⟨outer, server, houter, -, hhistory⟩ := mirrored_by_server hrun
  exact ⟨node, outer, server, hrun, hlength, houter, hhistory⟩

end ChatNode

end MuduoChat
