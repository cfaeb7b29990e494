import MuduoChat.ChatServer

/-!
# What a step of the chat server can do

Most of the server's code sends replies and keeps books that routing and
authentication never look at.  `Responds` collects all of that: it relates two
states that differ by replies sent, tasks of an allowed kind queued, and
changes to rooms and friend sets.  Every reception is a possible logout
followed by a response, every callback a possible login followed by one.
`Steps` lists what an action can do to the state, so that an invariant is
checked against a handful of cases and no handler is unfolded again.
-/

namespace MuduoChat

/-! ## Tasks and the envelopes that ask for them -/

/-- Tasks queued by callbacks rather than by receptions. -/
def Task.IsFollowUp : Task → Prop
  | .getMessage .. | .markMessagesDelivered _ => True
  | _ => False

def Event.IsReply : Event → Prop
  | .sent .. | .shutdown _ => True
  | _ => False

/-- What does not look at replies is the same with replies in front. -/
theorem skips_replies {α : Sort*} {read : List Event → α}
    (hread : ∀ event older, event.IsReply → read (event :: older) = read older)
    {replies : List Event} (hreplies : ∀ event ∈ replies, event.IsReply)
    (older : List Event) : read (replies ++ older) = read older := by
  induction replies with
  | nil => rfl
  | cons event rest ih =>
      rw [List.cons_append, hread _ _ (hreplies event List.mem_cons_self)]
      exact ih fun other hother =>
        hreplies other (List.mem_cons_of_mem event hother)

def SessionManager.loggedInUid (manager : SessionManager) (conn : Conn) :
    Option String :=
  if manager.isAuthenticated conn then some (manager.getUid conn) else none

/-- `Requests login conn envelope task`: an envelope received on `conn`,
logged in as `login` if at all, asks for `task`. -/
inductive Requests (login : Option String) (conn : Conn) :
    Envelope → Task → Prop
  | tokenLogin (req : LoginRequest) (htoken : req.token ≠ "") :
      Requests login conn (.loginReq req) (.loginWithToken conn req.token)
  | login (req : LoginRequest) :
      Requests login conn (.loginReq req) (.login conn req.uid req.passwd)
  | logout (req : LogoutRequest) :
      Requests login conn (.logoutReq req) (.logout req.uid req.token)
  | register (req : RegisterRequest) :
      Requests login conn (.registerReq req)
        (.registerUser conn req.uid req.passwd req.nickname req.email)
  | chat (msg : ChatMessage) (uid : String) (hlogin : login = some uid) :
      Requests login conn (.chatMsg msg)
        (.sendMessage conn uid msg.recipient msg.room msg.content)
  | createRoom (req : CreateRoom) (uid : String)
      (hlogin : login = some uid) :
      Requests login conn (.createRoom req) (.createRoom conn uid req.name)
  | joinRoom (req : JoinRoom) (uid : String) (hlogin : login = some uid) :
      Requests login conn (.joinRoom req) (.joinRoom conn uid req.roomName)
  | friendRequest (req : FriendRequest) (uid : String)
      (hlogin : login = some uid) :
      Requests login conn (.friendReq req)
        (.addFriendRequest conn req.fromUid req.toUid req.message)
  | friendResponse (req : FriendResponse) (uid : String)
      (hlogin : login = some uid) :
      Requests login conn (.friendResp req)
        (.respondFriendRequest conn req.toUid req.fromUid req.accepted)
  | friendRemove (req : FriendRemove) (uid : String)
      (hlogin : login = some uid) :
      Requests login conn (.friendRemove req)
        (.removeFriend conn uid req.targetUid)
  | recallMsg (req : RecallMessage) (uid : String)
      (hlogin : login = some uid) :
      Requests login conn (.recallMsg req)
        (.recallMessage conn uid (BitVec.ofNat 64 req.msgId).toInt req.toUid
          req.room)

namespace ChatServer

/-! ## Responses -/

/-- `after` differs from `before` by replies, by tasks of the allowed kind
queued for `request`, and by rooms and friend sets. -/
structure Responds (request : Nat) (allowed : Task → Prop)
    (before after : ChatServer) : Prop where
  users : after.sessions.users = before.sessions.users
  conns : after.sessions.conns = before.sessions.conns
  workers : after.workers = before.workers
  loops : after.loops = before.loops
  requests : after.requests = before.requests
  queue : ∃ tasks : List Task,
    after.queue = before.queue ++ tasks.map (PoolTask.mk request) ∧
      ∀ task ∈ tasks, allowed task
  history : ∃ replies : List Event,
    after.history = replies ++ before.history ∧
      ∀ event ∈ replies, event.IsReply

section Responses

variable {request : Nat} {allowed : Task → Prop}

theorem Responds.refl (server : ChatServer) :
    Responds request allowed server server where
  users := rfl
  conns := rfl
  workers := rfl
  loops := rfl
  requests := rfl
  queue := ⟨[], by simp⟩
  history := ⟨[], by simp⟩

theorem Responds.trans {first second third : ChatServer}
    (hfirst : Responds request allowed first second)
    (hsecond : Responds request allowed second third) :
    Responds request allowed first third where
  users := hsecond.users.trans hfirst.users
  conns := hsecond.conns.trans hfirst.conns
  workers := hsecond.workers.trans hfirst.workers
  loops := hsecond.loops.trans hfirst.loops
  requests := hsecond.requests.trans hfirst.requests
  queue := by
    obtain ⟨tasks₁, hqueue₁, htasks₁⟩ := hfirst.queue
    obtain ⟨tasks₂, hqueue₂, htasks₂⟩ := hsecond.queue
    refine ⟨tasks₁ ++ tasks₂, ?_, ?_⟩
    · rw [hqueue₂, hqueue₁, List.map_append, List.append_assoc]
    · intro task htask
      rcases List.mem_append.mp htask with hmem | hmem
      · exact htasks₁ task hmem
      · exact htasks₂ task hmem
  history := by
    obtain ⟨replies₁, hhistory₁, hreplies₁⟩ := hfirst.history
    obtain ⟨replies₂, hhistory₂, hreplies₂⟩ := hsecond.history
    refine ⟨replies₂ ++ replies₁, ?_, ?_⟩
    · rw [hhistory₂, hhistory₁, List.append_assoc]
    · intro event hevent
      rcases List.mem_append.mp hevent with hmem | hmem
      · exact hreplies₂ event hmem
      · exact hreplies₁ event hmem

theorem Responds.mem_history {before after : ChatServer} {event : Event}
    (hresponds : Responds request allowed before after)
    (hevent : event ∈ after.history) :
    event.IsReply ∨ event ∈ before.history := by
  obtain ⟨replies, hhistory, hreplies⟩ := hresponds.history
  rw [hhistory] at hevent
  exact (List.mem_append.mp hevent).imp_left (hreplies event)

theorem responds_record (server : ChatServer) {event : Event}
    (hreply : event.IsReply) :
    Responds request allowed server (server.record event) where
  users := rfl
  conns := rfl
  workers := rfl
  loops := rfl
  requests := rfl
  queue := ⟨[], by simp [record]⟩
  history := ⟨[event], by simp [record, hreply]⟩

theorem responds_send (server : ChatServer) (conn : Conn)
    (msg : ServerMessage) :
    Responds request allowed server (server.send conn msg) :=
  responds_record server trivial

theorem responds_sendError (server : ChatServer) (conn : Conn) (code : Nat)
    (reason : String) :
    Responds request allowed server (server.sendError conn code reason) :=
  responds_send server conn _

theorem responds_foldl {Item : Type}
    (act : ChatServer → Item → ChatServer)
    (hact : ∀ server item,
      Responds request allowed server (act server item))
    (items : List Item) (server : ChatServer) :
    Responds request allowed server (items.foldl act server) := by
  induction items generalizing server with
  | nil => exact Responds.refl server
  | cons item rest ih => exact (hact server item).trans (ih (act server item))

theorem responds_sendAll (server : ChatServer) (outgoing : List Outgoing) :
    Responds request allowed server (server.sendAll outgoing) :=
  responds_foldl _ (fun server out => responds_send server out.1 out.2)
    outgoing server

theorem responds_runInPool (server : ChatServer) {task : Task}
    (htask : allowed task) :
    Responds request allowed server (server.runInPool request task) where
  users := rfl
  conns := rfl
  workers := rfl
  loops := rfl
  requests := rfl
  queue := ⟨[task], by simp [runInPool, htask]⟩
  history := ⟨[], by simp [runInPool]⟩

theorem responds_withSessions (server : ChatServer)
    (sessions : SessionManager)
    (husers : sessions.users = server.sessions.users)
    (hconns : sessions.conns = server.sessions.conns) :
    Responds request allowed server (server.withSessions sessions) where
  users := husers
  conns := hconns
  workers := rfl
  loops := rfl
  requests := rfl
  queue := ⟨[], by simp [withSessions]⟩
  history := ⟨[], by simp [withSessions]⟩

theorem responds_withRooms (server : ChatServer) (rooms : RoomManager) :
    Responds request allowed server (server.withRooms rooms) where
  users := rfl
  conns := rfl
  workers := rfl
  loops := rfl
  requests := rfl
  queue := ⟨[], by simp [withRooms]⟩
  history := ⟨[], by simp [withRooms]⟩

theorem responds_sendFriendList (server : ChatServer) (conn : Conn) :
    Responds request allowed server (server.sendFriendList conn) :=
  responds_send server conn _

theorem responds_notifyWithFriends (server : ChatServer) (uid : String)
    (msg : ServerMessage) :
    Responds request allowed server (server.notifyWithFriends uid msg) := by
  unfold notifyWithFriends
  split
  · exact Responds.refl server
  · exact (responds_send server _ msg).trans (responds_sendFriendList _ _)

theorem responds_sendPendingRequests (server : ChatServer) (conn : Conn)
    (requesters : List String) :
    Responds request allowed server
      (server.sendPendingRequests conn requesters) :=
  responds_foldl _ (fun server requester =>
    (responds_withSessions server
      (server.sessions.addPendingRequest requester _) rfl rfl).trans
        (responds_send _ conn _)) requesters server

end Responses

/-! ## Callbacks -/

section Callbacks

variable {request : Nat}

theorem responds_sendOfflineMessages (server : ChatServer) (conn : Conn)
    (messages : List MessageInfo) (now : Nat) :
    Responds request Task.IsFollowUp server
      (server.sendOfflineMessages request conn messages now) := by
  unfold sendOfflineMessages
  split
  · exact responds_sendAll server _
  · exact (responds_sendAll server _).trans
      (responds_runInPool _ (by trivial))

theorem responds_chatDone (server : ChatServer) (conn : Conn)
    (sender recipient room content : String) (result : SendMessageResult)
    (now : Nat) :
    Responds request Task.IsFollowUp server
      (server.chatDone request conn sender recipient room content result
        now) := by
  unfold chatDone
  split_ifs
  · exact responds_sendError server conn 3 result.reason
  · dsimp only
    split
    · exact (responds_sendAll server _).trans (responds_send _ conn _)
    · exact (((responds_sendAll server _).trans
        (responds_send _ conn _)).trans (responds_sendError _ conn 3 _)).trans
          (responds_runInPool _ (by trivial))
  · exact responds_sendAll server _
  · exact Responds.refl server

theorem responds_friendRequestDone {allowed : Task → Prop}
    (server : ChatServer) (sender target message : String) :
    Responds request allowed server
      (server.friendRequestDone sender target message) :=
  (responds_withSessions server
    (server.sessions.addPendingRequest sender target) rfl rfl).trans
      (responds_sendAll _ _)

theorem responds_friendResponseDone {allowed : Task → Prop}
    (server : ChatServer) (conn : Conn) (requester responder : String)
    (accepted : Bool) :
    Responds request allowed server
      (server.friendResponseDone conn requester responder accepted) := by
  unfold friendResponseDone
  refine ((responds_withSessions server _ ?_ ?_).trans
    (responds_notifyWithFriends _ _ _)).trans (responds_sendFriendList _ conn)
  · cases accepted <;> rfl
  · cases accepted <;> rfl

theorem responds_friendRemoveDone {allowed : Task → Prop}
    (server : ChatServer) (conn : Conn) (uid target : String) :
    Responds request allowed server
      (server.friendRemoveDone conn uid target) :=
  ((responds_withSessions server
    (server.sessions.removeFriendship uid target) rfl rfl).trans
      (responds_notifyWithFriends _ _ _)).trans
        (responds_sendFriendList _ conn)

theorem responds_recallDone {allowed : Task → Prop}
    (server : ChatServer) (conn : Conn) (uid : String) (msgId : Int)
    (recipient room : String) (result : RecallResult) (now : Nat) :
    Responds request allowed server
      (server.recallDone conn uid msgId recipient room result now) := by
  unfold recallDone
  split
  · exact responds_sendError server conn 8 result.reason
  · exact (responds_sendAll server _).trans (responds_send _ conn _)

/-- The login a callback applies, if any: the connection, the result and the
token stored with it. -/
def entry : Callback → Option (Conn × LoginResult × String)
  | .tokenLogin conn result token =>
      if result.success then some (conn, result, token) else none
  | .login conn result =>
      if result.success then some (conn, result, result.token) else none
  | _ => none

def enter (server : ChatServer) (request : Nat) :
    Option (Conn × LoginResult × String) → ChatServer
  | none => server
  | some (conn, result, token) =>
      (server.withSessions (server.sessions.authenticate conn
        result.userInfo.uid token)).record (.loggedIn request conn result)

theorem foldl_addFriendship_frame (uid : String) (friends : List UserInfo)
    (sessions : SessionManager) :
    let after := friends.foldl (fun sessions friend =>
      sessions.addFriendship uid friend.uid) sessions
    after.users = sessions.users ∧ after.conns = sessions.conns := by
  induction friends generalizing sessions with
  | nil => exact ⟨rfl, rfl⟩
  | cons friend rest ih => exact ih (sessions.addFriendship uid friend.uid)

theorem responds_loginDone (server : ChatServer) (conn : Conn)
    (result : LoginResult) (token : String) (now : Nat) :
    Responds request Task.IsFollowUp
      (server.enter request (some (conn, result, token)))
      (server.loginDone request conn result token now) := by
  unfold loginDone
  have hframe := foldl_addFriendship_frame result.userInfo.uid
    result.friends
    (server.sessions.authenticate conn result.userInfo.uid token)
  exact ((((responds_withSessions _ _ hframe.1 hframe.2).trans
    (responds_send _ conn _)).trans
      (responds_sendPendingRequests _ conn _)).trans
        (responds_sendOfflineMessages _ conn _ now)).trans
          (responds_sendFriendList _ conn)

/-- A callback applies its login, if it carries a successful one, and
responds. -/
theorem responds_runCallback (server : ChatServer) (now : Nat)
    (callback : Callback) :
    Responds request Task.IsFollowUp (server.enter request (entry callback))
      (server.runCallback request now callback) := by
  cases callback with
  | tokenLogin conn result token =>
      simp only [runCallback, entry]
      split
      · exact responds_loginDone server conn result token now
      · exact responds_sendError server conn 6 result.reason
  | login conn result =>
      simp only [runCallback, entry]
      split
      · exact responds_loginDone server conn result result.token now
      · exact responds_sendError server conn 6 result.reason
  | register conn ok => exact responds_send server conn _
  | chat conn sender recipient room content result =>
      exact responds_chatDone server conn sender recipient room content
        result now
  | createRoom conn uid name result =>
      simp only [runCallback]
      split
      · exact responds_sendError server conn 5 result.reason
      · exact responds_withRooms server _
  | joinRoom conn uid roomName result =>
      simp only [runCallback]
      split
      · exact responds_sendError server conn 4 result.reason
      · exact responds_withRooms server _
  | friendRequest conn sender target message =>
      exact responds_friendRequestDone server sender target message
  | friendResponse conn requester responder accepted =>
      exact responds_friendResponseDone server conn requester responder
        accepted
  | friendRemove conn uid target =>
      exact responds_friendRemoveDone server conn uid target
  | recallMsg conn uid msgId recipient room result =>
      exact responds_recallDone server conn uid msgId recipient room result
        now

end Callbacks

/-! ## Receptions -/

def arrived (server : ChatServer) (conn : Conn) (envelope : Envelope) :
    ChatServer :=
  { server with
    requests := server.requests + 1
    history := .received server.requests conn envelope :: server.history }

def leave (server : ChatServer) (request : Nat) (conn : Conn) :
    Envelope → ChatServer
  | .logoutReq _ =>
      (server.withSessions (server.sessions.deauthenticate conn)).record
        (.loggedOut request conn)
  | _ => server

theorem responds_handleLogout {allowed : Task → Prop} (server : ChatServer)
    (request : Nat) (conn : Conn) (req : LogoutRequest)
    (hallowed : allowed (.logout req.uid req.token)) :
    Responds request allowed (server.leave request conn (.logoutReq req))
      (server.handleLogout request conn req) where
  users := rfl
  conns := rfl
  workers := rfl
  loops := rfl
  requests := rfl
  queue := ⟨[.logout req.uid req.token], rfl, by simpa using hallowed⟩
  history := ⟨[.sent conn ServerReplies.logoutReply], rfl, by
    simp [Event.IsReply]⟩

theorem responds_whenAuthenticated {allowed : Task → Prop}
    (server : ChatServer) (request : Nat) (conn : Conn)
    (task : String → Task)
    (hallowed : ∀ uid, server.sessions.loggedInUid conn = some uid →
      allowed (task uid)) :
    Responds request allowed server
      (server.whenAuthenticated request conn task) := by
  unfold whenAuthenticated
  split
  · rename_i hauth
    exact responds_runInPool server
      (hallowed _ (by simp [SessionManager.loggedInUid, hauth]))
  · exact Responds.refl server

/-- A reception numbers the request, applies a logout, and responds with
nothing but the task the envelope asks for. -/
theorem responds_receive (server : ChatServer) (conn : Conn)
    (envelope : Envelope) :
    Responds server.requests
      (Requests (server.sessions.loggedInUid conn) conn envelope)
      ((server.arrived conn envelope).leave server.requests conn envelope)
      (server.receive conn envelope) := by
  cases envelope with
  | loginReq req =>
      show Responds _ _ _ (handleLogin _ _ _ _)
      unfold handleLogin
      split_ifs with hnone htoken huid
      · exact responds_sendError _ conn 1 _
      · exact responds_runInPool _ (.tokenLogin req htoken)
      · exact responds_sendError _ conn 2 _
      · exact responds_runInPool _ (.login req)
  | logoutReq req => exact responds_handleLogout _ _ conn req (.logout req)
  | registerReq req =>
      show Responds _ _ _ (handleRegister _ _ _ _)
      unfold handleRegister
      split_ifs with hempty
      · exact responds_sendError _ conn 7 _
      · exact responds_runInPool _ (.register req)
  | chatMsg msg =>
      exact responds_whenAuthenticated (server.arrived conn _) _ conn _
        (Requests.chat msg)
  | createRoom req =>
      exact responds_whenAuthenticated (server.arrived conn _) _ conn _
        (Requests.createRoom req)
  | joinRoom req =>
      exact responds_whenAuthenticated (server.arrived conn _) _ conn _
        (Requests.joinRoom req)
  | friendReq req =>
      exact responds_whenAuthenticated (server.arrived conn _) _ conn _
        (Requests.friendRequest req)
  | friendResp req =>
      exact responds_whenAuthenticated (server.arrived conn _) _ conn _
        (Requests.friendResponse req)
  | friendRemove req =>
      exact responds_whenAuthenticated (server.arrived conn _) _ conn _
        (Requests.friendRemove req)
  | recallMsg req =>
      exact responds_whenAuthenticated (server.arrived conn _) _ conn _
        (Requests.recallMsg req)
  | heartbeat beat => exact Responds.refl _
  | notSet => exact responds_record _ trivial

/-! ## The steps at a glance -/

inductive Steps (config : ServerConfig) (server : ChatServer) :
    Action → ChatServer → Prop
  | receive (conn : Conn) (envelope : Envelope) :
      Steps config server (.receive conn envelope)
        (server.receive conn envelope)
  | invalidLength (conn : Conn) :
      Steps config server (.invalidLength conn)
        (server.record (.shutdown conn))
  | parseError (conn : Conn) :
      Steps config server (.parseError conn)
        (server.sendError conn 1 "parse error")
  | close (conn : Conn) :
      Steps config server (.close conn) (server.close conn)
  | start (request : Nat) (task : Task) (rest : List PoolTask)
      (hqueue : server.queue = ⟨request, task⟩ :: rest) :
      Steps config server .start
        { server with
          queue := rest
          workers := server.workers ++
            [⟨request, task, task.program config.nodeId⟩]
          history := .started request task :: server.history }
  | call (index : Nat) (worker : Worker) (call : RepositoryCall)
      (rest : call.Answer → ServiceProg (Option Callback))
      (answer : call.Answer)
      (hworker : server.workers[index]? = some worker)
      (hprog : worker.prog = .call call rest) :
      Steps config server (.call index call answer)
        { server with
          workers := server.workers.set index
            { worker with prog := rest answer }
          history :=
            .called worker.request call answer :: server.history }
  | finish (index : Nat) (request : Nat) (task : Task)
      (callback : Option Callback)
      (hworker : server.workers[index]? =
        some ⟨request, task, .ret callback⟩) :
      Steps config server (.finish index)
        (queueInLoop config
          { server with workers := server.workers.eraseIdx index }
          request callback)
  | callback (loop now : Nat) (request : Nat) (callback : Callback)
      (rest : List Functor)
      (hloop : server.loops loop = ⟨request, callback⟩ :: rest) :
      Steps config server (.callback loop now)
        (runCallback
          { server with loops := Function.update server.loops loop rest }
          request now callback)

section Inversion

variable {config : ServerConfig} {server next : ChatServer}

theorem steps_of_startTask (hstep : server.startTask config = some next) :
    Steps config server .start next := by
  unfold startTask at hstep
  split at hstep
  · simp at hstep
  · rename_i request task rest hqueue
    split_ifs at hstep
    cases hstep
    exact .start request task rest hqueue

theorem steps_of_makeCall {index : Nat} {call : RepositoryCall}
    {answer : call.Answer}
    (hstep : server.makeCall index call answer = some next) :
    Steps config server (.call index call answer) next := by
  unfold makeCall at hstep
  split at hstep
  · simp at hstep
  · rename_i worker hworker
    obtain ⟨prog, hresume, rfl⟩ := Option.map_eq_some_iff.mp hstep
    obtain ⟨rest, hprog, rfl⟩ := Prog.resume_eq_some hresume
    exact .call index worker call rest answer hworker hprog

theorem steps_of_finishTask {index : Nat}
    (hstep : server.finishTask config index = some next) :
    Steps config server (.finish index) next := by
  unfold finishTask at hstep
  split at hstep
  · rename_i request task callback hworker
    cases hstep
    exact .finish index request task callback hworker
  · simp at hstep

theorem steps_of_loopRound {loop now : Nat}
    (hstep : server.loopRound loop now = some next) :
    Steps config server (.callback loop now) next := by
  unfold loopRound at hstep
  split at hstep
  · simp at hstep
  · rename_i request callback rest hloop
    cases hstep
    exact .callback loop now request callback rest hloop

theorem steps_of_step {action : Action}
    (hstep : step config server action = some next) :
    Steps config server action next := by
  cases action with
  | receive conn envelope =>
      obtain ⟨-, hnext⟩ := Option.ite_none_right_eq_some.mp hstep
      cases hnext
      exact .receive conn envelope
  | invalidLength conn =>
      obtain ⟨-, hnext⟩ := Option.ite_none_right_eq_some.mp hstep
      cases hnext
      exact .invalidLength conn
  | parseError conn =>
      obtain ⟨-, hnext⟩ := Option.ite_none_right_eq_some.mp hstep
      cases hnext
      exact .parseError conn
  | close conn =>
      obtain ⟨-, hnext⟩ := Option.ite_none_right_eq_some.mp hstep
      cases hnext
      exact .close conn
  | start => exact steps_of_startTask hstep
  | call index call answer => exact steps_of_makeCall hstep
  | finish index => exact steps_of_finishTask hstep
  | callback loop now => exact steps_of_loopRound hstep

/-- Receptions enter the record by `receive` actions only, right on top of
what was recorded so far. -/
theorem Steps.justified {action : Action}
    {why : List Event → Event → Prop}
    (hsteps : Steps config server action next)
    (hlog : Runs.Justified why server.history)
    (hother : ∀ older event,
      (∀ request conn envelope, event ≠ .received request conn envelope) →
        why older event)
    (hreceive : ∀ conn envelope, action = .receive conn envelope →
      why server.history (.received server.requests conn envelope)) :
    Runs.Justified why next.history := by
  have hresponds {request : Nat} {allowed : Task → Prop}
      {before after : ChatServer}
      (hafter : Responds request allowed before after)
      (hbefore : Runs.Justified why before.history) :
      Runs.Justified why after.history := by
    obtain ⟨replies, hhistory, hreplies⟩ := hafter.history
    rw [hhistory]
    refine hbefore.append fun event hevent older => hother older event ?_
    rintro number conn envelope rfl
    exact hreplies _ hevent
  have hpush {log : List Event} {event : Event}
      (hlog : Runs.Justified why log)
      (hevent : ∀ request conn envelope,
        event ≠ .received request conn envelope) :
      Runs.Justified why (event :: log) :=
    Runs.justified_cons.mpr ⟨hother log event hevent, hlog⟩
  cases hsteps with
  | receive conn envelope =>
      have harrived :
          Runs.Justified why (server.arrived conn envelope).history :=
        Runs.justified_cons.mpr ⟨hreceive conn envelope rfl, hlog⟩
      refine hresponds (responds_receive server conn envelope) ?_
      cases envelope with
      | logoutReq req => exact hpush harrived (by simp)
      | _ => exact harrived
  | callback loop now request callback rest hloop =>
      refine hresponds (responds_runCallback _ now callback) ?_
      cases entry callback with
      | none => exact hlog
      | some login => exact hpush hlog (by simp)
  | finish index request task callback hworker =>
      cases callback with
      | none => exact hlog
      | some callback => exact hlog
  | _ => exact hpush hlog (by simp)

theorem Steps.called_mem {action : Action} {request : Nat}
    {call : RepositoryCall} {answer : call.Answer}
    (hsteps : Steps config server action next)
    (hcalled : .called request call answer ∈ next.history) :
    .called request call answer ∈ server.history ∨
      ∃ index, action = .call index call answer := by
  cases hsteps with
  | receive conn envelope =>
      rcases (responds_receive server conn envelope).mem_history hcalled with
        hreply | hmem
      · exact False.elim hreply
      · cases envelope <;>
          simpa [leave, arrived, record, withSessions] using hmem
  | call index worker made rest given hworker hprog =>
      rcases List.mem_cons.mp hcalled with heq | hmem
      · cases heq
        exact .inr ⟨index, rfl⟩
      · exact .inl hmem
  | finish index number task callback hworker =>
      cases callback with
      | none => exact .inl hcalled
      | some callback => exact .inl hcalled
  | callback loop now number callback rest hloop =>
      rcases (responds_runCallback _ now callback).mem_history hcalled with
        hreply | hmem
      · exact False.elim hreply
      · cases hentry : entry callback <;>
          simpa [hentry, enter, record, withSessions] using hmem
  | _ =>
      simpa [ChatServer.close, record, send, sendError, withSessions]
        using hcalled

end Inversion

end ChatServer

end MuduoChat
