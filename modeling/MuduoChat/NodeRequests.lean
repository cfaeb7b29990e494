import MuduoChat.NodeOrder
import MuduoChat.NodeUsers
import MuduoChat.RequestHistories
import MuduoChat.TokenRevocation
import Mathlib.Data.List.Perm.Lattice

/-!
# Every request is handled once

A request that asks for something becomes a task of the pool, the task runs on
one worker, and the callback it returns runs in the loop of the connection.
Nothing on this way drops a request or takes it up twice: when a node is idle,
it has run one callback for each request it accepted, other than logouts, and
no further callbacks.

Which task an envelope asks for depends on the login its connection had on
arrival.  The record tells both, so that the accepted requests of a run can be
read off it.
-/

namespace MuduoChat

/-! ## Accepted requests -/

/-- The task an envelope asks for, received on `conn` while it is logged in as
`login`, if at all. -/
def asked (login : Option String) (conn : Conn) : Envelope → Option Task
  | .loginReq req =>
      if req.token = "" ∧ req.passwd = "" then none
      else if req.token ≠ "" then some (.loginWithToken conn req.token)
      else if req.uid = "" then none
      else some (.login conn req.uid req.passwd)
  | .logoutReq req => some (.logout req.uid req.token)
  | .registerReq req =>
      if req.uid = "" ∨ req.passwd = "" then none
      else some
        (.registerUser conn req.uid req.passwd req.nickname req.email)
  | .chatMsg msg => login.map fun uid =>
      .sendMessage conn uid msg.recipient msg.room msg.content
  | .createRoom req => login.map fun uid => .createRoom conn uid req.name
  | .joinRoom req => login.map fun uid => .joinRoom conn uid req.roomName
  | .friendReq req => login.map fun _ =>
      .addFriendRequest conn req.fromUid req.toUid req.message
  | .friendResp req => login.map fun _ =>
      .respondFriendRequest conn req.toUid req.fromUid req.accepted
  | .friendRemove req => login.map fun uid =>
      .removeFriend conn uid req.targetUid
  | .recallMsg req => login.map fun uid =>
      .recallMessage conn uid (BitVec.ofNat 64 req.msgId).toInt req.toUid
        req.room
  | .heartbeat _ | .notSet => none

/-- The requests on record that asked for a task, newest first. -/
def accepted : List Event → List PoolTask
  | [] => []
  | .received request conn envelope :: older =>
      ((asked (loginOf conn older) conn envelope).map
        (PoolTask.mk request)).toList ++ accepted older
  | _ :: older => accepted older

instance : DecidablePred Task.IsFollowUp
  | .getMessage .. | .markMessagesDelivered _ => .isTrue trivial
  | .loginWithToken .. | .login .. | .logout .. | .registerUser ..
  | .sendMessage .. | .createRoom .. | .joinRoom .. | .addFriendRequest ..
  | .respondFriendRequest .. | .removeFriend .. | .recallMessage .. =>
      .isFalse id

/-- A logout is answered on arrival and has no callback. -/
def Task.hasCallback : Task → Bool
  | .logout .. | .getMessage .. | .markMessagesDelivered _ => false
  | _ => true

/-- The callback a task returns, whatever the service has answered. -/
inductive Completes : Task → Callback → Prop
  | loginWithToken (conn : Conn) (token : String) (result : LoginResult) :
      Completes (.loginWithToken conn token) (.tokenLogin conn result token)
  | login (conn : Conn) (uid passwd : String) (result : LoginResult) :
      Completes (.login conn uid passwd) (.login conn result)
  | registerUser (conn : Conn) (uid passwd nickname email : String)
      (ok : Bool) :
      Completes (.registerUser conn uid passwd nickname email)
        (.register conn ok)
  | sendMessage (conn : Conn) (sender recipient room content : String)
      (result : SendMessageResult) :
      Completes (.sendMessage conn sender recipient room content)
        (.chat conn sender recipient room content result)
  | createRoom (conn : Conn) (uid name : String) (result : RoomResult) :
      Completes (.createRoom conn uid name)
        (.createRoom conn uid name result)
  | joinRoom (conn : Conn) (uid roomName : String) (result : RoomResult) :
      Completes (.joinRoom conn uid roomName)
        (.joinRoom conn uid roomName result)
  | addFriendRequest (conn : Conn) (sender target message : String) :
      Completes (.addFriendRequest conn sender target message)
        (.friendRequest conn sender target message)
  | respondFriendRequest (conn : Conn) (requester responder : String)
      (accepted : Bool) :
      Completes (.respondFriendRequest conn requester responder accepted)
        (.friendResponse conn requester responder accepted)
  | removeFriend (conn : Conn) (uid target : String) :
      Completes (.removeFriend conn uid target)
        (.friendRemove conn uid target)
  | recallMessage (conn : Conn) (uid : String) (msgId : Int)
      (recipient room : String) (result : RecallResult) :
      Completes (.recallMessage conn uid msgId recipient room)
        (.recallMsg conn uid msgId recipient room result)

/-- What a task hands to the loop. -/
def Concludes (task : Task) (callback : Option Callback) : Prop :=
  callback.isSome = task.hasCallback ∧
    ∀ done, callback = some done → Completes task done

section Accepted

variable {older newer : List Event}

theorem accepted_replies (hreplies : ∀ event ∈ newer, event.IsReply)
    (older : List Event) : accepted (newer ++ older) = accepted older := by
  refine skips_replies (fun event older hevent => ?_) hreplies older
  cases event with
  | sent conn msg => rfl
  | shutdown conn => rfl
  | _ => exact False.elim hevent

theorem requests_of_asked {login : Option String} {conn : Conn}
    {envelope : Envelope} {task : Task}
    (hasked : asked login conn envelope = some task) :
    Requests login conn envelope task := by
  have hlogin {make : String → Task} (hmake : login.map make = some task)
      (hrequests : ∀ uid, login = some uid →
        Requests login conn envelope (make uid)) :
      Requests login conn envelope task := by
    obtain ⟨uid, huid, rfl⟩ := Option.map_eq_some_iff.mp hmake
    exact hrequests uid huid
  cases envelope with
  | loginReq req =>
      simp only [asked] at hasked
      split_ifs at hasked with hnone htoken huid
      · cases hasked
        exact .tokenLogin req htoken
      · cases hasked
        exact .login req
  | logoutReq req =>
      cases hasked
      exact .logout req
  | registerReq req =>
      obtain ⟨_, hasked⟩ := Option.ite_none_left_eq_some.mp hasked
      cases hasked
      exact .register req
  | chatMsg msg => exact hlogin hasked (.chat msg)
  | createRoom req => exact hlogin hasked (.createRoom req)
  | joinRoom req => exact hlogin hasked (.joinRoom req)
  | friendReq req => exact hlogin hasked (.friendRequest req)
  | friendResp req => exact hlogin hasked (.friendResponse req)
  | friendRemove req => exact hlogin hasked (.friendRemove req)
  | recallMsg req => exact hlogin hasked (.recallMsg req)
  | heartbeat | notSet => cases hasked

theorem not_isFollowUp_of_asked {login : Option String} {conn : Conn}
    {envelope : Envelope} {task : Task}
    (hasked : asked login conn envelope = some task) :
    ¬ task.IsFollowUp := by
  cases requests_of_asked hasked <;> exact id

theorem concludes_program (nodeId : String) (task : Task) :
    ((task.program nodeId).translate answerRepository).Ensures
      fun _ callback => Concludes task callback := by
  have hfinish {α : Type} (service : ServiceProg α)
      (finish : α → Option Callback)
      (hconcludes : ∀ value, Concludes task (finish value)) :
      ((service >>= fun value => pure (finish value)).translate
        answerRepository).Ensures fun _ callback =>
          Concludes task callback := by
    rw [Prog.translate_bind]
    have hservice : (service.translate answerRepository).Ensures
        fun _ _ => True := fun _ _ _ => trivial
    exact hservice.bind fun _ value _ =>
      Prog.ensures_ret.mpr (hconcludes value)
  have hnone (hcallback : task.hasCallback = false) :
      Concludes task none := by
    refine ⟨hcallback.symm, ?_⟩
    intro done hdone
    cases hdone
  have hsome {done : Callback} (hcallback : task.hasCallback = true)
      (hcompletes : Completes task done) : Concludes task (some done) := by
    refine ⟨hcallback.symm, ?_⟩
    intro other hother
    cases hother
    exact hcompletes
  cases task with
  | logout | getMessage | markMessagesDelivered =>
      exact hfinish _ _ fun _ => hnone rfl
  | loginWithToken conn token =>
      exact hfinish _ _ fun _ => hsome rfl (.loginWithToken ..)
  | login conn uid passwd => exact hfinish _ _ fun _ => hsome rfl (.login ..)
  | registerUser => exact hfinish _ _ fun _ => hsome rfl (.registerUser ..)
  | sendMessage => exact hfinish _ _ fun _ => hsome rfl (.sendMessage ..)
  | createRoom => exact hfinish _ _ fun _ => hsome rfl (.createRoom ..)
  | joinRoom => exact hfinish _ _ fun _ => hsome rfl (.joinRoom ..)
  | addFriendRequest =>
      exact hfinish _ _ fun _ => hsome rfl (.addFriendRequest ..)
  | respondFriendRequest =>
      exact hfinish _ _ fun _ => hsome rfl (.respondFriendRequest ..)
  | removeFriend => exact hfinish _ _ fun _ => hsome rfl (.removeFriend ..)
  | recallMessage =>
      exact hfinish _ _ fun _ => hsome rfl (.recallMessage ..)

end Accepted

namespace ChatServer

/-! ## The record of a server -/

/-- The record shows who is logged in on each connection. -/
def LoginsRecorded (server : ChatServer) : Prop :=
  ∀ conn, server.sessions.loggedInUid conn = loginOf conn server.history

section Records

variable {server next : ChatServer} {request : Nat} {allowed : Task → Prop}

theorem Responds.accepted_eq
    (hresponds : Responds request allowed server next) :
    accepted next.history = accepted server.history := by
  obtain ⟨replies, hhistory, hreplies⟩ := hresponds.history
  rw [hhistory]
  exact accepted_replies hreplies server.history

theorem LoginsRecorded.responds (hserver : LoginsRecorded server)
    (hresponds : Responds request allowed server next) :
    LoginsRecorded next := by
  intro conn
  obtain ⟨replies, hhistory, hreplies⟩ := hresponds.history
  rw [SessionManager.loggedInUid_of_conns hresponds.conns, hhistory,
    loginOf_replies hreplies]
  exact hserver conn

theorem LoginsRecorded.receive (hserver : LoginsRecorded server)
    (conn : Conn) (envelope : Envelope) :
    LoginsRecorded (server.receive conn envelope) := by
  have hleft : LoginsRecorded
      ((server.arrived conn envelope).leave server.requests conn
        envelope) := by
    cases envelope with
    | logoutReq req =>
        intro other
        show (server.sessions.deauthenticate conn).loggedInUid other = _
        rw [SessionManager.loggedInUid_deauthenticate, hserver other]
        rfl
    | _ => exact hserver
  exact hleft.responds (responds_receive server conn envelope)

theorem LoginsRecorded.close (hserver : LoginsRecorded server)
    (conn : Conn) : LoginsRecorded (server.close conn) := by
  intro other
  have hcontext : (server.close conn).sessions.getContext other =
      server.sessions.getContext other :=
    (SessionManager.getContext_onDisconnection _ conn other).trans
      (SessionManager.getContext_setDisconnected _ conn other)
  rw [SessionManager.loggedInUid_of_getContext hcontext]
  exact hserver other

theorem LoginsRecorded.enter (hserver : LoginsRecorded server)
    (request : Nat) (login : Option (Conn × LoginResult × String)) :
    LoginsRecorded (server.enter request login) := by
  cases login with
  | none => exact hserver
  | some login =>
      obtain ⟨conn, result, token⟩ := login
      intro other
      show (server.sessions.authenticate conn result.userInfo.uid
        token).loggedInUid other = _
      rw [SessionManager.loggedInUid_authenticate, hserver other]
      rfl

theorem queue_whenAuthenticated (server : ChatServer) (request : Nat)
    (conn : Conn) (task : String → Task) :
    (server.whenAuthenticated request conn task).queue =
      server.queue ++ (((server.sessions.loggedInUid conn).map task).map
        (PoolTask.mk request)).toList := by
  unfold whenAuthenticated SessionManager.loggedInUid
  split
  · rfl
  · exact (List.append_nil _).symm

/-- An envelope queues the task it asks for and nothing else. -/
theorem queue_receive_eq (server : ChatServer) (conn : Conn)
    (envelope : Envelope) :
    (server.receive conn envelope).queue =
      server.queue ++ ((asked (server.sessions.loggedInUid conn) conn
        envelope).map (PoolTask.mk server.requests)).toList := by
  cases envelope with
  | loginReq req =>
      simp only [receive, onEnvelope, handleLogin, asked]
      split_ifs
      · exact (List.append_nil _).symm
      · rfl
      · exact (List.append_nil _).symm
      · rfl
  | logoutReq req => rfl
  | registerReq req =>
      simp only [receive, onEnvelope, handleRegister, asked]
      split_ifs
      · exact (List.append_nil _).symm
      · rfl
  | heartbeat | notSet => exact (List.append_nil _).symm
  | _ => exact queue_whenAuthenticated (server.arrived conn _) _ conn _

theorem accepted_receive (server : ChatServer) (conn : Conn)
    (envelope : Envelope) :
    accepted (server.receive conn envelope).history =
      ((asked (loginOf conn server.history) conn envelope).map
        (PoolTask.mk server.requests)).toList ++
          accepted server.history := by
  rw [(responds_receive server conn envelope).accepted_eq]
  cases envelope <;> rfl

end Records

end ChatServer

namespace ChatNode

variable {config : ServerConfig} {node next : ChatNode} {action : Action}

/-! ## What becomes of accepted requests -/

def isAsked (item : PoolTask) : Bool := decide (¬ item.task.IsFollowUp)

/-- Everything a node has taken up: what is queued, running or finished. -/
def takenUp (node : ChatNode) : List PoolTask :=
  node.server.queue ++ node.threads.map Thread.op ++
    node.finished.map Prod.fst

/-- The accepted requests are those taken up, apart from tasks that follow up,
and a task that has ended has handed over what it had to. -/
structure Handled (config : ServerConfig) (node : ChatNode) : Prop where
  faithful : ∀ thread ∈ node.threads, (system config).Faithful thread
  logins : node.server.LoginsRecorded
  taken : ((takenUp node).filter isAsked).Perm (accepted node.server.history)
  concluded : ∀ entry ∈ node.finished, Concludes entry.1.task entry.2

theorem handled_start (world : NodeWorld) :
    Handled config { world := world } where
  faithful := by simp
  logins := fun _ => rfl
  taken := .refl _
  concluded := by simp

theorem map_op_set {index : Nat} {thread : NodeThread} {call : NodeCall}
    {answer : call.Answer} {rest : NodeProg (Option Callback)}
    {threads : List NodeThread} (hthread : threads[index]? = some thread) :
    (threads.set index (thread.advance call answer rest)).map Thread.op =
      threads.map Thread.op := by
  apply List.ext_getElem?
  intro place
  rw [List.getElem?_map, List.getElem?_map]
  by_cases hplace : place = index
  · subst hplace
    rw [List.getElem?_set_self (List.getElem?_eq_some_iff.mp hthread).1,
      hthread]
    rfl
  · rw [List.getElem?_set_ne (Ne.symm hplace)]

theorem filter_isAsked_followUps (request : Nat) {tasks : List Task}
    (htasks : ∀ task ∈ tasks, task.IsFollowUp) :
    (tasks.map (PoolTask.mk request)).filter isAsked = [] := by
  rw [List.filter_eq_nil_iff]
  intro item hitem
  obtain ⟨task, htask, rfl⟩ := List.mem_map.mp hitem
  simp [isAsked, htasks task htask]

theorem filter_isAsked_asked (login : Option String) (conn : Conn)
    (envelope : Envelope) (request : Nat) :
    ((asked login conn envelope).map (PoolTask.mk request)).toList.filter
        isAsked =
      ((asked login conn envelope).map (PoolTask.mk request)).toList := by
  cases hasked : asked login conn envelope with
  | none => rfl
  | some task => simp [isAsked, not_isFollowUp_of_asked hasked]

theorem Handled.step (hnode : Handled config node)
    (hstep : step config node action = some next) :
    Handled config next := by
  have hfaithful := faithful_step hstep hnode.faithful
  cases steps_of_step hstep with
  | receive conn envelope =>
      refine ⟨hfaithful, hnode.logins.receive conn envelope, ?_,
        hnode.concluded⟩
      show ((takenUp _).filter isAsked).Perm
        (accepted (node.server.receive conn envelope).history)
      rw [ChatServer.accepted_receive, ← hnode.logins conn, takenUp,
        ChatServer.queue_receive_eq]
      simp only [List.filter_append, filter_isAsked_asked, List.append_assoc]
      have hold := hnode.taken
      simp only [takenUp, List.filter_append, List.append_assoc] at hold
      exact (List.perm_append_comm_assoc _ _ _).trans (hold.append_left _)
  | close conn =>
      exact ⟨hfaithful, hnode.logins.close conn, hnode.taken,
        hnode.concluded⟩
  | invalidLength conn =>
      exact ⟨hfaithful, hnode.logins, hnode.taken, hnode.concluded⟩
  | parseError conn =>
      exact ⟨hfaithful, hnode.logins, hnode.taken, hnode.concluded⟩
  | start item rest hqueue =>
      refine ⟨hfaithful, hnode.logins, List.Perm.trans ?_ hnode.taken,
        hnode.concluded⟩
      apply List.Perm.filter
      simp only [takenUp, hqueue, List.map_append, List.map_cons,
        List.map_nil, List.append_assoc, List.cons_append, List.nil_append]
      rw [← List.append_assoc, ← List.append_assoc]
      exact List.perm_middle
  | @exec index call answer thread world rest hthread hprog heffect =>
      refine ⟨hfaithful, hnode.logins, ?_, hnode.concluded⟩
      rw [takenUp, map_op_set hthread]
      exact hnode.taken
  | @finish index thread callback hthread hprog =>
      refine ⟨hfaithful, ?_, ?_, ?_⟩
      · intro conn
        show (node.server.queueInLoop config thread.op.request
          callback).sessions.loggedInUid conn = _
        rw [queueInLoop_sessions, hnode.logins conn]
        cases callback <;> rfl
      · obtain ⟨before, after, hthreads, _, herase⟩ :=
          exists_around_getElem? hthread
        have hhistory : (node.server.queueInLoop config thread.op.request
            callback).history = node.server.history := by
          cases callback <;> rfl
        show ((takenUp _).filter isAsked).Perm (accepted
          (node.server.queueInLoop config thread.op.request
            callback).history)
        rw [hhistory]
        refine List.Perm.trans (List.Perm.filter _ ?_) hnode.taken
        rw [takenUp, queueInLoop_queue, herase, takenUp, hthreads]
        simp only [List.map_append, List.map_cons, List.append_assoc,
          List.cons_append]
        apply List.Perm.append_left
        apply List.Perm.append_left
        exact List.perm_middle
      · intro entry hentry
        rcases List.mem_cons.mp hentry with rfl | hold
        · have hreaches : Prog.Reaches ((thread.op.task.program
              config.nodeId).translate answerRepository) thread.log
              (.ret callback) :=
            hprog ▸ hnode.faithful thread (List.mem_of_getElem? hthread)
          exact concludes_program config.nodeId thread.op.task _ _ hreaches
        · exact hnode.concluded entry hold
  | callback loop now functor rest hloop =>
      obtain ⟨_, _, tasks, hqueue, hfollow⟩ :=
        afterCallback_frame node loop now functor rest
      have hresponds := responds_afterCallback node loop now functor rest
      have hentered : (ChatServer.enter { node.server with
          loops := Function.update node.server.loops loop rest }
          functor.request
          (ChatServer.entry functor.callback)).LoginsRecorded := by
        have hbefore : ChatServer.LoginsRecorded { node.server with
            loops := Function.update node.server.loops loop rest } :=
          hnode.logins
        exact hbefore.enter _ _
      refine ⟨hfaithful, hentered.responds hresponds, ?_, hnode.concluded⟩
      rw [hresponds.accepted_eq]
      have haccepted : accepted (ChatServer.enter { node.server with
          loops := Function.update node.server.loops loop rest }
          functor.request (ChatServer.entry functor.callback)).history =
            accepted node.server.history := by
        cases ChatServer.entry functor.callback <;> rfl
      have hfollowUps : (tasks.map (PoolTask.mk functor.request)).filter
          isAsked = [] :=
        filter_isAsked_followUps functor.request hfollow
      rw [haccepted, takenUp, hqueue, List.filter_append,
        List.filter_append, List.filter_append, hfollowUps,
        List.append_nil]
      have hold := hnode.taken
      rw [takenUp, List.filter_append, List.filter_append] at hold
      exact hold
  | disturb hdisturb =>
      exact ⟨hfaithful, hnode.logins, hnode.taken, hnode.concluded⟩

/-! ## Numbers of accepted requests -/

structure AcceptedOrdered (server : ChatServer) : Prop where
  descending : (accepted server.history).Pairwise fun newer older =>
    older.request < newer.request
  numbered : ∀ item ∈ accepted server.history,
    item.request < server.requests

theorem AcceptedOrdered.of_eq {server after : ChatServer}
    (hserver : AcceptedOrdered server)
    (haccepted : accepted after.history = accepted server.history)
    (hrequests : after.requests = server.requests) :
    AcceptedOrdered after where
  descending := haccepted ▸ hserver.descending
  numbered := by
    rw [haccepted, hrequests]
    exact hserver.numbered

theorem AcceptedOrdered.receive {server : ChatServer}
    (hserver : AcceptedOrdered server) (conn : Conn) (envelope : Envelope) :
    AcceptedOrdered (server.receive conn envelope) := by
  have hnew : ∀ item ∈ ((asked (loginOf conn server.history) conn
      envelope).map (PoolTask.mk server.requests)).toList,
        item.request = server.requests := by
    intro item hitem
    obtain ⟨task, _, rfl⟩ :=
      Option.map_eq_some_iff.mp (Option.mem_toList.mp hitem)
    rfl
  constructor
  · rw [ChatServer.accepted_receive, List.pairwise_append]
    refine ⟨?_, hserver.descending, ?_⟩
    · cases (asked (loginOf conn server.history) conn envelope).map
        (PoolTask.mk server.requests) with
      | none => exact .nil
      | some item => exact List.pairwise_singleton _ _
    · intro newer hnewer older holder
      rw [hnew newer hnewer]
      exact hserver.numbered older holder
  · intro item hitem
    rw [requests_receive]
    rw [ChatServer.accepted_receive] at hitem
    rcases List.mem_append.mp hitem with hmem | hold
    · rw [hnew item hmem]
      exact Nat.lt_succ_self _
    · exact Nat.lt_succ_of_lt (hserver.numbered item hold)

theorem AcceptedOrdered.step (hnode : AcceptedOrdered node.server)
    (hstep : step config node action = some next) :
    AcceptedOrdered next.server := by
  cases steps_of_step hstep with
  | receive conn envelope => exact hnode.receive conn envelope
  | close conn => exact hnode.of_eq rfl rfl
  | finish hthread hprog =>
      rename_i callback
      cases callback <;> exact hnode.of_eq rfl rfl
  | callback loop now functor rest hloop =>
      have hresponds := responds_afterCallback node loop now functor rest
      refine hnode.of_eq (hresponds.accepted_eq.trans ?_)
        (hresponds.requests.trans ?_)
      all_goals cases ChatServer.entry functor.callback <;> rfl
  | _ => exact hnode.of_eq rfl rfl

theorem AcceptedOrdered.nodup {server : ChatServer}
    (hserver : AcceptedOrdered server) :
    ((accepted server.history).map PoolTask.request).Nodup := by
  rw [List.Nodup, List.pairwise_map]
  exact hserver.descending.imp fun hlt => (Nat.ne_of_lt hlt).symm

/-! ## Callbacks of finished tasks -/

/-- The callbacks the finished tasks have handed to the loops. -/
def handed (node : ChatNode) : List Functor :=
  node.finished.reverse.filterMap fun entry =>
    entry.2.map (Functor.mk entry.1.request)

theorem filter_handed (config : ServerConfig) (node : ChatNode)
    (loop : Nat) :
    (handed node).filter (ofLoop config loop) =
      node.finished.reverse.filterMap (handedTo config loop) := by
  rw [handed, List.filter_filterMap]
  congr 1
  funext entry
  obtain ⟨item, callback⟩ := entry
  cases callback with
  | none => rfl
  | some done =>
      by_cases hloop : config.loopOf done.conn = loop
      · simp [handedTo, ofLoop, hloop]
      · simp [handedTo, ofLoop, hloop]

open Classical in
theorem HandedOver.count_handed (hnode : HandedOver config node)
    (functor : Functor) :
    (handed node).count functor =
      (node.ran.map RanCallback.functor).count functor +
        (node.server.loops (config.loopOf functor.callback.conn)).count
          functor := by
  have hmine : ChatNode.ofLoop config
      (config.loopOf functor.callback.conn) functor = true :=
    decide_eq_true rfl
  have hloop := congrArg (List.count functor)
    (hnode (config.loopOf functor.callback.conn))
  rw [← filter_handed, List.count_append, List.count_filter hmine,
    List.count_filter hmine, List.map_reverse, List.count_reverse] at hloop
  exact hloop

/-- A callback that has run was handed over by a task of its own. -/
theorem HandedOver.subperm_ran (hnode : HandedOver config node) :
    (node.ran.map RanCallback.functor).Subperm (handed node) := by
  classical
  rw [List.subperm_ext_iff]
  intro functor _
  rw [hnode.count_handed functor]
  exact Nat.le_add_right _ _

theorem HandedOver.perm_ran (hnode : HandedOver config node)
    (hloops : ∀ loop, node.server.loops loop = []) :
    (node.ran.map RanCallback.functor).Perm (handed node) := by
  classical
  rw [List.perm_iff_count]
  intro functor
  rw [hnode.count_handed functor, hloops]
  rfl

/-- The tasks that have ended and had a callback to hand over. -/
def completed (node : ChatNode) : List PoolTask :=
  (node.finished.map Prod.fst).filter (·.task.hasCallback)

theorem Handled.requests_handed (hnode : Handled config node) :
    (handed node).map Functor.request =
      (completed node).reverse.map PoolTask.request := by
  have hfinished (entries : List (PoolTask × Option Callback))
      (hentries : ∀ entry ∈ entries, Concludes entry.1.task entry.2) :
      (entries.filterMap fun entry =>
          entry.2.map (Functor.mk entry.1.request)).map Functor.request =
        ((entries.map Prod.fst).filter (·.task.hasCallback)).map
          PoolTask.request := by
    induction entries with
    | nil => rfl
    | cons entry entries ih =>
        obtain ⟨item, callback⟩ := entry
        have hrest := ih fun each hmem =>
          hentries each (List.mem_cons_of_mem _ hmem)
        have hsome : callback.isSome = item.task.hasCallback :=
          (hentries (item, callback) List.mem_cons_self).1
        cases callback with
        | none => simp [← hsome, hrest]
        | some done => simp [← hsome, hrest]
  rw [handed, hfinished _ fun entry hentry =>
    hnode.concluded entry (List.mem_reverse.mp hentry), completed,
    List.map_reverse, List.filter_reverse]

theorem isAsked_of_hasCallback {item : PoolTask}
    (hitem : item.task.hasCallback = true) : isAsked item = true := by
  obtain ⟨request, task⟩ := item
  cases task <;> first | rfl | cases hitem

theorem filter_isAsked_hasCallback (items : List PoolTask) :
    (items.filter isAsked).filter (·.task.hasCallback) =
      items.filter (·.task.hasCallback) := by
  rw [List.filter_filter]
  apply List.filter_congr
  intro item _
  cases hitem : item.task.hasCallback with
  | false => rfl
  | true => exact isAsked_of_hasCallback hitem

/-- A task that has ended was accepted, and no other task that has ended was
accepted with it. -/
theorem Handled.subperm_completed (hnode : Handled config node) :
    (completed node).Subperm
      ((accepted node.server.history).filter (·.task.hasCallback)) := by
  have hperm := hnode.taken.filter (·.task.hasCallback)
  rw [filter_isAsked_hasCallback] at hperm
  refine List.Subperm.trans (List.Sublist.subperm ?_) hperm.subperm
  exact (List.sublist_append_right _ _).filter _

theorem Handled.perm_completed (hnode : Handled config node)
    (hqueue : node.server.queue = []) (hthreads : node.threads = []) :
    (completed node).Perm
      ((accepted node.server.history).filter (·.task.hasCallback)) := by
  have hperm := hnode.taken.filter (·.task.hasCallback)
  rw [filter_isAsked_hasCallback, takenUp, hqueue, hthreads] at hperm
  exact hperm

theorem Handled.completes_of_handed (hnode : Handled config node)
    {functor : Functor} (hfunctor : functor ∈ handed node) :
    ∃ item ∈ accepted node.server.history,
      item.request = functor.request ∧
        Completes item.task functor.callback := by
  obtain ⟨⟨item, callback⟩, hentry, hsome⟩ := List.mem_filterMap.mp hfunctor
  obtain ⟨done, rfl, rfl⟩ := Option.map_eq_some_iff.mp hsome
  have hfinished := List.mem_reverse.mp hentry
  obtain ⟨hhas, hcompletes⟩ := hnode.concluded _ hfinished
  have hcompleted : item ∈ completed node :=
    List.mem_filter.mpr ⟨List.mem_map_of_mem hfinished, hhas.symm⟩
  exact ⟨item,
    (List.mem_filter.mp (hnode.subperm_completed.subset hcompleted)).1, rfl,
    hcompletes done rfl⟩

/-! ## Exactly once -/

theorem nodup_map_of_subperm {α β : Type*} {value : α → β}
    {fewer items : List α} (hsubperm : fewer.Subperm items)
    (hnodup : (items.map value).Nodup) : (fewer.map value).Nodup := by
  obtain ⟨some, hperm, hsublist⟩ := hsubperm
  exact (hperm.map value).nodup_iff.mp (hnodup.sublist (hsublist.map value))

theorem handled_of_run {world : NodeWorld} {actions : List Action}
    (hrun : Runs.runFrom (step config) { world := world } actions =
      some node) :
    Handled config node ∧ AcceptedOrdered node.server ∧
      HandedOver config node := by
  have hinvariant := @Runs.invariant_of_run _ _ _
    (fun node => Handled config node ∧ AcceptedOrdered node.server ∧
      HandedOver config node) _ _ _
    ⟨handled_start world, ⟨.nil, by simp [ChatServer.initial, accepted]⟩,
      handedOver_start config world⟩
    (fun _ _ _ hstep hnode => ⟨hnode.1.step hstep, hnode.2.1.step hstep,
      hnode.2.2.step hstep⟩) hrun
  exact hinvariant

/-- A node runs no callback without a request that asked for its task, and no
second callback for a request; once it is idle, it has run one for each
accepted request other than a logout. -/
theorem requests_are_handled_once {world : NodeWorld}
    {actions : List Action}
    (hrun : Runs.runFrom (step config) { world := world } actions =
      some node) :
    (node.ran.map fun entry => entry.functor.request).Nodup ∧
      (∀ entry ∈ node.ran, ∃ item ∈ accepted node.server.history,
        item.request = entry.functor.request ∧
          Completes item.task entry.functor.callback) ∧
      (node.Quiescent →
        (node.ran.map fun entry => entry.functor.request).Perm
          (((accepted node.server.history).filter
            (·.task.hasCallback)).map PoolTask.request)) := by
  obtain ⟨hhandled, hordered, hover⟩ := handled_of_run hrun
  have hran : (node.ran.map fun entry => entry.functor.request) =
      (node.ran.map RanCallback.functor).map Functor.request :=
    (List.map_map ..).symm
  have hcompleted : ((handed node).map Functor.request).Perm
      ((completed node).map PoolTask.request) := by
    rw [hhandled.requests_handed]
    exact (List.reverse_perm _).map _
  refine ⟨?_, ?_, ?_⟩
  · have hnodup : (((accepted node.server.history).filter
        (·.task.hasCallback)).map PoolTask.request).Nodup :=
      hordered.nodup.sublist (List.filter_sublist.map _)
    rw [hran]
    refine nodup_map_of_subperm hover.subperm_ran (hcompleted.nodup_iff.mpr ?_)
    exact nodup_map_of_subperm hhandled.subperm_completed hnodup
  · intro entry hentry
    exact hhandled.completes_of_handed
      (hover.subperm_ran.subset (List.mem_map_of_mem hentry))
  · intro hquiet
    rw [hran]
    exact ((hover.perm_ran hquiet.loops).map _).trans (hcompleted.trans
      ((hhandled.perm_completed hquiet.queue hquiet.threads).map _))

/-- A node that has answered ann's login is idle, and has run the callback of
that login once. -/
theorem requests_are_handled_once_annLogin : ∃ node,
    Runs.runFrom (step twoWorkers)
        { world := ⟨annRegistered, emptySeed.world⟩ } annLogin =
      some node ∧
      node.Quiescent ∧
      accepted node.server.history = [⟨0, .login 0 "ann" "secret"⟩] ∧
      (node.ran.map fun entry => entry.functor.request).Perm [0] := by
  have hrun : ∃ node, Runs.runFrom (step twoWorkers)
        { world := ⟨annRegistered, emptySeed.world⟩ } annLogin =
      some node ∧
      node.server.queue = [] ∧ node.threads = [] ∧
      node.server.loops 0 = [] ∧
      (∀ loop, node.server.loops (loop + 1) = []) ∧
      accepted node.server.history = [⟨0, .login 0 "ann" "secret"⟩] :=
    ⟨_, rfl, rfl, rfl, rfl, fun _ => rfl, rfl⟩
  obtain ⟨node, hrun, hqueue, hthreads, hfirst, hothers, haccepted⟩ := hrun
  have hquiet : node.Quiescent := by
    refine ⟨hqueue, hthreads, ?_⟩
    intro loop
    cases loop with
    | zero => exact hfirst
    | succ loop => exact hothers loop
  have hperm := (requests_are_handled_once hrun).2.2 hquiet
  rw [haccepted] at hperm
  exact ⟨node, hrun, hquiet, haccepted, hperm⟩

end ChatNode

end MuduoChat
