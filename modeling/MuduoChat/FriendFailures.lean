import MuduoChat.RecallAudience

/-!
# Friend operations that fail

The handlers for friend requests, answers and removals hand the operation to
a pool task and finish it in a callback.  The task drops the result of the
service, so that the callback is the same whether the operation succeeded or
not: the caches change, the other user is told, and nothing is reported to
the user who asked.
-/

namespace MuduoChat

def Envelope.IsFriendOperation : Envelope → Prop
  | .friendReq _ | .friendResp _ | .friendRemove _ => True
  | _ => False

def ServerMessage.AboutFriends : ServerMessage → Prop
  | .friendReq _ | .friendResp _ | .friendRemove _ | .friendList _ => True
  | _ => False

namespace Task

/-- The call of the friend service a task starts with. -/
def friendService : Task → Option (ServiceProg FriendResult)
  | .addFriendRequest _ sender target message =>
      some (FriendService.addFriendRequest sender target message)
  | .respondFriendRequest _ requester responder accepted =>
      some (FriendService.respondFriendRequest requester responder accepted)
  | .removeFriend _ uid target => some (FriendService.removeFriend uid target)
  | _ => none

/-- The user a friend operation concerns besides the one who asks for it. -/
def otherUser : Task → String
  | .addFriendRequest _ _ target _ => target
  | .respondFriendRequest _ requester _ _ => requester
  | .removeFriend _ _ target => target
  | _ => ""

def friendCallback : Task → Option Callback
  | .addFriendRequest conn sender target message =>
      some (.friendRequest conn sender target message)
  | .respondFriendRequest conn requester responder accepted =>
      some (.friendResponse conn requester responder accepted)
  | .removeFriend conn uid target => some (.friendRemove conn uid target)
  | _ => none

/-- Whatever the service returns, the callback is the same. -/
theorem reaches_friendCallback {task : Task}
    {service : ServiceProg FriendResult}
    {log : List (Sigma RepositoryCall.Answer)} {result : FriendResult}
    (hservice : task.friendService = some service)
    (hreaches : Prog.Reaches service log (.ret result)) (nodeId : String) :
    ∃ callback, task.friendCallback = some callback ∧
      Prog.Reaches (task.program nodeId) log (.ret (some callback)) := by
  cases task with
  | addFriendRequest conn sender target message =>
      cases hservice
      exact ⟨_, rfl, hreaches.bind _⟩
  | respondFriendRequest conn requester responder accepted =>
      cases hservice
      exact ⟨_, rfl, hreaches.bind _⟩
  | removeFriend conn uid target =>
      cases hservice
      exact ⟨_, rfl, hreaches.bind _⟩
  | _ => cases hservice

end Task

namespace ChatServer

/-- Nobody was sent an error in between. -/
def NoErrorSent (before after : ChatServer) : Prop :=
  ∃ events, after.history = events ++ before.history ∧
    ∀ target resp, .sent target (.error resp) ∉ events

/-- A failed operation leaves no trace, except that it is reported to the
connection it came from. -/
structure OperationUndone (before after : ChatServer) (conn : Conn)
    (other : String) : Prop where
  friendships : after.sessions.friendships = before.sessions.friendships
  pending : after.sessions.pendingFriendRequests =
    before.sessions.pendingFriendRequests
  untold : ∀ target msg, before.sessions.getConnection other = some target →
    .sent target msg ∈ eventsSince before after → ¬ msg.AboutFriends
  reported : ∃ code reason,
    .sent conn (ServerReplies.errorReply code reason) ∈
      eventsSince before after

variable {before middle after : ChatServer} {conn : Conn}

theorem NoErrorSent.trans (hfirst : NoErrorSent before middle)
    (hsecond : NoErrorSent middle after) : NoErrorSent before after := by
  obtain ⟨older, hmiddle, holder⟩ := hfirst
  obtain ⟨newer, hafter, hnewer⟩ := hsecond
  refine ⟨newer ++ older, ?_, ?_⟩
  · rw [hafter, hmiddle, List.append_assoc]
  · intro target resp hmem
    rcases List.mem_append.mp hmem with hmem | hmem
    · exact hnewer target resp hmem
    · exact holder target resp hmem

theorem NoErrorSent.not_undone {other : String}
    (hsilent : NoErrorSent before after) :
    ¬ OperationUndone before after conn other := by
  rintro ⟨-, -, -, code, reason, hreported⟩
  obtain ⟨events, hhistory, hnone⟩ := hsilent
  rw [eventsSince_of_append hhistory] at hreported
  exact hnone conn _ hreported

theorem noErrorSent_withSessions (server : ChatServer)
    (sessions : SessionManager) :
    NoErrorSent server (server.withSessions sessions) :=
  ⟨[], rfl, fun _ _ => List.not_mem_nil⟩

theorem noErrorSent_send (server : ChatServer) (conn : Conn)
    {msg : ServerMessage} (hmsg : ∀ resp, msg ≠ .error resp) :
    NoErrorSent server (server.send conn msg) := by
  refine ⟨[.sent conn msg], rfl, ?_⟩
  intro target resp hmem
  cases List.mem_singleton.mp hmem
  exact hmsg resp rfl

theorem noErrorSent_sendFriendList (server : ChatServer) (conn : Conn) :
    NoErrorSent server (server.sendFriendList conn) := by
  refine noErrorSent_send server conn ?_
  intro resp heq
  cases heq

theorem noErrorSent_notifyWithFriends (server : ChatServer) (uid : String)
    {msg : ServerMessage} (hmsg : ∀ resp, msg ≠ .error resp) :
    NoErrorSent server (server.notifyWithFriends uid msg) := by
  unfold notifyWithFriends
  split
  · exact ⟨[], rfl, fun _ _ => List.not_mem_nil⟩
  · exact (noErrorSent_send server _ hmsg).trans
      (noErrorSent_sendFriendList _ _)

theorem noErrorSent_friendCallback {task : Task} {callback : Callback}
    (hcallback : task.friendCallback = some callback) (server : ChatServer)
    (request now : Nat) :
    NoErrorSent server (server.runCallback request now callback) := by
  cases task with
  | addFriendRequest conn sender target message =>
      cases hcallback
      refine (noErrorSent_withSessions server
        (server.sessions.addPendingRequest sender target)).trans ?_
      show NoErrorSent _ (sendAll _ (ServerReplies.toUser _ target _))
      unfold ServerReplies.toUser
      split
      · exact ⟨[], rfl, fun _ _ => List.not_mem_nil⟩
      · exact noErrorSent_send _ _ fun _ => nofun
  | respondFriendRequest conn requester responder accepted =>
      cases hcallback
      refine ((noErrorSent_withSessions server _).trans
        (noErrorSent_notifyWithFriends _ requester ?_)).trans
          (noErrorSent_sendFriendList _ conn)
      intro resp heq
      cases heq
  | removeFriend conn uid target =>
      cases hcallback
      refine ((noErrorSent_withSessions server _).trans
        (noErrorSent_notifyWithFriends _ target ?_)).trans
          (noErrorSent_sendFriendList _ conn)
      intro resp heq
      cases heq
  | _ => cases hcallback

/-- Every friend operation from a connection that is logged in becomes a
task, and however the service fails in it, the callback it ends with never
treats the operation as failed. -/
theorem failed_friend_operation {server : ChatServer} {envelope : Envelope}
    (hauth : server.sessions.isAuthenticated conn = true)
    (hfriend : envelope.IsFriendOperation) (request : Nat) :
    ∃ task service,
      (server.onEnvelope request conn envelope).queue =
        server.queue ++ [⟨request, task⟩] ∧
      task.friendService = some service ∧
      ∀ nodeId log result, Prog.Reaches service log (.ret result) →
        result.success = false →
          ∃ callback,
            Prog.Reaches (task.program nodeId) log (.ret (some callback)) ∧
            ∀ (later : ChatServer) (now : Nat),
              ¬ OperationUndone later (later.runCallback request now callback)
                conn task.otherUser := by
  have hfails {task : Task} {service : ServiceProg FriendResult}
      (hservice : task.friendService = some service) :
      ∀ nodeId log result, Prog.Reaches service log (.ret result) →
        result.success = false →
          ∃ callback,
            Prog.Reaches (task.program nodeId) log (.ret (some callback)) ∧
            ∀ (later : ChatServer) (now : Nat),
              ¬ OperationUndone later (later.runCallback request now callback)
                conn task.otherUser := by
    intro nodeId log result hreaches _
    obtain ⟨callback, hcallback, hprogram⟩ :=
      Task.reaches_friendCallback hservice hreaches nodeId
    exact ⟨callback, hprogram, fun later now =>
      (noErrorSent_friendCallback hcallback later request now).not_undone⟩
  cases envelope with
  | friendReq req =>
      refine ⟨.addFriendRequest conn req.fromUid req.toUid req.message, _,
        ?_, rfl, hfails rfl⟩
      simp [onEnvelope, handleFriendRequest, whenAuthenticated, hauth,
        runInPool]
  | friendResp req =>
      refine ⟨.respondFriendRequest conn req.toUid req.fromUid req.accepted,
        _, ?_, rfl, hfails rfl⟩
      simp [onEnvelope, handleFriendResponse, whenAuthenticated, hauth,
        runInPool]
  | friendRemove req =>
      refine ⟨.removeFriend conn (server.sessions.getUid conn)
        req.targetUid, _, ?_, rfl, hfails rfl⟩
      simp [onEnvelope, handleFriendRemove, whenAuthenticated, hauth,
        runInPool]
  | _ => exact hfriend.elim

def aliceAsks : FriendRequest where
  fromUid := "alice"
  toUid := "bob"
  message := "hi"

theorem failed_friend_operation_refusedInsert :
    ∃ task callback,
      (threeUsers.onEnvelope 0 0 (.friendReq aliceAsks)).queue =
        [⟨0, task⟩] ∧
      Prog.Reaches (task.program "node-1")
        [⟨.userExists "bob", true⟩,
          ⟨.addFriendRequest "alice" "bob" "hi", false⟩]
        (.ret (some callback)) ∧
      ¬ OperationUndone threeUsers (threeUsers.runCallback 0 0 callback) 0
        task.otherUser := by
  have hauth : threeUsers.sessions.isAuthenticated 0 = true := rfl
  have hfriend : (Envelope.friendReq aliceAsks).IsFriendOperation := trivial
  obtain ⟨task, service, hqueue, hservice, hfails⟩ :=
    failed_friend_operation hauth hfriend 0
  cases hqueue
  cases hservice
  have hrefused : Prog.Reaches
      (FriendService.addFriendRequest "alice" "bob" "hi")
      [⟨.userExists "bob", true⟩,
        ⟨.addFriendRequest "alice" "bob" "hi", false⟩]
      (.ret { reason := "add friend request failed" }) := by
    repeat refine .step ?_
    exact .refl _
  obtain ⟨callback, hprogram, hdone⟩ := hfails "node-1" _ _ hrefused rfl
  exact ⟨_, callback, rfl, hprogram, hdone threeUsers 0⟩

/-- The insertion of Alice's request fails: the cache has it, Bob is asked,
and Alice hears nothing. -/
theorem failed_friend_operation_fails_refusedInsert :
    ∃ last,
      Runs.runFrom (step { threads := 1, loopOf := fun _ => 0 }) threeUsers
        [.receive 0 (.friendReq aliceAsks), .start,
          .call 0 (.userExists "bob") true,
          .call 0 (.addFriendRequest "alice" "bob" "hi") false,
          .finish 0, .callback 0 0] = some last ∧
      last.sessions.hasPendingRequest "alice" "bob" = true ∧
      .sent 1 (.friendReq { fromUid := "alice", message := "hi" }) ∈
        last.history ∧
      ∀ msg, .sent 0 msg ∉ last.history := by
  refine ⟨_, rfl, by decide, List.mem_cons_self, ?_⟩
  intro msg
  show .sent 0 msg ∉ [
    Event.sent 1 (.friendReq { fromUid := "alice", message := "hi" }),
    .called 0 (.addFriendRequest "alice" "bob" "hi") false,
    .called 0 (.userExists "bob") true,
    .started 0 (.addFriendRequest 0 "alice" "bob" "hi"),
    .received 0 0 (.friendReq aliceAsks)]
  simp

end ChatServer

end MuduoChat
