import MuduoChat.ChatNodes
import MuduoChat.TaskCalls

/-!
# What the tasks of a node tell the database

Which statements each task sends.  No task takes a user, a room or a member
away, so that everyone who acts on a node is registered: the uid of a login
was read from the table of users and is there ever since.
-/

namespace MuduoChat

/-! ## The statements of a task -/

/-- The statements of each repository call. -/
inductive RepositoryCall.Sends : RepositoryCall → Statement → Prop
  | selectTaken (uid passwd nickname email : String) :
      Sends (.registerUser uid passwd nickname email) (.selectUid uid)
  | insertUser (uid passwd nickname email nick : String) :
      Sends (.registerUser uid passwd nickname email)
        (.insertUser uid nick email passwd)
  | selectVerified (uid passwd : String) :
      Sends (.verifyUser uid passwd) (.selectVerified uid passwd)
  | updateLastLogin (uid passwd : String) :
      Sends (.verifyUser uid passwd) (.updateLastLogin uid)
  | selectUid (uid : String) : Sends (.userExists uid) (.selectUid uid)
  | selectUser (uid : String) : Sends (.getUserInfo uid) (.selectUser uid)
  | insertRequest (sender target message : String) :
      Sends (.addFriendRequest sender target message)
        (.insertIgnoreFriendship sender target 0)
  | updateStatus (requester responder : String) (accepted : Bool) :
      Sends (.respondFriendRequest requester responder accepted)
        (.updateFriendshipStatus (if accepted then 1 else 2) requester
          responder)
  | insertMirror (requester responder : String) :
      Sends (.respondFriendRequest requester responder true)
        (.insertIgnoreFriendship responder requester 1)
  | deleteFriendships (uid₁ uid₂ : String) :
      Sends (.removeFriends uid₁ uid₂) (.deleteFriendships uid₁ uid₂)
  | selectFriends (uid : String) :
      Sends (.getFriendList uid) (.selectFriends uid)
  | selectPendingRequesters (uid : String) :
      Sends (.getPendingRequests uid) (.selectPendingRequesters uid)
  | selectRoomId (sender recipient room content : String) :
      Sends (.storeMessage sender recipient room content)
        (.selectRoomId room)
  | selectNextSeq (sender recipient room content : String) (roomId : Int) :
      Sends (.storeMessage sender recipient room content)
        (.selectNextSeq roomId)
  | insertMessage (sender recipient room content : String) (seq : Int)
      (roomId : Option Int) :
      Sends (.storeMessage sender recipient room content)
        (.insertMessage seq roomId sender
          (if recipient = "" then none else some recipient) content)
  | selectMessage (msgId : Int) :
      Sends (.getMessage msgId) (.selectMessage msgId)
  | updateRecalled (msgId : Int) (uid : String) :
      Sends (.recallMessage msgId uid) (.updateRecalled msgId uid)
  | insertOfflineMessage (targetUid : String) (msgId : Int) :
      Sends (.addOfflineMessage targetUid msgId)
        (.insertOfflineMessage targetUid msgId)
  | selectUndelivered (uid : String) :
      Sends (.getUndeliveredMessages uid) (.selectUndelivered uid)
  | updateDelivered (uid : String) :
      Sends (.markMessagesDelivered uid) (.updateDelivered uid)
  | insertRoom (name creator : String) :
      Sends (.createRoom name creator) (.insertRoom name creator)
  | selectRoomByName (name : String) :
      Sends (.getRoomByName name) (.selectRoomByName name)
  | selectTakenRoom (name : String) :
      Sends (.roomExists name) (.selectRoomByName name)
  | insertIgnoreRoomMember (roomId : Int) (uid : String) (role : Int) :
      Sends (.addRoomMember roomId uid role)
        (.insertIgnoreRoomMember roomId uid role)

def DbCall.Sends (allowed : Statement → Prop) : DbCall → Prop
  | .query statement => allowed statement
  | _ => True

def NodeCall.Sends (allowed : Statement → Prop) : NodeCall → Prop
  | .sql call => call.Sends allowed
  | .session _ => True

section Statements

open Prog

variable {α : Type} {allowed : Statement → Prop}

theorem onlyCalls_overSql {prog : DbProg α}
    (hprog : prog.OnlyCalls (DbCall.Sends allowed)) :
    (overSql prog).OnlyCalls (NodeCall.Sends allowed) := by
  refine OnlyCalls.translate ?_ hprog
  intro call hcall
  cases call with
  | query statement =>
      exact onlyCalls_call.mpr ⟨hcall, fun _ => onlyCalls_ret⟩
  | _ => exact onlyCalls_call.mpr ⟨trivial, fun _ => onlyCalls_ret⟩

theorem onlyCalls_query {unavailable : α} {statement : Statement}
    {finish : Option statement.Result → α} (hallowed : allowed statement) :
    (overSql (withConnection unavailable
      (mysqlQuery statement >>= fun result =>
        pure (finish result)))).OnlyCalls (NodeCall.Sends allowed) := by
  have hcalls : DbCall.Sends allowed (.query statement) := hallowed
  exact onlyCalls_overSql (onlyCalls_withQuery trivial trivial hcalls)

/-- The queries of a program over the database stand in the log of the
node. -/
theorem queries_of_overSql {prog : DbProg α}
    {log : List (Sigma NodeCall.Answer)} {value : α}
    (hreaches : Reaches (overSql prog) log (.ret value)) :
    ∃ queries : List (Sigma DbCall.Answer),
      Reaches prog queries (.ret value) ∧
      ∀ statement result, ⟨.query statement, result⟩ ∈ queries →
        ∃ outcome, ⟨.sql (.query statement), outcome⟩ ∈ log ∧
          outcome.result = result := by
  obtain ⟨queries, hqueries, hparts⟩ := hreaches.of_translate
  refine ⟨queries, hqueries, ?_⟩
  intro statement result hquery
  obtain ⟨part, hpart, hpath⟩ := hparts _ hquery
  cases hpath with
  | @step _ _ outcome _ _ hrest =>
      cases hrest
      exact ⟨outcome, hpart List.mem_cons_self, rfl⟩

/-- A method that sends one statement either gets no connection or returns
what it makes of the outcome. -/
theorem ensures_query {unavailable : α} {statement : Statement}
    {finish : Option statement.Result → α} :
    (overSql (withConnection unavailable
      (mysqlQuery statement >>= fun result =>
        pure (finish result)))).Ensures fun log value =>
      ⟨.sql .getConnection, false⟩ ∈ log ∧ value = unavailable ∨
      ∃ outcome, ⟨.sql (.query statement), outcome⟩ ∈ log ∧
        value = finish outcome.result := by
  refine ensures_call.mpr fun conn => ?_
  cases conn with
  | false => exact ensures_ret.mpr (.inl ⟨.head _, rfl⟩)
  | true =>
      refine ensures_call.mpr fun outcome => ?_
      refine ensures_call.mpr fun returned => ?_
      exact ensures_ret.mpr (.inr ⟨outcome, .tail _ (.head _), rfl⟩)

theorem onlyCalls_overSession (prog : LoginProg α) :
    (overSession prog).OnlyCalls (NodeCall.Sends allowed) := by
  have hprog : prog.OnlyCalls fun _ => True :=
    fun _ _ _ _ => trivial
  refine OnlyCalls.translate ?_ hprog
  intro call _
  exact onlyCalls_call.mpr ⟨trivial, fun _ => onlyCalls_ret⟩

theorem onlyCalls_registerUser (uid passwd nickname email : String) :
    (MySQLUserRepo.registerUser uid passwd nickname email).OnlyCalls
      (DbCall.Sends (RepositoryCall.Sends
        (.registerUser uid passwd nickname email))) := by
  apply onlyCalls_withConnection trivial trivial
  refine onlyCalls_call.mpr
    ⟨.selectTaken uid passwd nickname email, fun result => ?_⟩
  cases result with
  | none => exact onlyCalls_ret
  | some rows =>
      show OnlyCalls (if (!(rows.getD []).isEmpty) = true then _ else _) _
      split
      · exact onlyCalls_ret
      · exact onlyCalls_call.mpr
          ⟨.insertUser uid passwd nickname email _, fun _ => onlyCalls_ret⟩

theorem onlyCalls_conclude (uid passwd : String) (ok : Bool) :
    (MySQLUserRepo.conclude uid ok).OnlyCalls
      (DbCall.Sends (RepositoryCall.Sends (.verifyUser uid passwd))) := by
  cases ok with
  | false => exact onlyCalls_call.mpr ⟨trivial, fun _ => onlyCalls_ret⟩
  | true =>
      refine onlyCalls_call.mpr ⟨.updateLastLogin uid passwd, fun _ => ?_⟩
      exact onlyCalls_call.mpr ⟨trivial, fun _ => onlyCalls_ret⟩

theorem onlyCalls_verifyUser (uid passwd : String) :
    (MySQLUserRepo.verifyUser uid passwd).OnlyCalls
      (DbCall.Sends (RepositoryCall.Sends (.verifyUser uid passwd))) := by
  refine onlyCalls_call.mpr ⟨trivial, fun conn => ?_⟩
  cases conn with
  | false => exact onlyCalls_ret
  | true =>
      refine onlyCalls_call.mpr
        ⟨.selectVerified uid passwd, fun result => ?_⟩
      cases result with
      | some rows => exact onlyCalls_conclude uid passwd _
      | none =>
          refine onlyCalls_call.mpr ⟨trivial, fun _ => ?_⟩
          refine onlyCalls_call.mpr ⟨trivial, fun again => ?_⟩
          cases again with
          | false => exact onlyCalls_ret
          | true =>
              refine onlyCalls_call.mpr
                ⟨.selectVerified uid passwd, fun result => ?_⟩
              cases result <;> exact onlyCalls_conclude uid passwd _

theorem onlyCalls_answerRepository (call : RepositoryCall) :
    (answerRepository call).OnlyCalls (NodeCall.Sends call.Sends) := by
  cases call with
  | registerUser uid passwd nickname email =>
      exact onlyCalls_overSql
        (onlyCalls_registerUser uid passwd nickname email)
  | verifyUser uid passwd =>
      exact onlyCalls_overSql (onlyCalls_verifyUser uid passwd)
  | userExists uid => exact onlyCalls_query (.selectUid uid)
  | getUserInfo uid =>
      exact onlyCalls_query (.selectUser uid)
  | addFriendRequest sender target message =>
      exact onlyCalls_query (.insertRequest sender target message)
  | respondFriendRequest requester responder accepted =>
      exact onlyCalls_overSql
        (MySQLFriendRepo.onlyCalls_respondFriendRequest trivial trivial
          (.updateStatus requester responder accepted) fun haccepted =>
            haccepted ▸ .insertMirror requester responder)
  | removeFriends uid₁ uid₂ =>
      exact onlyCalls_query (.deleteFriendships uid₁ uid₂)
  | getFriendList uid =>
      exact onlyCalls_query (.selectFriends uid)
  | getPendingRequests uid =>
      exact onlyCalls_query (.selectPendingRequesters uid)
  | storeMessage sender recipient room content =>
      exact onlyCalls_overSql
        (MySQLMessageRepo.onlyCalls_storeMessage trivial trivial
          (.selectRoomId sender recipient room content)
          (.selectNextSeq sender recipient room content)
          (.insertMessage sender recipient room content))
  | getMessage msgId =>
      exact onlyCalls_query (.selectMessage msgId)
  | recallMessage msgId uid =>
      exact onlyCalls_overSql
        (MySQLMessageRepo.onlyCalls_recallMessage trivial trivial
          (.updateRecalled msgId uid))
  | addOfflineMessage targetUid msgId =>
      exact onlyCalls_query (.insertOfflineMessage targetUid msgId)
  | getUndeliveredMessages uid =>
      exact onlyCalls_query (.selectUndelivered uid)
  | markMessagesDelivered uid =>
      exact onlyCalls_query (.updateDelivered uid)
  | createRoom name creator =>
      exact onlyCalls_query (.insertRoom name creator)
  | getRoomByName name =>
      exact onlyCalls_query (.selectRoomByName name)
  | roomExists name =>
      exact onlyCalls_overSql
        ((onlyCalls_withQuery trivial trivial (.selectTakenRoom name)).bind
          fun _ => onlyCalls_ret)
  | addRoomMember roomId uid role =>
      exact onlyCalls_query (.insertIgnoreRoomMember roomId uid role)
  | _ => exact onlyCalls_overSession _

end Statements

/-- The statements of each task. -/
def Task.Sends (task : Task) (statement : Statement) : Prop :=
  ∃ call, task.Makes call ∧ call.Sends statement

theorem Task.onlyCalls_sends (nodeId : String) (task : Task) :
    ((task.program nodeId).translate answerRepository).OnlyCalls
      (NodeCall.Sends task.Sends) := by
  refine Prog.OnlyCalls.translate ?_ (task.onlyCalls_makes nodeId)
  intro call hmakes
  apply (onlyCalls_answerRepository call).mono
  intro inner hsends
  cases inner with
  | sql inner =>
      cases inner with
      | query statement => exact ⟨call, hmakes, hsends⟩
      | _ => trivial
  | session inner => trivial

end MuduoChat
