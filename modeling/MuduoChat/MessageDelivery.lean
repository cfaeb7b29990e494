import MuduoChat.Attribution
import MuduoChat.MySQLRepos

/-!
# Delivery of private messages

The server and its database together.  Calls to the message and friend
repositories are answered by the MySQL programs, each carried out in one step;
user, session and room repositories, the clock and the token generator answer
as they please.

A private message is stored first and relayed later, by a callback that looks
up the recipient's connection at that moment.  When there is none, the message
should go to `offline_messages`; the task the callback queues reads the
message back instead, and nothing in the server ever calls
`addOfflineMessage`.  A message is therefore not lost exactly when its
recipient can be reached at the moment of delivery: the recipient's route, or
the connection the message came from, is up and logged in as the recipient.
-/

namespace MuduoChat

/-! ## Server and database -/

/-- The database's part in a repository call: the state afterwards and the
answer.  Calls that are not served keep the answer proposed. -/
def Database.serve (db : Database) :
    (call : RepositoryCall) → call.Answer → Database × call.Answer
  | .registerUser uid _ nickname email, answer =>
      (if answer then
        { db with
          users := db.users.insertIgnore
            { uid := uid
              nickname := if nickname = "" then uid else nickname
              email := email } }
      else db, answer)
  | .addFriendRequest sender target message, _ =>
      Prog.run exec db
        (MySQLFriendRepo.addFriendRequest sender target message)
  | .respondFriendRequest requester responder accepted, _ =>
      Prog.run exec db
        (MySQLFriendRepo.respondFriendRequest requester responder accepted)
  | .removeFriends uid₁ uid₂, _ =>
      Prog.run exec db (MySQLFriendRepo.removeFriends uid₁ uid₂)
  | .getFriendList uid, _ =>
      Prog.run exec db (MySQLFriendRepo.getFriendList uid)
  | .getPendingRequests uid, _ =>
      Prog.run exec db (MySQLFriendRepo.getPendingRequests uid)
  | .storeMessage sender recipient room content, _ =>
      Prog.run exec db
        (MySQLMessageRepo.storeMessage sender recipient room content)
  | .getMessage msgId, _ =>
      Prog.run exec db (MySQLMessageRepo.getMessage msgId)
  | .recallMessage msgId uid, _ =>
      Prog.run exec db (MySQLMessageRepo.recallMessage msgId uid)
  | .addOfflineMessage targetUid msgId, _ =>
      Prog.run exec db (MySQLMessageRepo.addOfflineMessage targetUid msgId)
  | .getUndeliveredMessages uid, _ =>
      Prog.run exec db (MySQLMessageRepo.getUndeliveredMessages uid)
  | .markMessagesDelivered uid, _ =>
      Prog.run exec db (MySQLMessageRepo.markMessagesDelivered uid)
  | _, answer => (db, answer)

structure ChatSystem where
  server : ChatServer := ChatServer.initial
  db : Database

namespace ChatSystem

inductive Action where
  | server (action : ChatServer.Action)
  /-- The database's clock advances. -/
  | tick (clock : String)

def served (db : Database) :
    ChatServer.Action → Database × ChatServer.Action
  | .call index call answer =>
      ((db.serve call answer).1, .call index call (db.serve call answer).2)
  | action => (db, action)

def step (config : ServerConfig) (system : ChatSystem) :
    Action → Option ChatSystem
  | .server action =>
      (ChatServer.step config system.server
        (served system.db action).2).map fun server =>
          { server := server, db := (served system.db action).1 }
  | .tick clock =>
      some { system with db := { system.db with clock := clock } }

def start (db : Database) : ChatSystem :=
  { db := { db with offlineMessages := AutoTable.empty } }

/-! ## Deliveries -/

/-- The next functor of the loop delivers a stored private message to a
registered user. -/
def Delivers (system : ChatSystem) (loop : Nat) (conn : Conn)
    (sender recipient content : String) (msgId : Int) : Prop :=
  ∃ request room result rest,
    system.server.loops loop =
      ⟨request, .chat conn sender recipient room content result⟩ :: rest ∧
    result.success = true ∧ result.msgId = msgId ∧ recipient ≠ "" ∧
    system.db.Registered recipient

def Reaches (system : ChatSystem) (conn : Conn) (uid : String) : Prop :=
  system.server.sessions.connected conn = true ∧
    .shutdown conn ∉ system.server.history ∧
      system.server.sessions.LoggedInAs conn uid

/-- In the step from `before` to `after`, `msg` is sent on a connection that
reaches `uid`. -/
def SentTo (before after : ChatSystem) (uid : String)
    (msg : ServerMessage) : Prop :=
  ∃ newer conn, after.server.history = newer ++ before.server.history ∧
    .sent conn msg ∈ newer ∧ before.Reaches conn uid

def Queued (system : ChatSystem) (uid : String) (msgId : Int) : Prop :=
  ∃ entry ∈ system.db.offlineMessages.entries,
    entry.2.targetUid = uid ∧ entry.2.msgId = msgId ∧
      entry.2.delivered = 0

/-- Every stored private message to a registered user is sent to that user by
its delivery callback, or is queued for them in some state from then on. -/
def NoMessageLost (config : ServerConfig) (initial : ChatSystem)
    (actions : List Action) : Prop :=
  ∀ before loop now after system next conn sender recipient content msgId,
    actions = before ++ .server (.callback loop now) :: after →
    Runs.runFrom (step config) initial before = some system →
    step config system (.server (.callback loop now)) = some next →
    system.Delivers loop conn sender recipient content msgId →
      SentTo system next recipient
        (ServerReplies.privateChat sender recipient content msgId now) ∨
      ∃ during later, during <+: after ∧
        Runs.runFrom (step config) next during = some later ∧
          later.Queued recipient msgId

/-- A message is delivered only while its recipient can be reached: by the
route of the recipient, or by the connection the message came from. -/
def RecipientReached (system : ChatSystem) : Action → Prop
  | .server (.callback loop _) =>
      ∀ conn sender recipient content msgId,
        system.Delivers loop conn sender recipient content msgId →
          ∃ target,
            (system.server.sessions.getConnection recipient = some target ∨
              target = conn) ∧
            system.Reaches target recipient
  | _ => True

/-! ## The queue of offline messages stays empty -/

section Offline

variable {db : Database}

def NoneQueued (db : Database) : Prop :=
  db.offlineMessages.entries = []

def KeepsOfflineEmpty : DbCall → Prop
  | .query (.insertOfflineMessage ..) => False
  | _ => True

theorem offline_exec {call : DbCall} (hcall : KeepsOfflineEmpty call)
    (hempty : NoneQueued db) : NoneQueued (db.exec call).1 := by
  cases call with
  | query statement =>
      cases statement with
      | insertOfflineMessage targetUid msgId => exact False.elim hcall
      | insertIgnoreFriendship | insertMessage | insertUser | insertRoom
      | insertIgnoreRoomMember | insertSession =>
          simp only [Database.exec, Database.execStatement]
          split_ifs <;> exact hempty
      | updateDelivered uid =>
          unfold NoneQueued at hempty ⊢
          simp [Database.exec, Database.execStatement, AutoTable.update,
            hempty]
      | _ => exact hempty
  | _ => exact hempty

theorem offline_run {α : Type} {prog : DbProg α}
    (hprog : prog.OnlyCalls KeepsOfflineEmpty)
    (hempty : NoneQueued db) :
    NoneQueued (Prog.run Database.exec db prog).1 :=
  Prog.run_invariant (fun _ _ hcall => offline_exec hcall) hprog hempty

theorem offline_serve {call : RepositoryCall} {answer : call.Answer}
    (hcall : call.queuesOffline = false)
    (hempty : NoneQueued db) : NoneQueued (db.serve call answer).1 := by
  cases call with
  | registerUser uid passwd nickname email =>
      simp only [Database.serve]
      split <;> exact hempty
  | addOfflineMessage targetUid msgId =>
      simp [RepositoryCall.queuesOffline] at hcall
  | storeMessage sender recipient room content =>
      exact offline_run (MySQLMessageRepo.onlyCalls_storeMessage trivial
        trivial trivial (fun _ => trivial) fun _ _ => trivial) hempty
  | respondFriendRequest requester responder accepted =>
      exact offline_run (MySQLFriendRepo.onlyCalls_respondFriendRequest
        trivial trivial trivial fun _ => trivial) hempty
  | recallMessage msgId uid =>
      exact offline_run (MySQLMessageRepo.onlyCalls_recallMessage trivial
        trivial trivial) hempty
  | addFriendRequest | removeFriends | getFriendList | getPendingRequests
  | getMessage | getUndeliveredMessages | markMessagesDelivered =>
      exact offline_run (onlyCalls_withQuery trivial trivial trivial) hempty
  | _ => exact hempty

end Offline

section Runs

variable {config : ServerConfig} {system next : ChatSystem}

structure NeverQueues (config : ServerConfig) (system : ChatSystem) :
    Prop where
  accounted : ChatServer.Accounted config system.server
  empty : NoneQueued system.db

theorem NeverQueues.step {action : Action}
    (hsystem : NeverQueues config system)
    (hstep : step config system action = some next) :
    NeverQueues config next := by
  cases action with
  | tick clock =>
      cases hstep
      exact ⟨hsystem.accounted, hsystem.empty⟩
  | server action =>
      obtain ⟨server, hserver, rfl⟩ := Option.map_eq_some_iff.mp hstep
      refine ⟨hsystem.accounted.step hserver, ?_⟩
      cases action with
      | call index call answer =>
          cases ChatServer.steps_of_step hserver with
          | call index worker call rest given hworker hprog =>
              obtain ⟨task, calls, -, hreaches, -⟩ :=
                hsystem.accounted.workers worker
                  (List.mem_of_getElem? hworker)
              rw [hprog] at hreaches
              exact offline_serve
                (task.onlyCalls_actor config.nodeId calls call rest
                  hreaches).2 hsystem.empty
      | _ => exact hsystem.empty

theorem start_neverQueues (config : ServerConfig) (db : Database) :
    NeverQueues config (start db) where
  accounted := ChatServer.initial_accounted config
  empty := rfl

theorem neverQueues_of_run {db : Database} {actions : List Action}
    (hrun : Runs.runFrom (step config) (start db) actions = some system) :
    NeverQueues config system :=
  Runs.invariant_of_run (start_neverQueues config db)
    (fun _ _ _ hstep hsystem => hsystem.step hstep) hrun

theorem not_queued_of_run {db : Database} {actions : List Action}
    (hrun : Runs.runFrom (step config) (start db) actions = some system)
    (uid : String) (msgId : Int) : ¬ system.Queued uid msgId := by
  rintro ⟨entry, hentry, -⟩
  rw [(neverQueues_of_run hrun).empty] at hentry
  simp at hentry

/-! ## The delivery callback -/

/-- A delivery sends the message to the recipient's route, if there is one,
and echoes it to its sender. -/
theorem sent_of_chatDone (server : ChatServer) (request now : Nat)
    (conn : Conn) (sender room content : String) {recipient : String}
    {result : SendMessageResult} (hsuccess : result.success = true)
    (hrecipient : recipient ≠ "") :
    ∃ newer,
      (server.chatDone request conn sender recipient room content result
        now).history = newer ++ server.history ∧
      ∀ target, .sent target (ServerReplies.privateChat sender recipient
          content result.msgId now) ∈ newer ↔
        server.sessions.getConnection recipient = some target ∨
          target = conn := by
  unfold ChatServer.chatDone
  rw [if_neg (by simp [hsuccess]), if_pos hrecipient]
  cases hroute : server.sessions.getConnection recipient with
  | none =>
      refine ⟨[.sent conn (ServerReplies.errorReply 3 "user offline"),
        .sent conn (ServerReplies.privateChat sender recipient content
          result.msgId now)], ?_, ?_⟩
      · simp [ServerReplies.privateRelay, ServerReplies.toUser, hroute,
          ChatServer.sendAll, ChatServer.send, ChatServer.sendError,
          ChatServer.record, ChatServer.runInPool]
      · intro target
        simp [ServerReplies.errorReply, ServerReplies.privateChat]
  | some route =>
      refine ⟨[.sent conn (ServerReplies.privateChat sender recipient content
          result.msgId now),
        .sent route (ServerReplies.privateChat sender recipient content
          result.msgId now)], ?_, ?_⟩
      · simp [ServerReplies.privateRelay, ServerReplies.toUser, hroute,
          ChatServer.sendAll, ChatServer.send, ChatServer.record]
      · intro target
        simp only [List.mem_cons, List.not_mem_nil, or_false,
          Event.sent.injEq, and_true, Option.some.injEq]
        rw [or_comm, eq_comm]

theorem sentTo_iff {loop now : Nat} {conn : Conn}
    {sender recipient content : String} {msgId : Int}
    (hstep : step config system (.server (.callback loop now)) = some next)
    (hdelivers : system.Delivers loop conn sender recipient content msgId) :
    SentTo system next recipient
        (ServerReplies.privateChat sender recipient content msgId now) ↔
      ∃ target,
        (system.server.sessions.getConnection recipient = some target ∨
          target = conn) ∧
        system.Reaches target recipient := by
  obtain ⟨request, room, result, rest, hloop, hsuccess, rfl, hrecipient, -⟩ :=
    hdelivers
  obtain ⟨server, hserver, rfl⟩ := Option.map_eq_some_iff.mp hstep
  cases ChatServer.steps_of_step hserver with
  | callback _ _ number callback others hfront =>
      rw [hloop] at hfront
      cases hfront
      obtain ⟨newer, hhistory, hsent⟩ := sent_of_chatDone
        { system.server with
          loops := Function.update system.server.loops loop rest }
        request now conn sender room content hsuccess hrecipient
      constructor
      · rintro ⟨newer', target, hnewer', hmem, hreaches⟩
        have hsame : newer' = newer := by
          refine List.append_cancel_right (hnewer'.symm.trans ?_)
          exact hhistory
        subst hsame
        exact ⟨target, (hsent target).mp hmem, hreaches⟩
      · rintro ⟨target, htarget, hreaches⟩
        exact ⟨newer, target, hhistory, (hsent target).mpr htarget, hreaches⟩

end Runs

/-! ## No message is lost -/

theorem recipientReached_of_noMessageLost {config : ServerConfig}
    {db : Database} {actions : List Action}
    (hkept : NoMessageLost config (start db) actions) :
    Runs.EachStep (step config) RecipientReached (start db) actions := by
  rintro before action system next ⟨after, rfl⟩ hrun hstep
  cases action with
  | tick clock => trivial
  | server action =>
      cases action with
      | callback loop now =>
          intro conn sender recipient content msgId hdelivers
          have hactions : before ++ [.server (.callback loop now)] ++ after =
              before ++ .server (.callback loop now) :: after := by simp
          rcases hkept before loop now after system next conn sender recipient
            content msgId hactions hrun hstep hdelivers with
            hsent | ⟨during, later, -, hlater, hqueued⟩
          · exact (sentTo_iff hstep hdelivers).mp hsent
          · have hreached : Runs.runFrom (step config) (start db)
                ((before ++ [.server (.callback loop now)]) ++ during) =
                  some later := by
              rw [Runs.runFrom_append, Runs.runFrom_concat hrun hstep]
              exact hlater
            exact absurd hqueued (not_queued_of_run hreached _ _)
      | _ => trivial

theorem noMessageLost_of_recipientReached {config : ServerConfig}
    {db : Database} {actions : List Action}
    (hreached : Runs.EachStep (step config) RecipientReached (start db)
      actions) :
    NoMessageLost config (start db) actions := by
  rintro before loop now after system next conn sender recipient content
    msgId rfl hrun hstep hdelivers
  have hinit : before ++ [.server (.callback loop now)] <+:
      before ++ .server (.callback loop now) :: after := ⟨after, by simp⟩
  exact .inl ((sentTo_iff hstep hdelivers).mpr
    (hreached before _ system next hinit hrun hstep conn sender recipient
      content msgId hdelivers))

/-- No private message is lost along exactly those runs in which every
delivery callback of a stored message runs while its recipient can be reached,
by their route or by the connection the message came from. -/
theorem no_message_lost_iff (config : ServerConfig) (db : Database)
    (actions : List Action) :
    NoMessageLost config (start db) actions ↔
      Runs.EachStep (step config) RecipientReached (start db) actions :=
  ⟨recipientReached_of_noMessageLost, noMessageLost_of_recipientReached⟩

def storedForBob : List ChatServer.Action :=
  ChatServer.passwordLogin 1 "alice" "pw" "t" ++
    [.callback 0 5,
      .receive 1 (.chatMsg { recipient := "bob", content := "hi" }),
      .start,
      .call 0 (.storeMessage "alice" "bob" "" "hi") 0,
      .finish 0]

def deliveredToBob : List ChatServer.Action :=
  [.callback 0 6, .start, .call 0 (.getMessage 1) none, .finish 0]

theorem offline_message_lost :
    ¬ NoMessageLost { threads := 1, loopOf := fun _ => 0 }
        (start { users := ⟨[{ uid := "alice" }, { uid := "bob" }],
          by decide⟩ })
        (storedForBob.map .server ++ deliveredToBob.map .server) := by
  intro hkept
  have hreached := recipientReached_of_noMessageLost hkept
    (storedForBob.map .server) (.server (.callback 0 6)) _ _
    ⟨[.server .start, .server (.call 0 (.getMessage 1) none),
      .server (.finish 0)], rfl⟩ rfl rfl 1 "alice" "bob" "hi" 1
    ⟨1, "", { success := true, msgId := 1 }, [], rfl, rfl, rfl,
      by decide, by decide⟩
  obtain ⟨target, hroute | rfl, -, -, hlogged⟩ := hreached
  · have hnone : (none : Option Conn) = some target := hroute
    cases hnone
  · have huid := hlogged.getUid_eq
    revert huid
    decide

end ChatSystem

end MuduoChat
