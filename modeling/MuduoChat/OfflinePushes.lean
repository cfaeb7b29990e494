import MuduoChat.MessageDelivery
import MuduoChat.RecallAudience
import MuduoChat.ServerCaches
import MuduoChat.StoredMessages

/-!
# Pushing offline messages

A login reads the queue of its user in a pool task, its callback sends the
list that was read, and a second task marks whatever is then queued for the
user as delivered.  Between these three steps messages may be stored, queued
and recalled, connections may close, and other logins of the same user may be
at any of their own steps.

What is marked has been sent as long as nothing is queued for a user while a
login of that user is on its way, and the connection is still there when the
list is sent.  What has been recalled stays unsent as long as it is not queued
any more: nobody looks at the `recalled` column on the way.

The calls of the repositories do not fail here; one that fails without effect
is a step that is not taken.  A login is later than a recall when it reads its
queue after it.
-/

namespace MuduoChat

/-! ## The system -/

/-- A login whose callback is still to run, with the messages that had been
recalled before it read its list. -/
structure FetchedLogin where
  conn : Conn
  result : LoginResult
  recalled : List Int

def FetchedLogin.uid (login : FetchedLogin) : String :=
  login.result.userInfo.uid

def FetchedLogin.messages (login : FetchedLogin) : List MessageInfo :=
  login.result.offlineMessages

/-- A login whose callback has run: whether its connection was still up then,
and what the callback caused. -/
structure PushedLogin extends FetchedLogin where
  connected : Bool
  events : List Event

/-- The server and its database.  `recalled` and `pushed` are read by
nobody. -/
structure OfflineSystem where
  server : ChatServer := ChatServer.initial
  db : Database
  fetched : List FetchedLogin := []
  recalled : List Int := []
  pushed : List PushedLogin := []

namespace OfflineSystem

inductive Action where
  | storeMessage (sender recipient room content : String)
  | addOfflineMessage (uid : String) (msgId : Int)
  /-- The service recalls a message; `answers` is what the clock says. -/
  | recallMessage (msgId : Int) (uid recipient room : String)
      (answers : (call : RepositoryCall) → call.Answer)
  /-- The task of a login, with a password or a token, reads the queue of its
  user; the rest of its result is given. -/
  | fetch (conn : Conn) (uid : String) (result : LoginResult)
  /-- The callback of a login runs. -/
  | push (index : Nat) (now : Nat)
  /-- The pool carries out a queued `markMessagesDelivered`. -/
  | mark (index : Nat)
  | close (conn : Conn)
  /-- The database's clock advances. -/
  | tick (clock : String)

/-- The uid of the user was read from the database. -/
def fetchLogin (system : OfflineSystem) (conn : Conn) (uid : String)
    (result : LoginResult) : FetchedLogin where
  conn := conn
  result :=
    { result with
      success := true
      userInfo := { result.userInfo with uid := cstr uid }
      offlineMessages := (Prog.run Database.exec system.db
        (MySQLMessageRepo.getUndeliveredMessages uid)).2 }
  recalled := system.recalled

def pushLogin (system : OfflineSystem) (login : FetchedLogin) (now : Nat) :
    ChatServer :=
  system.server.runCallback system.server.requests now
    (.login login.conn login.result)

def afterPush (system : OfflineSystem) (index : Nat) (login : FetchedLogin)
    (now : Nat) : OfflineSystem :=
  { system with
    server := system.pushLogin login now
    fetched := system.fetched.eraseIdx index
    pushed :=
      { login with
        connected := system.server.sessions.connected login.conn
        events := ChatServer.eventsSince system.server
          (system.pushLogin login now) } :: system.pushed }

def markDelivered (system : OfflineSystem) (index : Nat) :
    Option OfflineSystem :=
  match system.server.queue[index]? with
  | some ⟨_, .markMessagesDelivered uid⟩ =>
      some { system with
        server := { system.server with
          queue := system.server.queue.eraseIdx index }
        db := (Prog.run Database.exec system.db
          (MySQLMessageRepo.markMessagesDelivered uid)).1 }
  | _ => none

def runRecall (db : Database) (msgId : Int) (uid recipient room : String)
    (answers : (call : RepositoryCall) → call.Answer) :
    Database × RecallResult :=
  Prog.run (fun db call => Database.serve db call (answers call)) db
    (ChatService.recallMessage msgId uid recipient room)

def step (system : OfflineSystem) : Action → Option OfflineSystem
  | .storeMessage sender recipient room content =>
      some { system with
        db := (Prog.run Database.exec system.db
          (MySQLMessageRepo.storeMessage sender recipient room content)).1 }
  | .addOfflineMessage uid msgId =>
      some { system with
        db := (Prog.run Database.exec system.db
          (MySQLMessageRepo.addOfflineMessage uid msgId)).1 }
  | .recallMessage msgId uid recipient room answers =>
      let (db, result) :=
        runRecall system.db msgId uid recipient room answers
      some { system with
        db := db
        recalled :=
          if result.success then msgId :: system.recalled
          else system.recalled }
  | .fetch conn uid result =>
      some { system with
        fetched := system.fetched ++ [system.fetchLogin conn uid result] }
  | .push index now =>
      (system.fetched[index]?).map fun login =>
        system.afterPush index login now
  | .mark index => system.markDelivered index
  | .close conn =>
      if system.server.sessions.connected conn then
        some { system with server := system.server.close conn }
      else none
  | .tick clock =>
      some { system with db := { system.db with clock := clock } }

/-- No message is queued yet. -/
def start (db : Database) : OfflineSystem :=
  { db := { db with offlineMessages := AutoTable.empty } }

end OfflineSystem

/-! ## The callback of a login -/

namespace ChatServer

theorem pending_frame (server : ChatServer) (conn other : Conn) (uid : String)
    (requests : List String) :
    let after := requests.foldl (fun server requester =>
      (server.withSessions
          (server.sessions.addPendingRequest requester uid)).send conn
        (ServerReplies.pendingRequest requester uid)) server
    after.queue = server.queue ∧
      after.sessions.getUid other = server.sessions.getUid other ∧
      server.history <:+ after.history := by
  induction requests generalizing server with
  | nil => exact ⟨rfl, rfl, List.suffix_refl _⟩
  | cons requester rest ih =>
      obtain ⟨hqueue, huid, hhistory⟩ := ih
        ((server.withSessions
          (server.sessions.addPendingRequest requester uid)).send conn
            (ServerReplies.pendingRequest requester uid))
      exact ⟨hqueue, huid, (List.suffix_cons _ server.history).trans hhistory⟩

/-- The list is sent when the connection has been logged in, and before the
list of friends. -/
theorem loginDone_eq (server : ChatServer) (request : Nat) (conn : Conn)
    (result : LoginResult) (token : String) (now : Nat) :
    ∃ middle : ChatServer, middle.queue = server.queue ∧
      middle.sessions.getUid conn = result.userInfo.uid ∧
      server.history <:+ middle.history ∧
      server.loginDone request conn result token now =
        (middle.sendOfflineMessages request conn result.offlineMessages
          now).sendFriendList conn := by
  let sessions := result.friends.foldl (fun sessions friend =>
    sessions.addFriendship result.userInfo.uid friend.uid)
    (server.sessions.authenticate conn result.userInfo.uid token)
  have hconns : sessions.conns = (server.sessions.authenticate conn
      result.userInfo.uid token).conns :=
    (foldl_addFriendship_frame result.userInfo.uid result.friends
      (server.sessions.authenticate conn result.userInfo.uid token)).2
  have huid : sessions.getUid conn = result.userInfo.uid := by
    have hcontext : sessions.getContext conn =
        (server.sessions.authenticate conn result.userInfo.uid
          token).getContext conn := by
      unfold SessionManager.getContext
      rw [hconns]
    unfold SessionManager.getUid
    rw [hcontext]
    simp [SessionManager.authenticate]
  let replied : ChatServer := ((server.withSessions sessions).record
    (.loggedIn request conn result)).send conn
      (ServerReplies.loginReply result token now)
  have hreplied : server.history <:+ replied.history :=
    (List.suffix_cons _ server.history).trans (List.suffix_cons _ _)
  obtain ⟨hqueue, hsame, hhistory⟩ := pending_frame replied conn conn
    (replied.sessions.getUid conn) result.pendingRequests
  exact ⟨replied.sendPendingRequests conn result.pendingRequests, hqueue,
    hsame.trans huid, hreplied.trans hhistory, rfl⟩

theorem queue_sendAll (server : ChatServer) (outgoing : List Outgoing) :
    (server.sendAll outgoing).queue = server.queue := by
  induction outgoing generalizing server with
  | nil => rfl
  | cons out rest ih => exact ih (server.send out.1 out.2)

theorem queue_loginDone (server : ChatServer) (request : Nat) (conn : Conn)
    (result : LoginResult) (token : String) (now : Nat) :
    (server.loginDone request conn result token now).queue =
      server.queue ++
        if result.offlineMessages = [] then []
        else [⟨request, .markMessagesDelivered result.userInfo.uid⟩] := by
  obtain ⟨middle, hqueue, huid, _, heq⟩ :=
    loginDone_eq server request conn result token now
  rw [heq]
  show (middle.sendOfflineMessages request conn result.offlineMessages
    now).queue = _
  unfold sendOfflineMessages
  dsimp only
  split
  · rw [queue_sendAll, hqueue, List.append_nil]
  · show (middle.sendAll _).queue ++ _ = _
    rw [queue_sendAll, hqueue, huid]

theorem sent_loginDone {server : ChatServer} {request : Nat} {conn : Conn}
    {result : LoginResult} {token : String} {now : Nat} {info : MessageInfo}
    (hinfo : info ∈ result.offlineMessages) :
    .sent conn (ServerReplies.offlineChat info now) ∈
      eventsSince server
        (server.loginDone request conn result token now) := by
  obtain ⟨middle, _, _, ⟨newer, hhistory⟩, heq⟩ :=
    loginDone_eq server request conn result token now
  let outgoing : List Outgoing := result.offlineMessages.map fun info =>
    (conn, ServerReplies.offlineChat info now)
  have hpushed : (middle.sendOfflineMessages request conn
      result.offlineMessages now).history =
        (outgoing.map fun out => Event.sent out.1 out.2).reverse ++
          middle.history := by
    rw [← sendAll_history]
    unfold sendOfflineMessages
    dsimp only
    split <;> rfl
  obtain ⟨last, hevents⟩ : ∃ last,
      (server.loginDone request conn result token now).history =
        (last :: (outgoing.map fun out => Event.sent out.1 out.2).reverse ++
          newer) ++ server.history := by
    refine ⟨.sent conn (ServerReplies.friendList (middle.sendOfflineMessages
      request conn result.offlineMessages now).sessions conn), ?_⟩
    rw [heq, List.cons_append, List.cons_append, List.append_assoc,
      hhistory, ← hpushed]
    rfl
  rw [eventsSince_of_append hevents]
  refine List.mem_append_left _ (List.mem_cons_of_mem _ ?_)
  rw [List.mem_reverse, List.mem_map]
  exact ⟨_, List.mem_map_of_mem hinfo, rfl⟩

end ChatServer

/-! ## The queue of offline messages -/

namespace Database

/-- A row of the user's queue that is marked as delivered. -/
def Delivered (db : Database) (uid : String) (msgId : Int) : Prop :=
  ∃ entry ∈ db.offlineMessages.entries, entry.2.targetUid = uid ∧
    entry.2.msgId = msgId ∧ entry.2.delivered ≠ 0

/-- The queue is unchanged and no message is gone. -/
structure QueueKept (db after : Database) : Prop where
  offline : after.offlineMessages = db.offlineMessages
  messages : ∀ msgId, (db.messages.get? msgId).isSome →
    (after.messages.get? msgId).isSome

variable {db middle after : Database} {uid other : String} {msgId id : Int}

theorem QueueKept.refl (db : Database) : db.QueueKept db :=
  ⟨rfl, fun _ hsome => hsome⟩

theorem QueueKept.trans (hfirst : db.QueueKept middle)
    (hsecond : middle.QueueKept after) : db.QueueKept after where
  offline := hsecond.offline.trans hfirst.offline
  messages msgId hsome := hsecond.messages msgId (hfirst.messages msgId hsome)

def StoresMessages : DbCall → Prop
  | .query (.selectRoomId _) | .query (.selectNextSeq _)
  | .query (.insertMessage ..) | .query (.selectMessage _)
  | .query (.updateRecalled ..) => True
  | .query _ => False
  | _ => True

theorem queueKept_exec {call : DbCall} (hcall : StoresMessages call) :
    db.QueueKept (db.exec call).1 := by
  cases call with
  | query statement =>
      cases statement with
      | selectRoomId | selectNextSeq | selectMessage => exact .refl db
      | insertMessage seq roomId sender recipient content =>
          simp only [exec, execStatement]
          split
          · refine ⟨rfl, fun id hsome => ?_⟩
            show ((db.messages.insert _).get? id).isSome
            rw [AutoTable.get?_insert]
            split
            · rfl
            · exact hsome
          · exact .refl db
      | updateRecalled msgId uid =>
          refine ⟨rfl, fun id hsome => ?_⟩
          show ((db.messages.update _ _).get? id).isSome
          rw [AutoTable.get?_update, Option.isSome_map]
          exact hsome
      | _ => exact hcall.elim
  | _ => exact .refl db

theorem queueKept_run {α : Type} {prog : DbProg α}
    (hprog : prog.OnlyCalls StoresMessages) :
    db.QueueKept (Prog.run exec db prog).1 := by
  refine Prog.run_invariant ?_ hprog (QueueKept.refl db)
  intro state call hcall hkept
  exact hkept.trans (queueKept_exec hcall)

theorem queueKept_storeMessage (sender recipient room content : String) :
    db.QueueKept (Prog.run exec db (MySQLMessageRepo.storeMessage sender
      recipient room content)).1 :=
  queueKept_run (MySQLMessageRepo.onlyCalls_storeMessage trivial trivial
    trivial (fun _ => trivial) fun _ _ => trivial)

/-- What the recall of a message asks for. -/
def AsksForRecall : RepositoryCall → Prop
  | .getMessage _ | .time | .mktime _ | .recallMessage .. => True
  | _ => False

theorem onlyCalls_recall (uid recipient room : String) :
    (ChatService.recallMessage msgId uid recipient room).OnlyCalls
      AsksForRecall := by
  apply (onlyCalls_recallMessage 0 msgId uid recipient room).mono
  intro call hmakes
  cases hmakes <;> exact trivial

theorem queueKept_serve {call : RepositoryCall} {answer : call.Answer}
    (hcall : AsksForRecall call) :
    db.QueueKept (db.serve call answer).1 := by
  cases call with
  | getMessage msgId =>
      exact queueKept_run (onlyCalls_withQuery trivial trivial trivial)
  | time => exact .refl db
  | mktime tm => exact .refl db
  | recallMessage msgId uid =>
      exact queueKept_run (MySQLMessageRepo.onlyCalls_recallMessage trivial
        trivial trivial)
  | _ => exact hcall.elim

theorem queueKept_recall (uid recipient room : String)
    (answers : (call : RepositoryCall) → call.Answer) :
    db.QueueKept
      (OfflineSystem.runRecall db msgId uid recipient room answers).1 := by
  refine Prog.run_invariant ?_ (onlyCalls_recall uid recipient room)
    (QueueKept.refl db)
  intro state call hcall hkept
  exact hkept.trans (queueKept_serve hcall)

theorem QueueKept.waiting (hkept : db.QueueKept after) :
    after.Waiting uid msgId ↔ db.Waiting uid msgId := by
  unfold Waiting
  rw [hkept.offline]

theorem QueueKept.delivered (hkept : db.QueueKept after) :
    after.Delivered uid msgId ↔ db.Delivered uid msgId := by
  unfold Delivered
  rw [hkept.offline]

theorem mem_getUndeliveredMessages {info : MessageInfo} :
    info ∈ (Prog.run exec db
        (MySQLMessageRepo.getUndeliveredMessages uid)).2 ↔
      ∃ row, db.Waiting uid info.msgId ∧
        db.messages.get? info.msgId = some row ∧
          info = (db.messageInfo info.msgId row).ofRow := by
  have hresult : (Prog.run exec db
      (MySQLMessageRepo.getUndeliveredMessages uid)).2 =
        ((db.offlineMessages.entries.filter fun entry =>
          entry.2.targetUid = uid && entry.2.delivered = 0).filterMap
            fun entry => (db.messages.get? entry.2.msgId).map
              (db.messageInfo entry.2.msgId)).map MessageInfo.ofRow := by
    simp [MySQLMessageRepo.getUndeliveredMessages, exec, execStatement]
  rw [hresult, List.mem_map]
  constructor
  · rintro ⟨read, hread, rfl⟩
    obtain ⟨entry, hentry, hfound⟩ := List.mem_filterMap.mp hread
    obtain ⟨row, hrow, rfl⟩ := Option.map_eq_some_iff.mp hfound
    obtain ⟨hmem, hqueued⟩ := List.mem_filter.mp hentry
    have hwaiting : entry.2.targetUid = uid ∧ entry.2.delivered = 0 := by
      simpa using hqueued
    exact ⟨row, ⟨entry, hmem, hwaiting.1, rfl, hwaiting.2⟩, hrow, rfl⟩
  · rintro ⟨row, ⟨entry, hmem, huid, hid, hdelivered⟩, hrow, heq⟩
    refine ⟨db.messageInfo info.msgId row, ?_, heq.symm⟩
    refine List.mem_filterMap.mpr ⟨entry,
      List.mem_filter.mpr ⟨hmem, by simp [huid, hdelivered]⟩, ?_⟩
    rw [hid, hrow, Option.map_some]

section Marked

variable (db uid) in
theorem entries_markMessagesDelivered :
    (Prog.run exec db (MySQLMessageRepo.markMessagesDelivered
      uid)).1.offlineMessages.entries =
        db.offlineMessages.entries.map fun entry =>
          (entry.1,
            if entry.2.targetUid = uid ∧ entry.2.delivered = 0 then
              { entry.2 with delivered := 1 }
            else entry.2) := by
  simp [MySQLMessageRepo.markMessagesDelivered, exec, execStatement,
    AutoTable.update]

theorem waiting_markMessagesDelivered
    (hwaiting : (Prog.run exec db (MySQLMessageRepo.markMessagesDelivered
      uid)).1.Waiting other msgId) :
    db.Waiting other msgId := by
  obtain ⟨entry, hentry, huid, hid, hdelivered⟩ := hwaiting
  rw [entries_markMessagesDelivered] at hentry
  obtain ⟨old, hold, rfl⟩ := List.mem_map.mp hentry
  dsimp only at huid hid hdelivered
  split at huid
  · rename_i hmarked
    rw [if_pos hmarked] at hdelivered
    cases hdelivered
  · rename_i hkept
    rw [if_neg hkept] at hid hdelivered
    exact ⟨old, hold, huid, hid, hdelivered⟩

theorem delivered_markMessagesDelivered
    (hdelivered : (Prog.run exec db (MySQLMessageRepo.markMessagesDelivered
      uid)).1.Delivered other msgId) :
    db.Delivered other msgId ∨ other = uid ∧ db.Waiting other msgId := by
  obtain ⟨entry, hentry, huid, hid, hmarked⟩ := hdelivered
  rw [entries_markMessagesDelivered] at hentry
  obtain ⟨old, hold, rfl⟩ := List.mem_map.mp hentry
  dsimp only at huid hid hmarked
  split at huid
  · rename_i hchanged
    rw [if_pos hchanged] at hid
    exact .inr ⟨huid.symm.trans hchanged.1,
      ⟨old, hold, huid, hid, hchanged.2⟩⟩
  · rename_i hkept
    rw [if_neg hkept] at hid hmarked
    exact .inl ⟨old, hold, huid, hid, hmarked⟩

end Marked

section Added

theorem addOfflineMessage_cases :
    (Prog.run exec db (MySQLMessageRepo.addOfflineMessage uid msgId)).1 =
        db ∨
      (db.messages.get? msgId).isSome ∧
        (Prog.run exec db
          (MySQLMessageRepo.addOfflineMessage uid msgId)).1 =
          { db with
            offlineMessages := db.offlineMessages.insert
              { targetUid := uid, msgId := msgId } } := by
  have hrun : (Prog.run exec db
      (MySQLMessageRepo.addOfflineMessage uid msgId)).1 =
        (db.execStatement (.insertOfflineMessage uid msgId)).1 := by
    simp [MySQLMessageRepo.addOfflineMessage, exec]
  rw [hrun]
  simp only [execStatement]
  split
  · rename_i hknown
    exact .inr ⟨hknown.2, rfl⟩
  · exact .inl rfl

theorem waiting_addOfflineMessage
    (hwaiting : (Prog.run exec db (MySQLMessageRepo.addOfflineMessage uid
      msgId)).1.Waiting other id) :
    db.Waiting other id ∨
      other = uid ∧ id = msgId ∧ (db.messages.get? msgId).isSome := by
  rcases @addOfflineMessage_cases db uid msgId with hsame | ⟨hknown, hadded⟩
  · rw [hsame] at hwaiting
    exact .inl hwaiting
  · rw [hadded] at hwaiting
    obtain ⟨entry, hentry, huid, hid, hdelivered⟩ := hwaiting
    rcases List.mem_append.mp hentry with hmem | hmem
    · exact .inl ⟨entry, hmem, huid, hid, hdelivered⟩
    · rw [List.mem_singleton] at hmem
      subst hmem
      exact .inr ⟨huid.symm, hid.symm, hknown⟩

theorem delivered_addOfflineMessage
    (hdelivered : (Prog.run exec db (MySQLMessageRepo.addOfflineMessage uid
      msgId)).1.Delivered other id) : db.Delivered other id := by
  rcases @addOfflineMessage_cases db uid msgId with hsame | ⟨-, hadded⟩
  · rwa [hsame] at hdelivered
  · rw [hadded] at hdelivered
    obtain ⟨entry, hentry, huid, hid, hmarked⟩ := hdelivered
    rcases List.mem_append.mp hentry with hmem | hmem
    · exact ⟨entry, hmem, huid, hid, hmarked⟩
    · rw [List.mem_singleton] at hmem
      subst hmem
      exact (hmarked rfl).elim

end Added

end Database

/-! ## What is marked has been pushed -/

namespace OfflineSystem

/-- A login of the user had the message in its list and sent it while its
connection was up. -/
def Reached (pushed : List PushedLogin) (uid : String) (msgId : Int) :
    Prop :=
  ∃ push ∈ pushed, push.uid = uid ∧ push.connected = true ∧
    ∃ info ∈ push.messages, info.msgId = msgId ∧
      ∃ now, .sent push.conn (ServerReplies.offlineChat info now) ∈
        push.events

/-- Every row that is marked as delivered belongs to a message that was
pushed to its user. -/
def DeliveredPushed (system : OfflineSystem) : Prop :=
  ∀ uid msgId, system.db.Delivered uid msgId →
    Reached system.pushed uid msgId

/-- A login of the user has read a list that is not marked yet. -/
def LoginUnderway (system : OfflineSystem) (uid : String) : Prop :=
  (∃ login ∈ system.fetched, login.uid = uid ∧ login.messages ≠ []) ∨
    ∃ queued ∈ system.server.queue,
      queued.task = .markMessagesDelivered uid

/-- A message that has not been pushed yet is queued only while no login of
its user is underway, and is sent only on a connection that is up.  Users who
log in are read by their whole names. -/
def Unhurried (system : OfflineSystem) : Action → Prop
  | .fetch _ uid _ => NulFree uid
  | .addOfflineMessage uid msgId =>
      Reached system.pushed uid msgId ∨ ¬ system.LoginUnderway uid
  | .push index _ =>
      ∀ login, system.fetched[index]? = some login →
        system.server.sessions.connected login.conn = true ∨
          ∀ info ∈ login.messages,
            Reached system.pushed login.uid info.msgId
  | _ => True

section Marked

variable {system next : OfflineSystem} {pushed : List PushedLogin}
  {uid : String} {msgId : Int}

theorem Reached.cons (hreached : Reached pushed uid msgId)
    (push : PushedLogin) : Reached (push :: pushed) uid msgId := by
  obtain ⟨old, hold, hrest⟩ := hreached
  exact ⟨old, List.mem_cons_of_mem push hold, hrest⟩

/-- The waiting rows of a user whose login is underway are in its list, or
were pushed before. -/
structure Covered (system : OfflineSystem) : Prop where
  succeeded : ∀ login ∈ system.fetched, login.result.success = true
  stored : ∀ uid msgId, system.db.Waiting uid msgId →
    (system.db.messages.get? msgId).isSome
  listed : ∀ login ∈ system.fetched, login.messages ≠ [] →
    ∀ msgId, system.db.Waiting login.uid msgId →
      (∃ info ∈ login.messages, info.msgId = msgId) ∨
        Reached system.pushed login.uid msgId
  marked : ∀ queued ∈ system.server.queue, ∀ uid,
    queued.task = .markMessagesDelivered uid →
      ∀ msgId, system.db.Waiting uid msgId →
        Reached system.pushed uid msgId
  delivered : system.DeliveredPushed

theorem start_covered (db : Database) : (start db).Covered where
  succeeded := by simp [start]
  stored := by
    rintro uid msgId ⟨entry, hentry, -⟩
    cases hentry
  listed := by simp [start]
  marked := by simp [start, ChatServer.initial]
  delivered := by
    rintro uid msgId ⟨entry, hentry, -⟩
    cases hentry

/-- Steps that queue nothing, read nothing and mark nothing. -/
theorem Covered.of_kept (hsystem : system.Covered)
    (hkept : system.db.QueueKept next.db)
    (hfetched : next.fetched = system.fetched)
    (hpushed : next.pushed = system.pushed)
    (hqueue : next.server.queue = system.server.queue) : next.Covered where
  succeeded := by
    rw [hfetched]
    exact hsystem.succeeded
  stored uid msgId hwaiting :=
    hkept.messages msgId (hsystem.stored uid msgId
      (hkept.waiting.mp hwaiting))
  listed := by
    rw [hfetched, hpushed]
    intro login hlogin hmessages msgId hwaiting
    exact hsystem.listed login hlogin hmessages msgId
      (hkept.waiting.mp hwaiting)
  marked := by
    rw [hqueue, hpushed]
    intro queued hqueued uid htask msgId hwaiting
    exact hsystem.marked queued hqueued uid htask msgId
      (hkept.waiting.mp hwaiting)
  delivered := by
    intro uid msgId hdelivered
    rw [hpushed]
    exact hsystem.delivered uid msgId (hkept.delivered.mp hdelivered)

theorem Covered.addOfflineMessage (hsystem : system.Covered)
    (hok : Unhurried system (.addOfflineMessage uid msgId)) :
    ({ system with
      db := (Prog.run Database.exec system.db
        (MySQLMessageRepo.addOfflineMessage uid msgId)).1 } :
      OfflineSystem).Covered where
  succeeded := hsystem.succeeded
  stored other id hwaiting := by
    have hsame : (Prog.run Database.exec system.db
        (MySQLMessageRepo.addOfflineMessage uid msgId)).1.messages =
          system.db.messages := by
      rcases Database.addOfflineMessage_cases with heq | ⟨-, heq⟩ <;> rw [heq]
    show ((Prog.run Database.exec system.db
      (MySQLMessageRepo.addOfflineMessage uid msgId)).1.messages.get?
        id).isSome
    rw [hsame]
    rcases Database.waiting_addOfflineMessage hwaiting with
      hold | ⟨-, rfl, hknown⟩
    · exact hsystem.stored other id hold
    · exact hknown
  listed login hlogin hmessages id hwaiting := by
    rcases Database.waiting_addOfflineMessage hwaiting with
      hold | ⟨hsame, rfl, -⟩
    · exact hsystem.listed login hlogin hmessages id hold
    · rcases hok with hreached | hfree
      · rw [hsame]
        exact .inr hreached
      · exact (hfree (.inl ⟨login, hlogin, hsame, hmessages⟩)).elim
  marked queued hqueued other htask id hwaiting := by
    rcases Database.waiting_addOfflineMessage hwaiting with
      hold | ⟨rfl, rfl, -⟩
    · exact hsystem.marked queued hqueued other htask id hold
    · rcases hok with hreached | hfree
      · exact hreached
      · exact (hfree (.inr ⟨queued, hqueued, htask⟩)).elim
  delivered other id hdelivered :=
    hsystem.delivered other id
      (Database.delivered_addOfflineMessage hdelivered)

/-- A list that has just been read holds every waiting row. -/
theorem Covered.fetch (hsystem : system.Covered) (conn : Conn)
    (result : LoginResult)
    (hok : Unhurried system (.fetch conn uid result)) :
    ({ system with
      fetched := system.fetched ++ [system.fetchLogin conn uid result] } :
      OfflineSystem).Covered where
  succeeded login hlogin := by
    rcases List.mem_append.mp hlogin with hold | hnew
    · exact hsystem.succeeded login hold
    · rw [List.mem_singleton] at hnew
      rw [hnew]
      rfl
  stored := hsystem.stored
  listed login hlogin hmessages msgId hwaiting := by
    rcases List.mem_append.mp hlogin with hold | hnew
    · exact hsystem.listed login hold hmessages msgId hwaiting
    · rw [List.mem_singleton] at hnew
      subst hnew
      have huid : (system.fetchLogin conn uid result).uid = uid :=
        NulFree.cstr hok
      rw [huid] at hwaiting
      obtain ⟨row, hrow⟩ :=
        Option.isSome_iff_exists.mp (hsystem.stored _ msgId hwaiting)
      exact .inl ⟨(system.db.messageInfo msgId row).ofRow,
        Database.mem_getUndeliveredMessages.mpr ⟨row, hwaiting, hrow, rfl⟩,
        rfl⟩
  marked := hsystem.marked
  delivered := hsystem.delivered

theorem pushLogin_eq {login : FetchedLogin} {now : Nat}
    (hsuccess : login.result.success = true) :
    system.pushLogin login now =
      system.server.loginDone system.server.requests login.conn login.result
        login.result.token now := by
  unfold pushLogin ChatServer.runCallback
  exact if_pos hsuccess

theorem Covered.push (hsystem : system.Covered) {index now : Nat}
    {login : FetchedLogin} (hlogin : system.fetched[index]? = some login)
    (hok : Unhurried system (.push index now)) :
    (system.afterPush index login now).Covered := by
  have hmem : login ∈ system.fetched := List.mem_of_getElem? hlogin
  have hdone := @pushLogin_eq system login now (hsystem.succeeded login hmem)
  have hlisted (info : MessageInfo) (hinfo : info ∈ login.messages) :
      Reached (system.afterPush index login now).pushed login.uid
        info.msgId := by
    rcases hok login hlogin with hconnected | hreached
    · refine ⟨_, List.mem_cons_self, rfl, hconnected, info, hinfo, rfl, now,
        ?_⟩
      rw [hdone]
      exact ChatServer.sent_loginDone hinfo
    · exact (hreached info hinfo).cons _
  have hqueue : (system.afterPush index login now).server.queue =
      system.server.queue ++
        if login.messages = [] then []
        else [⟨system.server.requests, .markMessagesDelivered login.uid⟩] := by
    rw [afterPush, hdone]
    exact ChatServer.queue_loginDone system.server system.server.requests
      login.conn login.result login.result.token now
  refine ⟨?_, hsystem.stored, ?_, ?_, ?_⟩
  · intro other hother
    exact hsystem.succeeded other (List.mem_of_mem_eraseIdx hother)
  · intro other hother hmessages msgId hwaiting
    rcases hsystem.listed other (List.mem_of_mem_eraseIdx hother) hmessages
      msgId hwaiting with hlist | hreached
    · exact .inl hlist
    · exact .inr (hreached.cons _)
  · intro queued hqueued uid htask msgId hwaiting
    rw [hqueue] at hqueued
    rcases List.mem_append.mp hqueued with hold | hnew
    · exact (hsystem.marked queued hold uid htask msgId hwaiting).cons _
    · split at hnew
      · cases hnew
      · rename_i hmessages
        rw [List.mem_singleton] at hnew
        subst hnew
        cases htask
        rcases hsystem.listed login hmem hmessages msgId hwaiting with
          ⟨info, hinfo, rfl⟩ | hreached
        · exact hlisted info hinfo
        · exact hreached.cons _
  · intro uid msgId hdelivered
    exact (hsystem.delivered uid msgId hdelivered).cons _

theorem Covered.mark (hsystem : system.Covered) {index : Nat}
    (hnext : system.markDelivered index = some next) : next.Covered := by
  unfold markDelivered at hnext
  split at hnext
  · rename_i request uid hqueued
    cases hnext
    have hmem := List.mem_of_getElem? hqueued
    refine ⟨hsystem.succeeded, ?_, ?_, ?_, ?_⟩
    · intro other msgId hwaiting
      exact hsystem.stored other msgId
        (Database.waiting_markMessagesDelivered hwaiting)
    · intro login hlogin hmessages msgId hwaiting
      exact hsystem.listed login hlogin hmessages msgId
        (Database.waiting_markMessagesDelivered hwaiting)
    · intro queued hother other htask msgId hwaiting
      exact hsystem.marked queued (List.mem_of_mem_eraseIdx hother) other
        htask msgId (Database.waiting_markMessagesDelivered hwaiting)
    · intro other msgId hdelivered
      rcases Database.delivered_markMessagesDelivered hdelivered with
        hold | ⟨rfl, hwaiting⟩
      · exact hsystem.delivered other msgId hold
      · exact hsystem.marked _ hmem other rfl msgId hwaiting
  · cases hnext

theorem Covered.step {action : Action} (hsystem : system.Covered)
    (hok : Unhurried system action)
    (hstep : step system action = some next) : next.Covered := by
  cases action with
  | storeMessage sender recipient room content =>
      cases hstep
      exact hsystem.of_kept
        (Database.queueKept_storeMessage sender recipient room content)
        rfl rfl rfl
  | addOfflineMessage uid msgId =>
      cases hstep
      exact hsystem.addOfflineMessage hok
  | recallMessage msgId uid recipient room answers =>
      cases hstep
      exact hsystem.of_kept
        (Database.queueKept_recall uid recipient room answers) rfl rfl rfl
  | fetch conn uid result =>
      cases hstep
      exact hsystem.fetch conn result hok
  | push index now =>
      obtain ⟨login, hlogin, rfl⟩ := Option.map_eq_some_iff.mp hstep
      exact hsystem.push hlogin hok
  | mark index => exact hsystem.mark hstep
  | close conn =>
      simp only [OfflineSystem.step] at hstep
      split at hstep
      · cases hstep
        exact hsystem.of_kept (.refl system.db) rfl rfl rfl
      · cases hstep
  | tick clock =>
      cases hstep
      exact hsystem.of_kept ⟨rfl, fun _ hsome => hsome⟩ rfl rfl rfl

def aliceAndBob : Database where
  users := (KeyedTable.empty.insertIgnore
    { uid := "alice" }).insertIgnore { uid := "bob" }

def bobsLogin : LoginResult where
  userInfo := { uid := "bob" }

def helloQueued : List Action :=
  [.storeMessage "alice" "bob" "" "hello", .addOfflineMessage "bob" 1]

def againQueued : List Action :=
  [.storeMessage "alice" "bob" "" "hello again", .addOfflineMessage "bob" 2]

def bobPushed : List Action := [.push 0 0, .mark 0]

def unhurriedMoves : List Action :=
  helloQueued ++ againQueued ++ [.fetch 0 "bob" bobsLogin] ++ bobPushed

/-- The second message is queued after the login has read its list. -/
def lateMoves : List Action :=
  helloQueued ++ [.fetch 0 "bob" bobsLogin] ++ againQueued ++ bobPushed

/-- The connection closes after the login has read its list. -/
def closedMoves : List Action :=
  helloQueued ++ [.fetch 0 "bob" bobsLogin, .close 0] ++ bobPushed

end Marked

/-! ## What is recalled is not pushed -/

/-- A login that reads its list after a recall sends nothing with the content
of the recalled message, unless it says that the message is recalled. -/
def RecalledSilent (system : OfflineSystem) : Prop :=
  ∀ push ∈ system.pushed, ∀ info ∈ push.messages,
    info.msgId ∈ push.recalled →
      ∀ msg, .sent push.conn (.chatMsg msg) ∈ push.events →
        msg.msgId = ServerReplies.wireId info.msgId →
          msg.content = info.content → msg.recalled = true

/-- A login reads its list only while no recalled message waits in it. -/
def NoneRecalledWaits (system : OfflineSystem) : Action → Prop
  | .fetch _ uid _ =>
      ∀ msgId, system.db.Waiting uid msgId → msgId ∉ system.recalled
  | _ => True

section Recalled

variable {system next : OfflineSystem}

/-- No list holds a message that had been recalled when the list was read. -/
structure ListsClear (system : OfflineSystem) : Prop where
  fetched : ∀ login ∈ system.fetched, ∀ info ∈ login.messages,
    info.msgId ∉ login.recalled
  pushed : ∀ push ∈ system.pushed, ∀ info ∈ push.messages,
    info.msgId ∉ push.recalled

theorem ListsClear.fetch (hsystem : system.ListsClear) {conn : Conn}
    {uid : String} {result : LoginResult}
    (hok : NoneRecalledWaits system (.fetch conn uid result)) :
    ({ system with
      fetched := system.fetched ++ [system.fetchLogin conn uid result] } :
      OfflineSystem).ListsClear where
  fetched login hlogin info hinfo := by
    rcases List.mem_append.mp hlogin with hold | hnew
    · exact hsystem.fetched login hold info hinfo
    · rw [List.mem_singleton] at hnew
      subst hnew
      obtain ⟨row, hwaiting, -, -⟩ :=
        Database.mem_getUndeliveredMessages.mp hinfo
      exact hok info.msgId hwaiting
  pushed := hsystem.pushed

theorem ListsClear.push (hsystem : system.ListsClear) {index : Nat}
    {login : FetchedLogin} (now : Nat)
    (hlogin : system.fetched[index]? = some login) :
    (system.afterPush index login now).ListsClear where
  fetched other hother :=
    hsystem.fetched other (List.mem_of_mem_eraseIdx hother)
  pushed push hpush := by
    rcases List.mem_cons.mp hpush with rfl | hold
    · exact hsystem.fetched login (List.mem_of_getElem? hlogin)
    · exact hsystem.pushed push hold

theorem ListsClear.step {action : Action} (hsystem : system.ListsClear)
    (hok : NoneRecalledWaits system action)
    (hstep : step system action = some next) : next.ListsClear := by
  cases action with
  | fetch conn uid result =>
      cases hstep
      exact hsystem.fetch hok
  | push index now =>
      obtain ⟨login, hlogin, rfl⟩ := Option.map_eq_some_iff.mp hstep
      exact hsystem.push now hlogin
  | mark index =>
      change system.markDelivered index = some next at hstep
      unfold markDelivered at hstep
      split at hstep
      · cases hstep
        exact ⟨hsystem.fetched, hsystem.pushed⟩
      · cases hstep
  | close conn =>
      simp only [OfflineSystem.step] at hstep
      split at hstep
      · cases hstep
        exact ⟨hsystem.fetched, hsystem.pushed⟩
      · cases hstep
  | storeMessage | addOfflineMessage | recallMessage | tick =>
      cases hstep
      exact ⟨hsystem.fetched, hsystem.pushed⟩

/-- In every run whose logins read their lists while no recalled message
waits there, no recalled content is pushed. -/
theorem recalled_silent_of_noneWaits (db : Database) (actions : List Action)
    (hok : Runs.EachStep step NoneRecalledWaits (start db) actions) :
    Runs.Always step RecalledSilent (start db) actions := by
  have hclear : Runs.Always step ListsClear (start db) actions :=
    Runs.always_of_eachStep ⟨by simp [start], by simp [start]⟩
      (fun _ _ _ hstep hsystem hallowed => hsystem.step hallowed hstep) hok
  intro before state hinit hrun push hpush info hinfo hrecalled
  exact ((hclear before state hinit hrun).pushed push hpush info hinfo
    hrecalled).elim

/-! ### A recalled message -/

/-- The clock stands at the time of the message. -/
def atOnce : (call : RepositoryCall) → call.Answer
  | .time | .mktime _ | .storeMessage .. | .createRoom .. => (0 : Int)
  | .getUserInfo _ | .getSessionByToken _ | .getMessage _
  | .getRoomByName _ => none
  | .getFriendList _ | .getPendingRequests _
  | .getUndeliveredMessages _ => []
  | .generateToken => ""
  | .registerUser .. | .verifyUser .. | .userExists _ | .createSession ..
  | .revokeSession _ | .revokeAllSessions _ | .updateSessionNode ..
  | .addFriendRequest .. | .respondFriendRequest .. | .removeFriends ..
  | .recallMessage .. | .addOfflineMessage .. | .markMessagesDelivered _
  | .roomExists _ | .addRoomMember .. => false

def helloRecalled : List Action :=
  [.recallMessage 1 "alice" "bob" "" atOnce]

/-- Bob's login pushes the message and marks it before it is recalled. -/
def recalledOnceMarked : List Action :=
  helloQueued ++ [.fetch 0 "bob" bobsLogin] ++ bobPushed ++ helloRecalled ++
    [.fetch 1 "bob" bobsLogin, .push 0 0]

theorem recalled_silent_recalledOnceMarked :
    ∃ system, Runs.runFrom step (start aliceAndBob) recalledOnceMarked =
        some system ∧ system.recalled = [1] ∧ system.RecalledSilent := by
  have hok : Runs.EachStep step NoneRecalledWaits (start aliceAndBob)
      recalledOnceMarked := by
    have hnone {system : OfflineSystem} (hrecalled : system.recalled = []) :
        NoneRecalledWaits system (.fetch 0 "bob" bobsLogin) := by
      intro msgId _
      rw [hrecalled]
      exact List.not_mem_nil
    have hmarked {system : OfflineSystem} (hentries :
        system.db.offlineMessages.entries = [(1, ⟨"bob", 1, 1⟩)]) :
        NoneRecalledWaits system (.fetch 1 "bob" bobsLogin) := by
      rintro msgId ⟨entry, hentry, -, -, hwaiting⟩
      rw [hentries, List.mem_singleton] at hentry
      rw [hentry] at hwaiting
      cases hwaiting
    repeat
      refine Runs.EachStep.cons rfl
        (by first | exact trivial | exact hnone rfl | exact hmarked rfl) ?_
    exact Runs.eachStep_nil
  have hrun : ∃ system, Runs.runFrom step (start aliceAndBob)
      recalledOnceMarked = some system ∧ system.recalled = [1] :=
    ⟨_, rfl, rfl⟩
  obtain ⟨system, hrun, hrecalled⟩ := hrun
  exact ⟨system, hrun, hrecalled, recalled_silent_of_noneWaits _ _ hok _ _
    (List.prefix_refl _) hrun⟩

/-- The message is recalled while it waits for Bob. -/
def recalledWhileWaiting : List Action :=
  helloQueued ++ helloRecalled ++ [.fetch 0 "bob" bobsLogin, .push 0 0]

theorem recalled_silent_fails_recalledWhileWaiting :
    ¬ Runs.Always step RecalledSilent (start aliceAndBob)
      recalledWhileWaiting := by
  have hrun : ∃ system, Runs.runFrom step (start aliceAndBob)
      recalledWhileWaiting = some system ∧
        ∃ push ∈ system.pushed, ∃ info ∈ push.messages,
          info.msgId ∈ push.recalled ∧
            .sent push.conn (ServerReplies.offlineChat info 0) ∈
              push.events := by
    refine ⟨_, rfl, _, List.mem_singleton_self _, _,
      List.mem_singleton_self _, List.mem_singleton_self _, ?_⟩
    exact ChatServer.sent_loginDone (List.mem_singleton_self _)
  obtain ⟨system, hrun, push, hpush, info, hinfo, hrecalled, hsent⟩ := hrun
  intro halways
  have hflag := halways _ system (List.prefix_refl _) hrun push hpush info
    hinfo hrecalled _ hsent rfl rfl
  cases hflag

end Recalled

end OfflineSystem

end MuduoChat
