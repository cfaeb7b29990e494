import MuduoChat.ChatNodes
import Mathlib.Data.Set.Insert

/-!
# Who hears of a recall

The service decides about a recall by the stored message alone.  Who is told
about it is decided by the two routing fields of the request, which nobody
compares with the message.
-/

namespace MuduoChat

namespace ChatServer

/-- The events between two states of a run, newest first. -/
def eventsSince (before after : ChatServer) : List Event :=
  after.history.take (after.history.length - before.history.length)

/-- The connections that were sent a `RecallNotify` in between. -/
def notified (before after : ChatServer) : Set Conn :=
  { conn | ∃ notify,
    .sent conn (.recallNotify notify) ∈ eventsSince before after }

/-- Where a private message to `recipient`, or else a message to `room`,
goes. -/
def audience (server : ChatServer) (recipient room : String) : Set Conn :=
  if recipient ≠ "" then
    { conn | server.sessions.getConnection recipient = some conn }
  else if room ≠ "" then
    { conn | ∃ member ∈ server.rooms.getRoomMembers room,
      server.sessions.getConnection member = some conn }
  else ∅

variable {server after : ChatServer} {conn other : Conn}

theorem eventsSince_of_append {events : List Event}
    (hhistory : after.history = events ++ server.history) :
    eventsSince server after = events := by
  unfold eventsSince
  rw [hhistory, List.length_append, Nat.add_sub_cancel, List.take_left]

theorem sendAll_history (server : ChatServer) (outgoing : List Outgoing) :
    (server.sendAll outgoing).history =
      (outgoing.map fun out => Event.sent out.1 out.2).reverse ++
        server.history := by
  induction outgoing generalizing server with
  | nil => rfl
  | cons out rest ih =>
      have hfirst : server.sendAll (out :: rest) =
          (server.send out.1 out.2).sendAll rest := rfl
      rw [hfirst, ih, List.map_cons, List.reverse_cons, List.append_assoc]
      rfl

theorem history_echoed (server : ChatServer) (outgoing : List Outgoing)
    (conn : Conn) (echo : ServerMessage) :
    ((server.sendAll outgoing).send conn echo).history =
      (.sent conn echo ::
        (outgoing.map fun out => Event.sent out.1 out.2).reverse) ++
        server.history := by
  rw [List.cons_append, ← sendAll_history]
  rfl

theorem mem_toUser {uid : String} {msg : ServerMessage} {out : Outgoing} :
    out ∈ ServerReplies.toUser server.sessions uid msg ↔
      server.sessions.getConnection uid = some out.1 ∧ out.2 = msg := by
  unfold ServerReplies.toUser
  obtain ⟨target, sent⟩ := out
  cases hconn : server.sessions.getConnection uid with
  | none => simp
  | some found =>
      simp only [List.mem_singleton, Prod.mk.injEq, Option.some.injEq]
      rw [eq_comm (a := target)]

theorem mem_toMembers {members : OrderedSet String} {msg : ServerMessage}
    {out : Outgoing} :
    out ∈ ServerReplies.toMembers server.sessions members msg ↔
      (∃ member ∈ members,
        server.sessions.getConnection member = some out.1) ∧
          out.2 = msg := by
  unfold ServerReplies.toMembers
  simp only [List.mem_flatMap, mem_toUser]
  constructor
  · rintro ⟨member, hmember, hconn, hmsg⟩
    exact ⟨⟨member, hmember, hconn⟩, hmsg⟩
  · rintro ⟨⟨member, hmember, hconn⟩, hmsg⟩
    exact ⟨member, hmember, hconn, hmsg⟩

theorem notified_send {outgoing : List Outgoing} {echo : RecallNotify} :
    notified server
        ((server.sendAll outgoing).send conn (.recallNotify echo)) =
      insert conn
        { other | ∃ notify, (other, .recallNotify notify) ∈ outgoing } := by
  have hevents : eventsSince server
      ((server.sendAll outgoing).send conn (.recallNotify echo)) =
        .sent conn (.recallNotify echo) ::
          (outgoing.map fun out => Event.sent out.1 out.2).reverse :=
    eventsSince_of_append (history_echoed server outgoing conn _)
  ext other
  simp only [notified, hevents, Set.mem_ofPred_eq, Set.mem_insert_iff,
    List.mem_cons, Event.sent.injEq, ServerMessage.recallNotify.injEq,
    List.mem_reverse, List.mem_map]
  constructor
  · rintro ⟨notify, ⟨rfl, _⟩ | ⟨⟨target, msg⟩, hout, rfl, rfl⟩⟩
    · exact .inl rfl
    · exact .inr ⟨notify, hout⟩
  · rintro (rfl | ⟨notify, hout⟩)
    · exact ⟨echo, .inl ⟨rfl, rfl⟩⟩
    · exact ⟨notify, .inr ⟨_, hout, rfl, rfl⟩⟩

/-- The requester is told, and the audience of the request's own fields. -/
theorem notified_recallDone {uid recipient room : String} {msgId : Int}
    {result : RecallResult} (hsuccess : result.success = true) (now : Nat) :
    notified server (server.recallDone conn uid msgId recipient room result
      now) = insert conn (server.audience recipient room) := by
  unfold recallDone audience
  rw [hsuccess]
  simp only [Bool.not_true, Bool.false_eq_true, if_false]
  rw [notified_send]
  congr 1
  ext other
  by_cases hrecipient : recipient ≠ ""
  · simp only [if_pos hrecipient, mem_toUser, Set.mem_ofPred_eq]
    simp
  · by_cases hroom : room ≠ ""
    · simp only [if_neg hrecipient, if_pos hroom, mem_toMembers,
        Set.mem_ofPred_eq]
      simp
    · simp only [if_neg hrecipient, if_neg hroom]
      simp

end ChatServer

/-! ## The stored message and the request -/

/-- The service, run on these stores, recalls the message. -/
def RecallSucceeds (world : NodeWorld) (msgId : Int)
    (uid recipient room : String) (result : RecallResult) : Prop :=
  result.success = true ∧ ∃ log after,
    Prog.Reaches ((ChatService.recallMessage msgId uid recipient room
        ).translate answerRepository) log (.ret result) ∧
      Prog.track NodeWorld.effect world log = some after

/-- The request routes to where the message was routed to. -/
def NamesRouting (db : Database) (row : MessageRow)
    (recipient room : String) : Prop :=
  recipient = row.toUid.getD "" ∧
    (recipient = "" → room = db.roomName row.roomId)

/-- The connections a recall of the stored message is meant for. -/
def storedAudience (db : Database) (row : MessageRow) (server : ChatServer) :
    Set Conn :=
  server.audience (row.toUid.getD "") (db.roomName row.roomId)

section Audience

variable {db : Database} {row : MessageRow} {recipient room : String}

theorem NamesRouting.audience_eq (hnames : NamesRouting db row recipient room)
    (server : ChatServer) :
    server.audience recipient room = storedAudience db row server := by
  obtain ⟨rfl, hroom⟩ := hnames
  unfold storedAudience ChatServer.audience
  by_cases hprivate : row.toUid.getD "" ≠ ""
  · rw [if_pos hprivate, if_pos hprivate]
  · rw [hroom (not_not.mp hprivate)]

/-- A server with `uid` on connection 0 and one more user on connection 1,
who is alone in a room. -/
def twoUsers (uid who name : String) : ChatServer :=
  { sessions := (SessionManager.initial.authenticate 0 uid "").authenticate 1
      who ""
    rooms := ({} : RoomManager).createRoom name who }

theorem getConnection_twoUsers {uid who name : String} :
    (twoUsers uid who name).sessions.getConnection recipient = some 1 ↔
      recipient = who := by
  show Function.update (Function.update (fun _ => none) uid (some 0)) who
    (some 1) recipient = some 1 ↔ _
  by_cases hwho : recipient = who
  · simp [hwho]
  · rw [Function.update_of_ne hwho]
    by_cases huid : recipient = uid
    · subst huid
      simp [hwho]
    · simp [huid, hwho]

theorem mem_members_twoUsers {uid who name member : String} :
    member ∈ (twoUsers uid who name).rooms.getRoomMembers room ↔
      room = name ∧ member = who := by
  show member ∈ ((Function.update (fun _ => none) name
    (some (OrderedSet.empty.insert who)) room).getD ∅ : OrderedSet String) ↔ _
  by_cases hname : room = name
  · subst hname
    simp only [Function.update_self, Option.getD_some, true_and]
    rw [OrderedSet.mem_insert]
    exact or_iff_left List.not_mem_nil
  · rw [Function.update_of_ne hname]
    refine iff_of_false List.not_mem_nil ?_
    rintro ⟨hsame, _⟩
    exact hname hsame

theorem one_mem_audience {uid who name : String} :
    1 ∈ (twoUsers uid who name).audience recipient room ↔
      recipient ≠ "" ∧ recipient = who ∨
        recipient = "" ∧ room ≠ "" ∧ room = name := by
  unfold ChatServer.audience
  by_cases hrecipient : recipient = ""
  · by_cases hroom : room = ""
    · simp [hrecipient, hroom]
    · simp only [hrecipient, hroom, ne_eq, not_true_eq_false, if_false,
        not_false_eq_true, if_true, Set.mem_ofPred_eq, mem_members_twoUsers,
        getConnection_twoUsers, false_and, true_and, false_or]
      exact ⟨fun ⟨_, ⟨hname, _⟩, _⟩ => hname,
        fun hname => ⟨who, ⟨hname, rfl⟩, rfl⟩⟩
  · simp only [hrecipient, ne_eq, not_false_eq_true, if_true,
      Set.mem_ofPred_eq, getConnection_twoUsers, true_and, false_and,
      or_false]

/-- Fields that name another routing lead elsewhere on some server. -/
theorem exists_audience_ne (uid : String)
    (hnames : ¬ NamesRouting db row recipient room) :
    ∃ who name, ¬ ((1 : Conn) ∈ (twoUsers uid who name).audience recipient
        room ↔
      (1 : Conn) ∈ storedAudience db row (twoUsers uid who name)) := by
  unfold NamesRouting at hnames
  unfold storedAudience
  generalize row.toUid.getD "" = stored at hnames ⊢
  generalize db.roomName row.roomId = storedRoom at hnames ⊢
  simp only [one_mem_audience]
  by_cases hsame : recipient = stored
  · subst hsame
    have hrooms : recipient = "" ∧ room ≠ storedRoom := by
      by_contra hnone
      refine hnames ⟨rfl, fun hempty => ?_⟩
      by_contra hroom
      exact hnone ⟨hempty, hroom⟩
    obtain ⟨rfl, hroom⟩ := hrooms
    by_cases hempty : room = ""
    · subst hempty
      exact ⟨"", storedRoom, by simp [Ne.symm hroom]⟩
    · exact ⟨"", room, by simp [hempty, Ne.symm hroom]⟩
  · by_cases hempty : recipient = ""
    · subst hempty
      exact ⟨stored, "", by simp [Ne.symm hsame]⟩
    · exact ⟨recipient, "", by simp [hempty, Ne.symm hsame]⟩

/-- On a given server a recall reaches the audience of the stored message
when the request's fields lead there, and it does so on every server exactly
when they name the message's own routing. -/
theorem recall_audience_iff {world : NodeWorld} {msgId : Int}
    {uid : String} {result : RecallResult}
    (_hrow : world.db.messages.get? msgId = some row)
    (hrecalled : RecallSucceeds world msgId uid recipient room result) :
    (∀ (server : ChatServer) (conn : Conn) (now : Nat),
      ChatServer.notified server (server.recallDone conn uid msgId recipient
          room result now) =
        insert conn (storedAudience world.db row server) ↔
      insert conn (server.audience recipient room) =
        insert conn (storedAudience world.db row server)) ∧
    ((∀ (server : ChatServer) (conn : Conn) (now : Nat),
      ChatServer.notified server (server.recallDone conn uid msgId recipient
          room result now) =
        insert conn (storedAudience world.db row server)) ↔
      NamesRouting world.db row recipient room) := by
  have hnotified (server : ChatServer) (conn : Conn) (now : Nat) :=
    @ChatServer.notified_recallDone server conn uid recipient room msgId
      result hrecalled.1 now
  refine ⟨?_, ?_, ?_⟩
  · intro server conn now
    rw [hnotified]
  · intro hexact
    by_contra hnames
    obtain ⟨who, name, hdiffer⟩ := exists_audience_ne uid hnames
    apply hdiffer
    have hsame := hexact (twoUsers uid who name) 0 0
    rw [hnotified] at hsame
    have hone := Set.ext_iff.mp hsame 1
    simpa using hone
  · intro hnames server conn now
    rw [hnotified, hnames.audience_eq]

end Audience

/-! ## A private message -/

def helloToBob : MessageRow where
  seq := 1
  roomId := none
  fromUid := "alice"
  toUid := some "bob"
  content := "hello"
  createdAt := "2024-05-01 12:00:00"

def helloStored : NodeWorld where
  db := { messages := AutoTable.empty.insert helloToBob }

def helloInfo : MessageInfo where
  msgId := 1
  seq := 1
  fromUid := "alice"
  toUid := "bob"
  content := "hello"
  createdAt := "2024-05-01 12:00:00"

theorem recallSucceeds_hello (recipient room : String) :
    RecallSucceeds helloStored 1 "alice" recipient room
      { success := true } := by
  refine ⟨rfl, [⟨.sql .getConnection, true⟩,
    ⟨.sql (.query (.selectMessage 1)), ⟨true, some (some helloInfo)⟩⟩,
    ⟨.sql .returnConnection, ()⟩,
    ⟨.session (.repository .time), (0 : Int)⟩,
    ⟨.session (.repository (.mktime
      (ChatService.parseCreatedAt "2024-05-01 12:00:00"))), (0 : Int)⟩,
    ⟨.sql .getConnection, true⟩,
    ⟨.sql (.query (.updateRecalled 1 "alice")), ⟨true, some (1 : Nat)⟩⟩,
    ⟨.sql .returnConnection, ()⟩], _, ?_, rfl⟩
  repeat refine .step ?_
  exact .refl _

def threeUsers : ChatServer where
  sessions := ((SessionManager.initial.authenticate 0 "alice" "").authenticate
    1 "bob" "").authenticate 2 "eve" ""

theorem recall_audience_namedRouting :
    ChatServer.notified threeUsers (threeUsers.recallDone 0 "alice" 1 "bob" ""
        { success := true } 0) =
      insert 0 (storedAudience helloStored.db helloToBob threeUsers) :=
  (recall_audience_iff rfl (recallSucceeds_hello "bob" "")).2.mpr
    ⟨rfl, by simp⟩ threeUsers 0 0

/-- Alice recalls her message to Bob and names Eve: Eve hears of it and Bob
does not. -/
theorem recall_audience_fails_wrongRecipient :
    RecallSucceeds helloStored 1 "alice" "eve" "" { success := true } ∧
      ChatServer.notified threeUsers (threeUsers.recallDone 0 "alice" 1 "eve"
          "" { success := true } 0) ≠
        insert 0 (storedAudience helloStored.db helloToBob threeUsers) := by
  refine ⟨recallSucceeds_hello "eve" "", ?_⟩
  rw [ChatServer.notified_recallDone rfl]
  intro hsame
  have hbob := (Set.ext_iff.mp hsame 1).mpr (.inr (by
    show 1 ∈ threeUsers.audience "bob" ""
    simp only [ChatServer.audience, ne_eq, String.reduceEq,
      not_false_eq_true, if_true, Set.mem_ofPred_eq]
    rfl))
  rcases hbob with hzero | heve
  · cases hzero
  · have hconn : threeUsers.sessions.getConnection "eve" = some 1 := by
      simpa [ChatServer.audience] using heve
    cases hconn

end MuduoChat
