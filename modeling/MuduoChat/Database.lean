import MuduoChat.CallPrograms
import MuduoChat.ChatProtocol
import MuduoChat.KeyedTables
import Mathlib.Data.List.Dedup

/-!
# The MySQL database

The tables of `db.cc`, the statements the repositories send, and what each
statement does when it does not fail for want of a server: keys and foreign
keys are enforced, and every statement is committed by itself.  Strings are
compared exactly, except in `sessions`, where any collation may be in force.
Columns that no modelled statement reads back are left out.

A repository method is a program over these statements.  Taking a connection
from the pool, giving it back and closing it are calls of the program too.
-/

namespace MuduoChat

/-! ## Rows -/

structure FriendshipRow where
  requesterUid : String
  targetUid : String
  status : Nat
  deriving DecidableEq

def FriendshipRow.pair (row : FriendshipRow) : String × String :=
  (row.requesterUid, row.targetUid)

theorem FriendshipRow.pair_withStatus (status : Nat) (row : FriendshipRow) :
    FriendshipRow.pair { row with status := status } = row.pair := rfl

structure RoomRow where
  name : String
  creatorUid : String
  type : Int := 0
  deriving DecidableEq

structure MessageRow where
  seq : Int
  roomId : Option Int
  fromUid : String
  toUid : Option String
  content : String
  recalled : Int := 0
  recallTime : Option String := none
  createdAt : String
  deriving DecidableEq

structure OfflineRow where
  targetUid : String
  msgId : Int
  delivered : Nat := 0
  deriving DecidableEq

structure RoomMemberRow where
  roomId : Int
  uid : String
  role : Int
  deriving DecidableEq

def RoomMemberRow.pair (row : RoomMemberRow) : Int × String :=
  (row.roomId, row.uid)

structure SessionRow where
  uid : String
  token : String
  nodeId : String
  expiredAt : Int
  revoked : Nat := 0
  deriving DecidableEq

structure CredentialRow where
  uid : String
  passwd : String
  deriving DecidableEq

/-- Which strings a column takes for the same. -/
structure Collation where
  same : String → String → Bool
  equivalence : Equivalence fun first second => same first second = true

def Collation.binary : Collation where
  same first second := decide (first = second)
  equivalence := by simpa using eq_equivalence

structure Database where
  users : KeyedTable UserInfo.uid := KeyedTable.empty
  friendships : KeyedTable FriendshipRow.pair := KeyedTable.empty
  rooms : AutoTable RoomRow := AutoTable.empty
  messages : AutoTable MessageRow := AutoTable.empty
  offlineMessages : AutoTable OfflineRow := AutoTable.empty
  roomMembers : KeyedTable RoomMemberRow.pair := KeyedTable.empty
  sessions : KeyedTable SessionRow.token := KeyedTable.empty
  /-- The collation of the columns of `sessions`. -/
  collation : Collation := .binary
  /-- The column `users.passwd`. -/
  credentials : KeyedTable CredentialRow.uid := KeyedTable.empty
  /-- The server's function `SHA2(·, 256)`. -/
  sha2 : String → String := id
  /-- The time as the server's `NOW()` renders it. -/
  clock : String := ""
  /-- The same time in seconds. -/
  now : Int := 0

/-! ## Statements -/

inductive Statement where
  | insertIgnoreFriendship (requester target : String) (status : Nat)
  | updateFriendshipStatus (status : Nat) (requester target : String)
  | deleteFriendships (uid₁ uid₂ : String)
  | selectFriends (uid : String)
  | selectPendingRequesters (uid : String)
  | selectRoomId (name : String)
  | selectNextSeq (roomId : Int)
  | insertMessage (seq : Int) (roomId : Option Int) (fromUid : String)
      (toUid : Option String) (content : String)
  | selectMessage (msgId : Int)
  | updateRecalled (msgId : Int) (uid : String)
  | insertOfflineMessage (targetUid : String) (msgId : Int)
  | selectUndelivered (uid : String)
  | updateDelivered (uid : String)
  | selectUid (uid : String)
  | insertUser (uid nickname email passwd : String)
  | selectVerified (uid passwd : String)
  | selectUser (uid : String)
  | updateLastLogin (uid : String)
  | insertRoom (name creator : String)
  | selectRoomByName (name : String)
  | selectRoomById (roomId : Int)
  | insertIgnoreRoomMember (roomId : Int) (uid : String) (role : Int)
  | deleteRoomMember (roomId : Int) (uid : String)
  | selectRoomMembers (roomId : Int)
  | selectUserRooms (uid : String)
  | insertSession (uid token nodeId : String) (ttlSeconds : Int)
  | selectSession (token : String)
  | updateRevokedByToken (token : String)
  | updateRevokedByUid (uid : String)
  | updateSessionNode (token nodeId : String)
  deriving DecidableEq

/-- What the client library makes available after a successful query: the
rows of the result, `mysql_insert_id`, or `mysql_affected_rows`.  The
repositories treat a missing result set as a failed query; only for
`selectUid` does one of them tell the two apart, so that its result may be
missing. -/
abbrev Statement.Result : Statement → Type
  | insertIgnoreFriendship .. | updateFriendshipStatus ..
  | deleteFriendships .. | insertOfflineMessage .. | updateDelivered _
  | insertUser .. | updateLastLogin _ | insertIgnoreRoomMember ..
  | deleteRoomMember .. | insertSession .. | updateRevokedByToken _
  | updateRevokedByUid _ | updateSessionNode .. => Unit
  | selectUid _ => Option (List String)
  | selectVerified .. | selectRoomMembers _ => List String
  | selectUser _ => Option UserInfo
  | insertRoom .. => Int
  | selectRoomByName _ | selectRoomById _ => Option RoomInfo
  | selectUserRooms _ => List RoomInfo
  | selectSession _ => Option SessionInfo
  | selectFriends _ => List UserInfo
  | selectPendingRequesters _ => List String
  | selectRoomId _ => List Int
  | selectNextSeq _ | insertMessage .. => Int
  | selectMessage _ => Option MessageInfo
  | updateRecalled .. => Nat
  | selectUndelivered _ => List MessageInfo

inductive DbCall where
  | getConnection
  | query (statement : Statement)
  | returnConnection
  | closeConnection
  deriving DecidableEq

/-- `getConnection` may give a null pointer and a query may fail. -/
abbrev DbCall.Answer : DbCall → Type
  | getConnection => Bool
  | query statement => Option statement.Result
  | returnConnection | closeConnection => Unit

abbrev DbProg := Prog DbCall DbCall.Answer

abbrev mysqlQuery (statement : Statement) :
    DbProg (Option statement.Result) :=
  Prog.request (DbCall.query statement)

/-! ## Execution -/

namespace Database

def Registered (db : Database) (uid : String) : Prop :=
  db.users.HasKey uid

instance (db : Database) (uid : String) : Decidable (db.Registered uid) :=
  inferInstanceAs (Decidable (db.users.HasKey uid))

/-- The friends found from one side of the table: the users at the other end
of the accepted rows that start at `uid`. -/
def acceptedFrom (db : Database) (near far : FriendshipRow → String)
    (uid : String) : List UserInfo :=
  db.users.rows.filter fun user =>
    db.friendships.rows.any fun row =>
      near row = uid && far row = user.uid && row.status = 1

def selectFriends (db : Database) (uid : String) : List UserInfo :=
  (db.acceptedFrom FriendshipRow.requesterUid FriendshipRow.targetUid uid ++
    db.acceptedFrom FriendshipRow.targetUid FriendshipRow.requesterUid
      uid).dedup

/-- The `seq` column of the rows of one room, in the order of insertion. -/
def roomSeqs (db : Database) (roomId : Int) : List Int :=
  (db.messages.entries.filter fun entry =>
    entry.2.roomId = some roomId).map fun entry => entry.2.seq

def roomName (db : Database) : Option Int → String
  | none => ""
  | some roomId => ((db.rooms.get? roomId).map RoomRow.name).getD ""

def messageInfo (db : Database) (msgId : Int) (row : MessageRow) :
    MessageInfo :=
  { msgId := msgId
    seq := row.seq
    fromUid := row.fromUid
    toUid := row.toUid.getD ""
    roomName := db.roomName row.roomId
    content := row.content
    recalled := row.recalled
    createdAt := row.createdAt }

def roomInfo (entry : Int × RoomRow) : RoomInfo :=
  { roomId := entry.1
    name := entry.2.name
    creatorUid := entry.2.creatorUid
    type := entry.2.type }

/-- The foreign key of `sessions.uid` finds a user. -/
def hasUser (db : Database) (uid : String) : Bool :=
  db.users.rows.any fun user => db.collation.same user.uid uid

/-- `token = '…'`. -/
def tokenIs (db : Database) (token : String) (row : SessionRow) : Bool :=
  db.collation.same row.token token

/-- `revoked = 0 AND expired_at > NOW()`. -/
def Valid (db : Database) (row : SessionRow) : Prop :=
  row.revoked = 0 ∧ db.now < row.expiredAt

instance (db : Database) (row : SessionRow) : Decidable (db.Valid row) :=
  inferInstanceAs (Decidable (_ ∧ _))

def execStatement (db : Database) :
    (statement : Statement) → Database × Option statement.Result
  | .insertIgnoreFriendship requester target status =>
      (if db.Registered requester ∧ db.Registered target then
        { db with
          friendships := db.friendships.insertIgnore
            ⟨requester, target, status⟩ }
      else db, some ())
  | .updateFriendshipStatus status requester target =>
      ({ db with
        friendships := db.friendships.update
          (fun row =>
            row.requesterUid = requester && row.targetUid = target)
          (fun row => { row with status := status })
          (FriendshipRow.pair_withStatus status) },
        some ())
  | .deleteFriendships uid₁ uid₂ =>
      ({ db with
        friendships := db.friendships.delete fun row =>
          (row.requesterUid = uid₁ && row.targetUid = uid₂) ||
            (row.requesterUid = uid₂ && row.targetUid = uid₁) },
        some ())
  | .selectFriends uid => (db, some (db.selectFriends uid))
  | .selectPendingRequesters uid =>
      (db, some ((db.friendships.rows.filter fun row =>
        row.targetUid = uid && row.status = 0).map
          FriendshipRow.requesterUid))
  | .selectRoomId name =>
      (db, some ((db.rooms.entries.filter fun entry =>
        entry.2.name = name).map Prod.fst))
  | .selectNextSeq roomId =>
      (db, some ((db.roomSeqs roomId).max?.getD 0 + 1))
  | .insertMessage seq roomId fromUid toUid content =>
      if db.Registered fromUid then
        ({ db with
          messages := db.messages.insert
            { seq := seq
              roomId := roomId
              fromUid := fromUid
              toUid := toUid
              content := content
              createdAt := db.clock } }, some db.messages.next)
      else (db, none)
  | .selectMessage msgId =>
      (db, some ((db.messages.get? msgId).map (db.messageInfo msgId)))
  | .updateRecalled msgId uid =>
      let selected := fun id (row : MessageRow) =>
        decide (id = msgId) && decide (row.fromUid = uid)
      let change := fun (row : MessageRow) =>
        { row with recalled := 1, recallTime := some db.clock }
      ({ db with messages := db.messages.update selected change },
        some (db.messages.entries.countP fun entry =>
          selected entry.1 entry.2 && decide (change entry.2 ≠ entry.2)))
  | .insertOfflineMessage targetUid msgId =>
      if db.Registered targetUid ∧ (db.messages.get? msgId).isSome then
        ({ db with
          offlineMessages := db.offlineMessages.insert
            { targetUid := targetUid, msgId := msgId } }, some ())
      else (db, none)
  | .selectUndelivered uid =>
      (db, some ((db.offlineMessages.entries.filter fun entry =>
        entry.2.targetUid = uid && entry.2.delivered = 0).filterMap
          fun entry => (db.messages.get? entry.2.msgId).map
            (db.messageInfo entry.2.msgId)))
  | .updateDelivered uid =>
      ({ db with
        offlineMessages := db.offlineMessages.update
          (fun _ row => row.targetUid = uid && row.delivered = 0)
          fun row => { row with delivered := 1 } }, some ())
  | .selectUid uid =>
      (db, some (some ((db.users.rows.filter fun user =>
        user.uid = uid).map UserInfo.uid)))
  | .insertUser uid nickname email passwd =>
      if db.Registered uid then (db, none)
      else
        ({ db with
          users := db.users.insertIgnore
            { uid := uid, nickname := nickname, email := email }
          credentials := db.credentials.insertIgnore
            ⟨uid, db.sha2 passwd⟩ }, some ())
  | .selectVerified uid passwd =>
      (db, some ((db.credentials.rows.filter fun row =>
        row.uid = uid && row.passwd = db.sha2 passwd).map
          CredentialRow.uid))
  | .selectUser uid =>
      (db, some (db.users.rows.find? fun user => user.uid = uid))
  | .updateLastLogin _ => (db, some ())
  | .insertRoom name creator =>
      if db.Registered creator ∧
          db.rooms.entries.all (fun entry => entry.2.name ≠ name) then
        ({ db with
          rooms := db.rooms.insert { name := name, creatorUid := creator } },
          some db.rooms.next)
      else (db, none)
  | .selectRoomByName name =>
      (db, some ((db.rooms.entries.find? fun entry =>
        entry.2.name = name).map roomInfo))
  | .selectRoomById roomId =>
      (db, some ((db.rooms.entries.find? fun entry =>
        entry.1 = roomId).map roomInfo))
  | .insertIgnoreRoomMember roomId uid role =>
      (if (db.rooms.get? roomId).isSome ∧ db.Registered uid then
        { db with
          roomMembers := db.roomMembers.insertIgnore ⟨roomId, uid, role⟩ }
      else db, some ())
  | .deleteRoomMember roomId uid =>
      ({ db with
        roomMembers := db.roomMembers.delete fun row =>
          row.roomId = roomId && row.uid = uid }, some ())
  | .selectRoomMembers roomId =>
      (db, some ((db.roomMembers.rows.filter fun row =>
        row.roomId = roomId).map RoomMemberRow.uid))
  | .selectUserRooms uid =>
      (db, some ((db.rooms.entries.filter fun entry =>
        db.roomMembers.HasKey (entry.1, uid)).map roomInfo))
  | .insertSession uid token nodeId ttlSeconds =>
      let expiredAt := db.now + ttlSeconds
      if db.sessions.rows.any (db.tokenIs token) then
        ({ db with
          sessions := db.sessions.update (db.tokenIs token)
            (fun row => { row with
              nodeId := nodeId, expiredAt := expiredAt, revoked := 0 })
            fun _ => rfl }, some ())
      else if db.hasUser uid then
        ({ db with
          sessions := db.sessions.insertIgnore
            { uid := uid
              token := token
              nodeId := nodeId
              expiredAt := expiredAt } }, some ())
      else (db, none)
  | .selectSession token =>
      (db, some ((db.sessions.rows.find? fun row =>
        db.tokenIs token row && decide (db.Valid row)).map fun row =>
          { uid := row.uid, token := row.token, nodeId := row.nodeId }))
  | .updateRevokedByToken token =>
      ({ db with
        sessions := db.sessions.update (db.tokenIs token)
          (fun row => { row with revoked := 1 }) fun _ => rfl }, some ())
  | .updateRevokedByUid uid =>
      ({ db with
        sessions := db.sessions.update
          (fun row => db.collation.same row.uid uid)
          (fun row => { row with revoked := 1 }) fun _ => rfl }, some ())
  | .updateSessionNode token nodeId =>
      ({ db with
        sessions := db.sessions.update (db.tokenIs token)
          (fun row => { row with nodeId := nodeId }) fun _ => rfl },
        some ())

/-- The database with a pool that always has a connection to give. -/
def exec (db : Database) : (call : DbCall) → Database × call.Answer
  | .getConnection => (db, true)
  | .query statement => db.execStatement statement
  | .returnConnection => (db, ())
  | .closeConnection => (db, ())

/-- A room is inserted when its name is free and its creator known. -/
theorem insertRoom_cases (db : Database) (name creator : String) :
    (db.Registered creator ∧
        ∀ entry ∈ db.rooms.entries, entry.2.name ≠ name) ∧
      db.execStatement (.insertRoom name creator) =
        ({ db with
          rooms := db.rooms.insert { name := name, creatorUid := creator } },
          some db.rooms.next) ∨
      db.execStatement (.insertRoom name creator) = (db, none) := by
  by_cases hallowed : db.Registered creator ∧
      db.rooms.entries.all (fun entry => entry.2.name ≠ name) = true
  · refine .inl ⟨⟨hallowed.1, ?_⟩, if_pos hallowed⟩
    intro entry hentry
    simpa using List.all_eq_true.mp hallowed.2 entry hentry
  · exact .inr (if_neg hallowed)

end Database

end MuduoChat
