import MuduoChat.CStrings
import MuduoChat.Database

/-!
# The MySQL repositories

The five repositories as programs over the statements of `Database`, with
their error paths: no connection, a failed query, no row.

A column of a row is a pointer to its characters, and every method copies its
text columns as C strings.
-/

namespace MuduoChat

/-! ## Columns -/

def UserInfo.ofRow (row : UserInfo) : UserInfo where
  uid := cstr row.uid
  nickname := cstr row.nickname
  email := cstr row.email
  avatarUrl := cstr row.avatarUrl

def MessageInfo.ofRow (row : MessageInfo) : MessageInfo :=
  { row with
    fromUid := cstr row.fromUid
    toUid := cstr row.toUid
    roomName := cstr row.roomName
    content := cstr row.content
    createdAt := cstr row.createdAt }

def RoomInfo.ofRow (row : RoomInfo) : RoomInfo :=
  { row with
    name := cstr row.name
    creatorUid := cstr row.creatorUid }

def SessionInfo.ofRow (row : SessionInfo) : SessionInfo where
  uid := cstr row.uid
  token := cstr row.token
  nodeId := cstr row.nodeId

/-! ## Methods -/

/-- The frame of the repository methods, except `verifyUser`: without a
connection the method gives up, otherwise the connection is returned after the
work is done. -/
def withConnection {α : Type} (unavailable : α) (body : DbProg α) :
    DbProg α := do
  let conn ← Prog.request DbCall.getConnection
  if !conn then
    return unavailable
  else
    let value ← body
    let _ ← Prog.request DbCall.returnConnection
    return value

@[simp] theorem run_withConnection {α : Type} (db : Database)
    (unavailable : α) (body : DbProg α) :
    Prog.run Database.exec db (withConnection unavailable body) =
      Prog.run Database.exec db body := by
  simp [withConnection, Database.exec]

/-! ## MySQLFriendRepo -/

namespace MySQLFriendRepo

def addFriendRequest (sender target _message : String) : DbProg Bool :=
  withConnection false do
    let result ← mysqlQuery (.insertIgnoreFriendship sender target 0)
    return result.isSome

def respondFriendRequest (requester responder : String) (accepted : Bool) :
    DbProg Bool :=
  withConnection false do
    let status := if accepted then 1 else 2
    match ← mysqlQuery
      (.updateFriendshipStatus status requester responder) with
    | none => return false
    | some () =>
        if accepted then
          let _ ← mysqlQuery (.insertIgnoreFriendship responder requester 1)
          return true
        else
          return true

def removeFriends (uid₁ uid₂ : String) : DbProg Bool :=
  withConnection false do
    let result ← mysqlQuery (.deleteFriendships uid₁ uid₂)
    return result.isSome

def getFriendList (uid : String) : DbProg (List UserInfo) :=
  withConnection [] do
    let result ← mysqlQuery (.selectFriends uid)
    return (result.getD []).map UserInfo.ofRow

def getPendingRequests (uid : String) : DbProg (List String) :=
  withConnection [] do
    let result ← mysqlQuery (.selectPendingRequesters uid)
    return (result.getD []).map cstr

end MySQLFriendRepo

/-! ## MySQLMessageRepo -/

namespace MySQLMessageRepo

/-- The identifier of a named room; 0 when there is none. -/
def lookupRoom (room : String) : DbProg Int :=
  if room = "" then return 0
  else do
    let result ← mysqlQuery (.selectRoomId room)
    return (result.getD []).head?.getD 0

def nextSeq (roomId : Int) : DbProg Int :=
  if roomId > 0 then do
    let result ← mysqlQuery (.selectNextSeq roomId)
    return result.getD 1
  else return 1

def storeMessage (sender recipient room content : String) : DbProg Int :=
  withConnection 0 do
    let roomId ← lookupRoom room
    let seq ← nextSeq roomId
    let result ← mysqlQuery
      (.insertMessage seq (if roomId > 0 then some roomId else none) sender
        (if recipient = "" then none else some recipient) content)
    return result.getD 0

def getMessage (msgId : Int) : DbProg (Option MessageInfo) :=
  withConnection none do
    let result ← mysqlQuery (.selectMessage msgId)
    return (result.getD none).map MessageInfo.ofRow

def recallMessage (msgId : Int) (uid : String) : DbProg Bool :=
  withConnection false do
    match ← mysqlQuery (.updateRecalled msgId uid) with
    | none => return false
    | some affected => return decide (affected > 0)

def addOfflineMessage (targetUid : String) (msgId : Int) : DbProg Bool :=
  withConnection false do
    let result ← mysqlQuery (.insertOfflineMessage targetUid msgId)
    return result.isSome

def getUndeliveredMessages (uid : String) : DbProg (List MessageInfo) :=
  withConnection [] do
    let result ← mysqlQuery (.selectUndelivered uid)
    return (result.getD []).map MessageInfo.ofRow

def markMessagesDelivered (uid : String) : DbProg Bool :=
  withConnection false do
    let result ← mysqlQuery (.updateDelivered uid)
    return result.isSome

end MySQLMessageRepo

/-! ## MySQLUserRepo -/

namespace MySQLUserRepo

def registerUser (uid passwd nickname email : String) : DbProg Bool :=
  withConnection false do
    match ← mysqlQuery (.selectUid uid) with
    | none => return false
    | some result =>
        if !(result.getD []).isEmpty then
          return false
        else
          let nick := if nickname = "" then uid else nickname
          let inserted ← mysqlQuery (.insertUser uid nick email passwd)
          return inserted.isSome

/-- What `verifyUser` does after its loop. -/
def conclude (uid : String) (ok : Bool) : DbProg Bool := do
  if ok then
    let _ ← mysqlQuery (.updateLastLogin uid)
    let _ ← Prog.request DbCall.returnConnection
    return ok
  else
    let _ ← Prog.request DbCall.returnConnection
    return ok

/-- After a failed first attempt the connection is closed by the method
itself, and another one is taken from the pool for the second attempt. -/
def verifyUser (uid passwd : String) : DbProg Bool := do
  let conn ← Prog.request DbCall.getConnection
  if !conn then
    return false
  else
    match ← mysqlQuery (.selectVerified uid passwd) with
    | some rows => conclude uid (!rows.isEmpty)
    | none =>
        let _ ← Prog.request DbCall.closeConnection
        let again ← Prog.request DbCall.getConnection
        if !again then
          return false
        else
          match ← mysqlQuery (.selectVerified uid passwd) with
          | some rows => conclude uid (!rows.isEmpty)
          | none => conclude uid false

def userExists (uid : String) : DbProg Bool :=
  withConnection false do
    let result ← mysqlQuery (.selectUid uid)
    return !((result.getD none).getD []).isEmpty

def getUserInfo (uid : String) : DbProg (Option UserInfo) :=
  withConnection none do
    let result ← mysqlQuery (.selectUser uid)
    return (result.getD none).map UserInfo.ofRow

def updateLastLogin (uid : String) : DbProg Bool :=
  withConnection false do
    let result ← mysqlQuery (.updateLastLogin uid)
    return result.isSome

end MySQLUserRepo

/-! ## MySQLRoomRepo -/

namespace MySQLRoomRepo

def createRoom (name creator : String) : DbProg Int :=
  withConnection 0 do
    let result ← mysqlQuery (.insertRoom name creator)
    return result.getD 0

def getRoomByName (name : String) : DbProg (Option RoomInfo) :=
  withConnection none do
    let result ← mysqlQuery (.selectRoomByName name)
    return (result.getD none).map RoomInfo.ofRow

def getRoomById (roomId : Int) : DbProg (Option RoomInfo) :=
  withConnection none do
    let result ← mysqlQuery (.selectRoomById roomId)
    return (result.getD none).map RoomInfo.ofRow

def roomExists (name : String) : DbProg Bool := do
  let room ← getRoomByName name
  return room.isSome

def addRoomMember (roomId : Int) (uid : String) (role : Int) :
    DbProg Bool :=
  withConnection false do
    let result ← mysqlQuery (.insertIgnoreRoomMember roomId uid role)
    return result.isSome

def removeRoomMember (roomId : Int) (uid : String) : DbProg Bool :=
  withConnection false do
    let result ← mysqlQuery (.deleteRoomMember roomId uid)
    return result.isSome

def getRoomMembers (roomId : Int) : DbProg (List String) :=
  withConnection [] do
    let result ← mysqlQuery (.selectRoomMembers roomId)
    return (result.getD []).map cstr

def getUserRooms (uid : String) : DbProg (List RoomInfo) :=
  withConnection [] do
    let result ← mysqlQuery (.selectUserRooms uid)
    return (result.getD []).map RoomInfo.ofRow

end MySQLRoomRepo

/-! ## MySQLSessionRepo -/

namespace MySQLSessionRepo

def createSession (uid token nodeId : String) (ttlSeconds : Int) :
    DbProg Bool :=
  withConnection false do
    let result ← mysqlQuery (.insertSession uid token nodeId ttlSeconds)
    return result.isSome

def getSessionByToken (token : String) : DbProg (Option SessionInfo) :=
  withConnection none do
    let result ← mysqlQuery (.selectSession token)
    return (result.getD none).map SessionInfo.ofRow

def revokeSession (token : String) : DbProg Bool :=
  withConnection false do
    let result ← mysqlQuery (.updateRevokedByToken token)
    return result.isSome

def revokeAllSessions (uid : String) : DbProg Bool :=
  withConnection false do
    let result ← mysqlQuery (.updateRevokedByUid uid)
    return result.isSome

def isValidSession (token : String) : DbProg Bool := do
  let session ← getSessionByToken token
  return session.isSome

def updateSessionNode (token nodeId : String) : DbProg Bool :=
  withConnection false do
    let result ← mysqlQuery (.updateSessionNode token nodeId)
    return result.isSome

end MySQLSessionRepo

/-! ## What the methods call -/

section Calls

open Prog

variable {α : Type} {allowed : DbCall → Prop}

theorem onlyCalls_withConnection (hget : allowed .getConnection)
    (hreturn : allowed .returnConnection) {unavailable : α}
    {body : DbProg α} (hbody : body.OnlyCalls allowed) :
    (withConnection unavailable body).OnlyCalls allowed := by
  refine onlyCalls_call.mpr ⟨hget, fun conn => ?_⟩
  cases conn with
  | false => exact onlyCalls_ret
  | true =>
      refine hbody.bind fun value => ?_
      exact onlyCalls_call.mpr ⟨hreturn, fun _ => onlyCalls_ret⟩

/-- Most methods send one statement. -/
theorem onlyCalls_withQuery (hget : allowed .getConnection)
    (hreturn : allowed .returnConnection) {unavailable : α}
    {statement : Statement} {finish : Option statement.Result → α}
    (hquery : allowed (.query statement)) :
    (withConnection unavailable
      (mysqlQuery statement >>= fun result =>
        pure (finish result))).OnlyCalls allowed :=
  onlyCalls_withConnection hget hreturn
    (onlyCalls_call.mpr ⟨hquery, fun _ => onlyCalls_ret⟩)

theorem MySQLFriendRepo.onlyCalls_respondFriendRequest
    {requester responder : String} {accepted : Bool}
    (hget : allowed .getConnection) (hreturn : allowed .returnConnection)
    (hstatus : allowed (.query (.updateFriendshipStatus
      (if accepted then 1 else 2) requester responder)))
    (hmirror : accepted = true → allowed
      (.query (.insertIgnoreFriendship responder requester 1))) :
    (respondFriendRequest requester responder accepted).OnlyCalls
      allowed := by
  apply onlyCalls_withConnection hget hreturn
  refine onlyCalls_call.mpr ⟨hstatus, fun result => ?_⟩
  cases result with
  | none => exact onlyCalls_ret
  | some _ =>
      cases accepted with
      | false => exact onlyCalls_ret
      | true =>
          exact onlyCalls_call.mpr ⟨hmirror rfl, fun _ => onlyCalls_ret⟩

theorem MySQLMessageRepo.onlyCalls_storeMessage
    {sender recipient room content : String}
    (hget : allowed .getConnection) (hreturn : allowed .returnConnection)
    (hroom : allowed (.query (.selectRoomId room)))
    (hseq : ∀ roomId, allowed (.query (.selectNextSeq roomId)))
    (hinsert : ∀ seq roomId, allowed (.query (.insertMessage seq roomId
      sender (if recipient = "" then none else some recipient) content))) :
    (storeMessage sender recipient room content).OnlyCalls allowed := by
  have hlookup : (lookupRoom room).OnlyCalls allowed := by
    unfold lookupRoom
    split
    · exact onlyCalls_ret
    · exact onlyCalls_call.mpr ⟨hroom, fun _ => onlyCalls_ret⟩
  have hnext (roomId : Int) : (nextSeq roomId).OnlyCalls allowed := by
    unfold nextSeq
    split
    · exact onlyCalls_call.mpr ⟨hseq roomId, fun _ => onlyCalls_ret⟩
    · exact onlyCalls_ret
  apply onlyCalls_withConnection hget hreturn
  refine hlookup.bind fun roomId => (hnext roomId).bind fun seq => ?_
  exact onlyCalls_call.mpr ⟨hinsert seq _, fun _ => onlyCalls_ret⟩

theorem MySQLMessageRepo.onlyCalls_recallMessage {msgId : Int} {uid : String}
    (hget : allowed .getConnection) (hreturn : allowed .returnConnection)
    (hupdate : allowed (.query (.updateRecalled msgId uid))) :
    (recallMessage msgId uid).OnlyCalls allowed := by
  apply onlyCalls_withConnection hget hreturn
  refine onlyCalls_call.mpr ⟨hupdate, fun result => ?_⟩
  cases result <;> exact onlyCalls_ret

end Calls

end MuduoChat
