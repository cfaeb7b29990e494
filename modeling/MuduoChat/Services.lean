import MuduoChat.CallPrograms
import MuduoChat.ChatProtocol

/-!
# Services over abstract repositories

`LoginService`, `ChatService`, `FriendService` and `RoomService` reach the
databases only through the repository interfaces.  The interfaces become the
calls of a program, and each service method the program its body describes;
a repository is whatever answers the calls.  Three further calls stand for
what the services take from the C++ library: the random token, the clock and
`mktime`.
-/

namespace MuduoChat

/-! ## The repository interfaces -/

structure Tm where
  year : Int := 0
  mon : Int := 0
  mday : Int := 0
  hour : Int := 0
  min : Int := 0
  sec : Int := 0
  deriving DecidableEq

inductive RepositoryCall where
  | registerUser (uid passwd nickname email : String)
  | verifyUser (uid passwd : String)
  | userExists (uid : String)
  | getUserInfo (uid : String)
  | createSession (uid token nodeId : String) (ttlSeconds : Nat)
  | getSessionByToken (token : String)
  | revokeSession (token : String)
  | revokeAllSessions (uid : String)
  | updateSessionNode (token nodeId : String)
  | addFriendRequest (sender target message : String)
  | respondFriendRequest (requester responder : String) (accepted : Bool)
  | removeFriends (uid₁ uid₂ : String)
  | getFriendList (uid : String)
  | getPendingRequests (uid : String)
  | storeMessage (sender recipient room content : String)
  | getMessage (msgId : Int)
  | recallMessage (msgId : Int) (uid : String)
  | addOfflineMessage (targetUid : String) (msgId : Int)
  | getUndeliveredMessages (uid : String)
  | markMessagesDelivered (uid : String)
  | createRoom (name creator : String)
  | getRoomByName (name : String)
  | roomExists (name : String)
  | addRoomMember (roomId : Int) (uid : String) (role : Int)
  | generateToken
  | time
  | mktime (tm : Tm)
  deriving DecidableEq

abbrev RepositoryCall.Answer : RepositoryCall → Type
  | registerUser .. | verifyUser .. | userExists _ | createSession ..
  | revokeSession _ | revokeAllSessions _ | updateSessionNode ..
  | addFriendRequest .. | respondFriendRequest .. | removeFriends ..
  | recallMessage .. | addOfflineMessage .. | markMessagesDelivered _
  | roomExists _ | addRoomMember .. => Bool
  | getUserInfo _ => Option UserInfo
  | getSessionByToken _ => Option SessionInfo
  | getFriendList _ => List UserInfo
  | getPendingRequests _ => List String
  | storeMessage .. | createRoom .. | time | mktime _ => Int
  | getMessage _ => Option MessageInfo
  | getUndeliveredMessages _ => List MessageInfo
  | getRoomByName _ => Option RoomInfo
  | generateToken => String

abbrev ServiceProg := Prog RepositoryCall RepositoryCall.Answer

abbrev repository (call : RepositoryCall) : ServiceProg call.Answer :=
  Prog.request call

/-! ## LoginService -/

namespace LoginService

def collect (uid token : String) (userInfo : UserInfo) :
    ServiceProg LoginResult := do
  let friends ← repository (.getFriendList uid)
  let pendingRequests ← repository (.getPendingRequests uid)
  let offlineMessages ← repository (.getUndeliveredMessages uid)
  return {
    success := true
    token := token
    userInfo := userInfo
    friends := friends
    pendingRequests := pendingRequests
    offlineMessages := offlineMessages }

def login (uid passwd nodeId : String) : ServiceProg LoginResult := do
  let verified ← repository (.verifyUser uid passwd)
  if !verified then
    return { reason := "invalid uid or password" }
  else
    match ← repository (.getUserInfo uid) with
    | none => return { reason := "user not found" }
    | some userInfo =>
        let token ← repository .generateToken
        let sessionOk ←
          repository (.createSession uid token nodeId (7 * 24 * 3600))
        if !sessionOk then
          return { reason := "session create failed" }
        else
          collect uid token userInfo

def loginWithToken (token nodeId : String) : ServiceProg LoginResult := do
  match ← repository (.getSessionByToken token) with
  | none => return { reason := "invalid token" }
  | some session =>
      let _ ← repository (.updateSessionNode token nodeId)
      match ← repository (.getUserInfo session.uid) with
      | none => return { reason := "user not found" }
      | some userInfo => collect session.uid token userInfo

def registerUser (uid passwd nickname email : String) : ServiceProg Bool :=
  repository (.registerUser uid passwd nickname email)

def logout (uid token : String) : ServiceProg Bool := do
  let _ ← repository (.revokeSession token)
  let _ ← repository (.revokeAllSessions uid)
  return true

end LoginService

/-! ## ChatService -/

namespace ChatService

def sendMessage (sender recipient room content : String) :
    ServiceProg SendMessageResult := do
  let msgId ← repository (.storeMessage sender recipient room content)
  if msgId ≤ 0 then
    return { reason := "store message failed" }
  else
    return { success := true, msgId := msgId }

def getMessage (msgId : Int) : ServiceProg (Option MessageInfo) :=
  repository (.getMessage msgId)

def isSpace (char : Char) : Bool :=
  char = ' ' || ('\t' ≤ char && char ≤ '\r')

def scanDigits : Nat → Nat → List Char → Nat × List Char
  | 0, value, input => (value, input)
  | _ + 1, value, [] => (value, [])
  | width + 1, value, char :: rest =>
      if char.isDigit then
        scanDigits width (value * 10 + (char.toNat - '0'.toNat)) rest
      else (value, char :: rest)

/-- The conversion `%wd`: leading white space, an optional sign that counts
for the width, and at least one digit. -/
def scanInt (width : Nat) (input : List Char) : Option (Int × List Char) :=
  match input.dropWhile isSpace with
  | '-' :: char :: rest =>
      if char.isDigit ∧ 1 < width then
        let (value, left) := scanDigits (width - 1) 0 (char :: rest)
        some (-value, left)
      else none
  | '+' :: char :: rest =>
      if char.isDigit ∧ 1 < width then
        let (value, left) := scanDigits (width - 1) 0 (char :: rest)
        some (value, left)
      else none
  | char :: rest =>
      if char.isDigit ∧ 0 < width then
        let (value, left) := scanDigits width 0 (char :: rest)
        some (value, left)
      else none
  | [] => none

/-- A literal character of the format; white space matches any amount of
it. -/
def scanLiteral (literal : Char) (input : List Char) :
    Option (List Char) :=
  if isSpace literal then some (input.dropWhile isSpace)
  else
    match input with
    | char :: rest => if char = literal then some rest else none
    | [] => none

def scanFields :
    List (Nat × Option Char) → List Char → List Int
  | [], _ => []
  | (width, separator) :: fields, input =>
      match scanInt width input with
      | none => []
      | some (value, rest) =>
          match separator with
          | none => [value]
          | some literal =>
              match scanLiteral literal rest with
              | none => [value]
              | some left => value :: scanFields fields left

/-- `sscanf(created_at, "%4d-%2d-%2d %2d:%2d:%2d", …)` into a zeroed `tm`,
followed by the corrections of year and month. -/
def parseCreatedAt (createdAt : String) : Tm :=
  let fields := scanFields
    [(4, some '-'), (2, some '-'), (2, some ' '),
      (2, some ':'), (2, some ':'), (2, none)] createdAt.toList
  { year := fields.getD 0 0 - 1900
    mon := fields.getD 1 0 - 1
    mday := fields.getD 2 0
    hour := fields.getD 3 0
    min := fields.getD 4 0
    sec := fields.getD 5 0 }

/-- The arguments `to` and `room` of the source are not read. -/
def recallMessage (msgId : Int) (uid : String) (_to _room : String) :
    ServiceProg RecallResult := do
  match ← repository (.getMessage msgId) with
  | none => return { reason := "message not found" }
  | some msg =>
      if msg.fromUid ≠ uid then
        return { reason := "can only recall your own messages" }
      else
        let now ← repository .time
        let msgTime ← repository (.mktime (parseCreatedAt msg.createdAt))
        if now - msgTime > 120 then
          return { reason := "recall window expired (2 min)" }
        else
          let recalled ← repository (.recallMessage msgId uid)
          if !recalled then
            return { reason := "recall failed" }
          else
            return { success := true }

def markMessagesDelivered (uid : String) : ServiceProg Bool :=
  repository (.markMessagesDelivered uid)

end ChatService

/-! ## FriendService -/

namespace FriendService

def addFriendRequest (sender target message : String) :
    ServiceProg FriendResult := do
  let found ← repository (.userExists target)
  if !found then
    return { reason := "target user not found" }
  else
    let ok ← repository (.addFriendRequest sender target message)
    return {
      success := ok
      reason := if ok then "" else "add friend request failed" }

def respondFriendRequest (requester responder : String)
    (accepted : Bool) : ServiceProg FriendResult := do
  let ok ← repository (.respondFriendRequest requester responder accepted)
  return {
    success := ok
    reason := if ok then "" else "respond friend request failed" }

def removeFriend (uid₁ uid₂ : String) : ServiceProg FriendResult := do
  let ok ← repository (.removeFriends uid₁ uid₂)
  return {
    success := ok
    reason := if ok then "" else "remove friend failed" }

end FriendService

/-! ## RoomService -/

namespace RoomService

def createRoom (name creator : String) : ServiceProg RoomResult := do
  let taken ← repository (.roomExists name)
  if taken then
    return { reason := "room already exists" }
  else
    let roomId ← repository (.createRoom name creator)
    if roomId ≤ 0 then
      return { reason := "create room failed" }
    else
      let _ ← repository (.addRoomMember roomId creator 2)
      return { success := true, roomId := roomId }

def joinRoom (roomName uid : String) : ServiceProg RoomResult := do
  match ← repository (.getRoomByName roomName) with
  | none => return { reason := "room not found" }
  | some room =>
      let ok ← repository (.addRoomMember room.roomId uid 0)
      return {
        success := ok
        roomId := room.roomId
        reason := if ok then "" else "join room failed" }

end RoomService

end MuduoChat
