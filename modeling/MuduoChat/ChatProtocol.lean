import Mathlib.Logic.Function.Basic

/-!
# Messages and records of the chat service

The request and reply messages of `chat.proto` and the plain records the
repositories return.  Strings are protobuf and database strings, so a Lean
`String` carries the same values.  Message identifiers are the signed 64-bit
keys of the database; the wire carries them as unsigned 64-bit numbers.
-/

namespace MuduoChat

/-! ## Requests -/

structure LoginRequest where
  uid : String := ""
  passwd : String := ""
  token : String := ""
  deriving DecidableEq

structure LogoutRequest where
  uid : String := ""
  token : String := ""
  deriving DecidableEq

structure RegisterRequest where
  uid : String := ""
  passwd : String := ""
  nickname : String := ""
  email : String := ""
  deriving DecidableEq

structure ChatMessage where
  sender : String := ""
  recipient : String := ""
  room : String := ""
  content : String := ""
  msgId : Nat := 0
  seq : Nat := 0
  timestamp : Nat := 0
  recalled : Bool := false
  deriving DecidableEq

structure CreateRoom where
  name : String := ""
  creator : String := ""
  deriving DecidableEq

structure JoinRoom where
  roomName : String := ""
  uid : String := ""
  deriving DecidableEq

structure FriendRequest where
  fromUid : String := ""
  toUid : String := ""
  message : String := ""
  deriving DecidableEq

structure FriendResponse where
  fromUid : String := ""
  toUid : String := ""
  accepted : Bool := false
  deriving DecidableEq

structure FriendRemove where
  targetUid : String := ""
  deriving DecidableEq

structure RecallMessage where
  msgId : Nat := 0
  fromUid : String := ""
  room : String := ""
  toUid : String := ""
  deriving DecidableEq

structure Heartbeat where
  timestamp : Nat := 0
  deriving DecidableEq

/-- The `payload` oneof of an `Envelope`.  `notSet` stands for an envelope
whose payload is absent or of a kind this server does not know. -/
inductive Envelope where
  | loginReq (req : LoginRequest)
  | logoutReq (req : LogoutRequest)
  | registerReq (req : RegisterRequest)
  | chatMsg (msg : ChatMessage)
  | createRoom (req : CreateRoom)
  | joinRoom (req : JoinRoom)
  | friendReq (req : FriendRequest)
  | friendResp (req : FriendResponse)
  | friendRemove (req : FriendRemove)
  | recallMsg (req : RecallMessage)
  | heartbeat (beat : Heartbeat)
  | notSet
  deriving DecidableEq

/-! ## Replies -/

structure LoginResponse where
  ok : Bool := false
  token : String := ""
  reason : String := ""
  serverTime : Nat := 0
  nickname : String := ""
  email : String := ""
  avatarUrl : String := ""
  deriving DecidableEq

structure RegisterResponse where
  ok : Bool := false
  reason : String := ""
  deriving DecidableEq

structure FriendInfo where
  uid : String := ""
  nickname : String := ""
  online : Bool := false
  deriving DecidableEq

structure RecallNotify where
  msgId : Nat := 0
  fromUid : String := ""
  room : String := ""
  toUid : String := ""
  recallTime : Nat := 0
  deriving DecidableEq

structure ErrorResponse where
  code : Nat := 0
  reason : String := ""
  deriving DecidableEq

inductive ServerMessage where
  | loginResp (resp : LoginResponse)
  | registerResp (resp : RegisterResponse)
  | chatMsg (msg : ChatMessage)
  | recallNotify (notice : RecallNotify)
  | friendReq (req : FriendRequest)
  | friendResp (resp : FriendResponse)
  | friendList (friends : List FriendInfo)
  | friendRemove (req : FriendRemove)
  | error (resp : ErrorResponse)
  deriving DecidableEq

/-! ## Records returned by the repositories and services -/

structure UserInfo where
  uid : String := ""
  nickname : String := ""
  email : String := ""
  avatarUrl : String := ""
  deriving DecidableEq

structure MessageInfo where
  msgId : Int := 0
  seq : Int := 0
  fromUid : String := ""
  toUid : String := ""
  roomName : String := ""
  content : String := ""
  recalled : Int := 0
  createdAt : String := ""
  deriving DecidableEq

structure SessionInfo where
  uid : String := ""
  token : String := ""
  nodeId : String := ""
  deriving DecidableEq

structure RoomInfo where
  roomId : Int := 0
  name : String := ""
  creatorUid : String := ""
  type : Int := 0
  deriving DecidableEq

structure LoginResult where
  success : Bool := false
  token : String := ""
  userInfo : UserInfo := {}
  friends : List UserInfo := []
  pendingRequests : List String := []
  offlineMessages : List MessageInfo := []
  reason : String := ""
  deriving DecidableEq

structure SendMessageResult where
  success : Bool := false
  msgId : Int := 0
  reason : String := ""
  deriving DecidableEq

structure RecallResult where
  success : Bool := false
  reason : String := ""
  deriving DecidableEq

structure FriendResult where
  success : Bool := false
  reason : String := ""
  deriving DecidableEq

structure RoomResult where
  success : Bool := false
  roomId : Int := 0
  reason : String := ""
  deriving DecidableEq

end MuduoChat
