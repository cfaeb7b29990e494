import MuduoChat.ChatProtocol
import MuduoChat.WireFormat

/-!
# Messages on the wire

What protobuf writes for the messages of `chat.proto`, with the field numbers
declared there.
-/

namespace MuduoChat

open WireFormat

/-! ## Requests -/

def LoginRequest.serialize (req : LoginRequest) : List UInt8 :=
  stringField 1 req.uid ++ stringField 2 req.passwd ++
    stringField 3 req.token

def LogoutRequest.serialize (req : LogoutRequest) : List UInt8 :=
  stringField 1 req.uid ++ stringField 2 req.token

def RegisterRequest.serialize (req : RegisterRequest) : List UInt8 :=
  stringField 1 req.uid ++ stringField 2 req.passwd ++
    stringField 3 req.nickname ++ stringField 4 req.email

def ChatMessage.serialize (msg : ChatMessage) : List UInt8 :=
  stringField 1 msg.sender ++ stringField 2 msg.recipient ++
    stringField 3 msg.room ++ stringField 4 msg.content ++
    uint64Field 5 msg.msgId ++ uint64Field 6 msg.seq ++
    uint64Field 7 msg.timestamp ++ boolField 8 msg.recalled

def CreateRoom.serialize (req : CreateRoom) : List UInt8 :=
  stringField 1 req.name ++ stringField 2 req.creator

def JoinRoom.serialize (req : JoinRoom) : List UInt8 :=
  stringField 1 req.roomName ++ stringField 2 req.uid

def FriendRequest.serialize (req : FriendRequest) : List UInt8 :=
  stringField 1 req.fromUid ++ stringField 2 req.toUid ++
    stringField 3 req.message

def FriendResponse.serialize (req : FriendResponse) : List UInt8 :=
  stringField 1 req.fromUid ++ stringField 2 req.toUid ++
    boolField 3 req.accepted

def FriendRemove.serialize (req : FriendRemove) : List UInt8 :=
  stringField 1 req.targetUid

def RecallMessage.serialize (req : RecallMessage) : List UInt8 :=
  uint64Field 1 req.msgId ++ stringField 2 req.fromUid ++
    stringField 3 req.room ++ stringField 4 req.toUid

def Heartbeat.serialize (beat : Heartbeat) : List UInt8 :=
  uint64Field 1 beat.timestamp

def Envelope.serializePayload : Envelope → List UInt8
  | .loginReq req => messageField 10 req.serialize
  | .logoutReq req => messageField 11 req.serialize
  | .registerReq req => messageField 12 req.serialize
  | .chatMsg msg => messageField 20 msg.serialize
  | .createRoom req => messageField 21 req.serialize
  | .joinRoom req => messageField 22 req.serialize
  | .friendReq req => messageField 30 req.serialize
  | .friendResp req => messageField 31 req.serialize
  | .friendRemove req => messageField 32 req.serialize
  | .recallMsg req => messageField 40 req.serialize
  | .heartbeat beat => messageField 50 beat.serialize
  | .notSet => []

/-- The envelope with its own `token` field, which no handler reads. -/
def Envelope.serialize (token : String) (envelope : Envelope) : List UInt8 :=
  stringField 1 token ++ envelope.serializePayload

/-! ## Replies -/

def LoginResponse.serialize (resp : LoginResponse) : List UInt8 :=
  boolField 1 resp.ok ++ stringField 2 resp.token ++
    stringField 3 resp.reason ++ uint64Field 4 resp.serverTime ++
    stringField 5 resp.nickname ++ stringField 6 resp.email ++
    stringField 7 resp.avatarUrl

def RegisterResponse.serialize (resp : RegisterResponse) : List UInt8 :=
  boolField 1 resp.ok ++ stringField 2 resp.reason

def FriendInfo.serialize (info : FriendInfo) : List UInt8 :=
  stringField 1 info.uid ++ stringField 2 info.nickname ++
    boolField 3 info.online

/-- The body of a `FriendList`, one repeated field for each friend. -/
def serializeFriends (friends : List FriendInfo) : List UInt8 :=
  friends.flatMap fun info => messageField 1 info.serialize

def RecallNotify.serialize (notice : RecallNotify) : List UInt8 :=
  uint64Field 1 notice.msgId ++ stringField 2 notice.fromUid ++
    stringField 3 notice.room ++ stringField 4 notice.toUid ++
    uint64Field 5 notice.recallTime

def ErrorResponse.serialize (resp : ErrorResponse) : List UInt8 :=
  uint32Field 1 resp.code ++ stringField 2 resp.reason

def ServerMessage.serialize : ServerMessage → List UInt8
  | .loginResp resp => messageField 10 resp.serialize
  | .registerResp resp => messageField 12 resp.serialize
  | .chatMsg msg => messageField 20 msg.serialize
  | .recallNotify notice => messageField 40 notice.serialize
  | .friendReq req => messageField 30 req.serialize
  | .friendResp req => messageField 31 req.serialize
  | .friendList friends => messageField 33 (serializeFriends friends)
  | .friendRemove req => messageField 32 req.serialize
  | .error resp => messageField 99 resp.serialize

/-! ## Sizes -/

theorem ChatMessage.length_serialize (msg : ChatMessage) :
    msg.serialize.length =
      stringSize msg.sender + stringSize msg.recipient +
        stringSize msg.room + stringSize msg.content +
        uintSize (msg.msgId % 2 ^ 64) + uintSize (msg.seq % 2 ^ 64) +
        uintSize (msg.timestamp % 2 ^ 64) +
        (if msg.recalled then 2 else 0) := by
  simp only [ChatMessage.serialize, uint64Field, List.length_append]
  rw [length_stringField (by decide), length_stringField (by decide),
    length_stringField (by decide), length_stringField (by decide),
    length_varintField (by decide), length_varintField (by decide),
    length_varintField (by decide), length_boolField (by decide)]

theorem FriendInfo.length_serialize (info : FriendInfo) :
    info.serialize.length =
      stringSize info.uid + stringSize info.nickname +
        (if info.online then 2 else 0) := by
  simp only [FriendInfo.serialize, List.length_append]
  rw [length_stringField (by decide), length_stringField (by decide),
    length_boolField (by decide)]

theorem length_serializeFriends (friends : List FriendInfo) :
    (serializeFriends friends).length =
      (friends.map fun info =>
        1 + delimitedSize info.serialize.length).sum := by
  induction friends with
  | nil => rfl
  | cons info friends ih =>
      rw [serializeFriends] at ih ⊢
      rw [List.flatMap_cons, List.length_append, ih, List.map_cons,
        List.sum_cons, length_messageField, length_key_one (by decide)
          (by decide)]

end MuduoChat
