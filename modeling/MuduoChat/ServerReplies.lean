import MuduoChat.SessionManager

/-!
# Replies of the chat server

The `ServerMessage` values built by `chat_server.cc` and the connections they
are addressed to, as functions of the session manager.  Nothing here changes
the state; `ChatServer` records these messages as sent.
-/

namespace MuduoChat

abbrev Outgoing := Conn × ServerMessage

namespace ServerReplies

/-- A message identifier on the wire: the signed key read as unsigned. -/
def wireId (msgId : Int) : Nat :=
  (BitVec.ofInt 64 msgId).toNat

def errorReply (code : Nat) (reason : String) : ServerMessage :=
  .error { code := code, reason := reason }

/-- The login reply of `handleLogin`; the token is the one presented or the
one just issued. -/
def loginReply (result : LoginResult) (token : String) (now : Nat) :
    ServerMessage :=
  .loginResp
    { ok := true
      token := token
      nickname := result.userInfo.nickname
      email := result.userInfo.email
      avatarUrl := result.userInfo.avatarUrl
      serverTime := now }

def logoutReply : ServerMessage :=
  .loginResp { ok := true, reason := "logged out" }

def registerReply (ok : Bool) : ServerMessage :=
  .registerResp
    { ok := ok, reason := if ok then "" else "register failed" }

/-- A private message as `handleChatMessage` relays it to the target and
echoes it to the sender. -/
def privateChat (sender recipient content : String)
    (msgId : Int) (now : Nat) : ServerMessage :=
  .chatMsg
    { sender := sender
      recipient := recipient
      content := content
      msgId := wireId msgId
      timestamp := now }

def roomChat (sender room content : String) (msgId : Int) (now : Nat) :
    ServerMessage :=
  .chatMsg
    { sender := sender
      room := room
      content := content
      msgId := wireId msgId
      timestamp := now }

def offlineChat (info : MessageInfo) (now : Nat) : ServerMessage :=
  .chatMsg
    { sender := info.fromUid
      recipient := info.toUid
      room := info.roomName
      content := info.content
      msgId := wireId info.msgId
      timestamp := now }

def pendingRequest (requester uid : String) : ServerMessage :=
  .friendReq { fromUid := requester, toUid := uid }

def friendInfo (manager : SessionManager) (uid : String) : FriendInfo :=
  { uid := uid, nickname := uid, online := manager.isOnline uid }

/-- The reply of `sendFriendList`: the friends of the uid stored in the
connection's context, in key order. -/
def friendList (manager : SessionManager) (conn : Conn) : ServerMessage :=
  .friendList
    ((manager.getFriends (manager.getUid conn)).elems.map
      (friendInfo manager))

def toUser (manager : SessionManager) (uid : String)
    (msg : ServerMessage) : List Outgoing :=
  match manager.getConnection uid with
  | none => []
  | some target => [(target, msg)]

def privateRelay (manager : SessionManager)
    (sender recipient content : String) (msgId : Int) (now : Nat) :
    List Outgoing :=
  toUser manager recipient
    (privateChat sender recipient content msgId now)

def toMembers (manager : SessionManager) (members : OrderedSet String)
    (msg : ServerMessage) : List Outgoing :=
  members.elems.flatMap fun member => toUser manager member msg

end ServerReplies

end MuduoChat
