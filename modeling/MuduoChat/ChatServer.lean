import MuduoChat.Services
import MuduoChat.ServerReplies

/-!
# The chat server

`ChatServer` turns every envelope into work for a thread pool and finishes
the work in a callback on the event loop of the connection.  The state below
is the whole server: session and room managers, the pool's queue and its busy
workers, and the functors waiting in each event loop.  A worker runs its task
one repository call at a time, so that tasks, callbacks, receptions and
disconnections interleave freely.

Every event of a run is recorded, newest first.  The record is not read by
the server; it is what properties of runs speak about.  Requests are numbered
in the order of reception, and everything a request causes carries its
number.
-/

namespace MuduoChat

/-! ## Rooms in memory -/

structure RoomManager where
  rooms : String → Option (OrderedSet String) := fun _ => none

namespace RoomManager

def createRoom (manager : RoomManager) (name creator : String) :
    RoomManager :=
  match manager.rooms name with
  | some _ => manager
  | none =>
      { rooms := Function.update manager.rooms name
          (some (OrderedSet.empty.insert creator)) }

def joinRoom (manager : RoomManager) (name uid : String) : RoomManager :=
  match manager.rooms name with
  | none => manager
  | some members =>
      { rooms := Function.update manager.rooms name
          (some (members.insert uid)) }

def getRoomMembers (manager : RoomManager) (name : String) :
    OrderedSet String :=
  (manager.rooms name).getD ∅

end RoomManager

/-! ## Pool tasks and loop callbacks -/

/-- The functors handed to `runInLoop`, with the variables they capture. -/
inductive Callback where
  | tokenLogin (conn : Conn) (result : LoginResult) (token : String)
  | login (conn : Conn) (result : LoginResult)
  | register (conn : Conn) (ok : Bool)
  | chat (conn : Conn) (sender recipient room content : String)
      (result : SendMessageResult)
  | createRoom (conn : Conn) (uid name : String) (result : RoomResult)
  | joinRoom (conn : Conn) (uid roomName : String) (result : RoomResult)
  | friendRequest (conn : Conn) (sender target message : String)
  | friendResponse (conn : Conn) (requester responder : String)
      (accepted : Bool)
  | friendRemove (conn : Conn) (uid target : String)
  | recallMsg (conn : Conn) (uid : String) (msgId : Int)
      (recipient room : String) (result : RecallResult)
  deriving DecidableEq

def Callback.conn : Callback → Conn
  | tokenLogin conn .. | login conn .. | register conn .. | chat conn ..
  | createRoom conn .. | joinRoom conn .. | friendRequest conn ..
  | friendResponse conn .. | friendRemove conn .. | recallMsg conn .. => conn

/-- The functors handed to the thread pool, with the variables they capture;
each starts with the service call it is named after. -/
inductive Task where
  | loginWithToken (conn : Conn) (token : String)
  | login (conn : Conn) (uid passwd : String)
  | logout (uid token : String)
  | registerUser (conn : Conn) (uid passwd nickname email : String)
  | sendMessage (conn : Conn) (sender recipient room content : String)
  | getMessage (recipient : String) (msgId : Int)
  | createRoom (conn : Conn) (uid name : String)
  | joinRoom (conn : Conn) (uid roomName : String)
  | addFriendRequest (conn : Conn) (sender target message : String)
  | respondFriendRequest (conn : Conn) (requester responder : String)
      (accepted : Bool)
  | removeFriend (conn : Conn) (uid target : String)
  | recallMessage (conn : Conn) (uid : String) (msgId : Int)
      (recipient room : String)
  | markMessagesDelivered (uid : String)
  deriving DecidableEq

def Task.program (nodeId : String) : Task → ServiceProg (Option Callback)
  | loginWithToken conn token => do
      let result ← LoginService.loginWithToken token nodeId
      return some (.tokenLogin conn result token)
  | login conn uid passwd => do
      let result ← LoginService.login uid passwd nodeId
      return some (.login conn result)
  | logout uid token => do
      let _ ← LoginService.logout uid token
      return none
  | registerUser conn uid passwd nickname email => do
      let ok ← LoginService.registerUser uid passwd nickname email
      return some (.register conn ok)
  | sendMessage conn sender recipient room content => do
      let result ← ChatService.sendMessage sender recipient room content
      return some (.chat conn sender recipient room content result)
  | getMessage _ msgId => do
      let _ ← ChatService.getMessage msgId
      return none
  | createRoom conn uid name => do
      let result ← RoomService.createRoom name uid
      return some (.createRoom conn uid name result)
  | joinRoom conn uid roomName => do
      let result ← RoomService.joinRoom roomName uid
      return some (.joinRoom conn uid roomName result)
  | addFriendRequest conn sender target message => do
      let _ ← FriendService.addFriendRequest sender target message
      return some (.friendRequest conn sender target message)
  | respondFriendRequest conn requester responder accepted => do
      let _ ← FriendService.respondFriendRequest requester responder accepted
      return some (.friendResponse conn requester responder accepted)
  | removeFriend conn uid target => do
      let _ ← FriendService.removeFriend uid target
      return some (.friendRemove conn uid target)
  | recallMessage conn uid msgId recipient room => do
      let result ← ChatService.recallMessage msgId uid recipient room
      return some (.recallMsg conn uid msgId recipient room result)
  | markMessagesDelivered uid => do
      let _ ← ChatService.markMessagesDelivered uid
      return none

/-! ## The state -/

inductive Event where
  | received (request : Nat) (conn : Conn) (envelope : Envelope)
  | started (request : Nat) (task : Task)
  | called (request : Nat) (call : RepositoryCall) (answer : call.Answer)
  | loggedIn (request : Nat) (conn : Conn) (result : LoginResult)
  | loggedOut (request : Nat) (conn : Conn)
  | sent (conn : Conn) (msg : ServerMessage)
  | shutdown (conn : Conn)
  | closed (conn : Conn)

structure PoolTask where
  request : Nat
  task : Task

structure Worker where
  request : Nat
  task : Task
  prog : ServiceProg (Option Callback)

structure Functor where
  request : Nat
  callback : Callback

structure ServerConfig where
  nodeId : String := "node-1"
  /-- Number of threads in the pool. -/
  threads : Nat
  /-- The event loop a connection was assigned to. -/
  loopOf : Conn → Nat

structure ChatServer where
  sessions : SessionManager := SessionManager.initial
  rooms : RoomManager := {}
  queue : List PoolTask := []
  workers : List Worker := []
  loops : Nat → List Functor := fun _ => []
  requests : Nat := 0
  history : List Event := []

namespace ChatServer

def initial : ChatServer := {}

/-! ## Effects -/

def record (server : ChatServer) (event : Event) : ChatServer :=
  { server with history := event :: server.history }

def send (server : ChatServer) (conn : Conn) (msg : ServerMessage) :
    ChatServer :=
  server.record (.sent conn msg)

def sendAll (server : ChatServer) (outgoing : List Outgoing) : ChatServer :=
  outgoing.foldl (fun server out => server.send out.1 out.2) server

def sendError (server : ChatServer) (conn : Conn) (code : Nat)
    (reason : String) : ChatServer :=
  server.send conn (ServerReplies.errorReply code reason)

def runInPool (server : ChatServer) (request : Nat) (task : Task) :
    ChatServer :=
  { server with queue := server.queue ++ [⟨request, task⟩] }

def withSessions (server : ChatServer) (sessions : SessionManager) :
    ChatServer :=
  { server with sessions := sessions }

def withRooms (server : ChatServer) (rooms : RoomManager) : ChatServer :=
  { server with rooms := rooms }

def sendFriendList (server : ChatServer) (conn : Conn) : ChatServer :=
  server.send conn (ServerReplies.friendList server.sessions conn)

def sendPendingRequests (server : ChatServer) (conn : Conn)
    (requests : List String) : ChatServer :=
  let uid := server.sessions.getUid conn
  requests.foldl (fun server requester =>
    (server.withSessions
        (server.sessions.addPendingRequest requester uid)).send conn
      (ServerReplies.pendingRequest requester uid)) server

def sendOfflineMessages (server : ChatServer) (request : Nat) (conn : Conn)
    (messages : List MessageInfo) (now : Nat) : ChatServer :=
  let pushed := server.sendAll
    (messages.map fun info => (conn, ServerReplies.offlineChat info now))
  if messages = [] then pushed
  else pushed.runInPool request
    (.markMessagesDelivered (server.sessions.getUid conn))

/-! ## Envelope handlers -/

def handleLogin (server : ChatServer) (request : Nat) (conn : Conn)
    (req : LoginRequest) : ChatServer :=
  if req.token = "" ∧ req.passwd = "" then
    server.sendError conn 1 "need password or token"
  else if req.token ≠ "" then
    server.runInPool request (.loginWithToken conn req.token)
  else if req.uid = "" then
    server.sendError conn 2 "uid required"
  else
    server.runInPool request (.login conn req.uid req.passwd)

/-- There is no check that the connection is logged in, and the uid is the
one in the request. -/
def handleLogout (server : ChatServer) (request : Nat) (conn : Conn)
    (req : LogoutRequest) : ChatServer :=
  let queued := server.runInPool request (.logout req.uid req.token)
  ((queued.withSessions (queued.sessions.deauthenticate conn)).record
      (.loggedOut request conn)).send conn ServerReplies.logoutReply

def handleRegister (server : ChatServer) (request : Nat) (conn : Conn)
    (req : RegisterRequest) : ChatServer :=
  if req.uid = "" ∨ req.passwd = "" then
    server.sendError conn 7 "uid and password required"
  else
    server.runInPool request
      (.registerUser conn req.uid req.passwd req.nickname req.email)

/-- The guard of the handlers for logged-in users: the task is built from the
uid in the connection's context. -/
def whenAuthenticated (server : ChatServer) (request : Nat) (conn : Conn)
    (task : String → Task) : ChatServer :=
  if server.sessions.isAuthenticated conn then
    server.runInPool request (task (server.sessions.getUid conn))
  else server

def handleChatMessage (server : ChatServer) (request : Nat) (conn : Conn)
    (msg : ChatMessage) : ChatServer :=
  server.whenAuthenticated request conn fun uid =>
    .sendMessage conn uid msg.recipient msg.room msg.content

def handleCreateRoom (server : ChatServer) (request : Nat) (conn : Conn)
    (req : CreateRoom) : ChatServer :=
  server.whenAuthenticated request conn fun uid =>
    .createRoom conn uid req.name

def handleJoinRoom (server : ChatServer) (request : Nat) (conn : Conn)
    (req : JoinRoom) : ChatServer :=
  server.whenAuthenticated request conn fun uid =>
    .joinRoom conn uid req.roomName

/-- The uid of the context is looked up but not used. -/
def handleFriendRequest (server : ChatServer) (request : Nat) (conn : Conn)
    (req : FriendRequest) : ChatServer :=
  server.whenAuthenticated request conn fun _ =>
    .addFriendRequest conn req.fromUid req.toUid req.message

def handleFriendResponse (server : ChatServer) (request : Nat)
    (conn : Conn) (req : FriendResponse) : ChatServer :=
  server.whenAuthenticated request conn fun _ =>
    .respondFriendRequest conn req.toUid req.fromUid req.accepted

def handleFriendRemove (server : ChatServer) (request : Nat) (conn : Conn)
    (req : FriendRemove) : ChatServer :=
  server.whenAuthenticated request conn fun uid =>
    .removeFriend conn uid req.targetUid

/-- The unsigned identifier of the request becomes a signed one. -/
def handleRecall (server : ChatServer) (request : Nat) (conn : Conn)
    (req : RecallMessage) : ChatServer :=
  server.whenAuthenticated request conn fun uid =>
    .recallMessage conn uid (BitVec.ofNat 64 req.msgId).toInt req.toUid
      req.room

def onEnvelope (server : ChatServer) (request : Nat) (conn : Conn) :
    Envelope → ChatServer
  | .loginReq req => server.handleLogin request conn req
  | .logoutReq req => server.handleLogout request conn req
  | .registerReq req => server.handleRegister request conn req
  | .chatMsg msg => server.handleChatMessage request conn msg
  | .createRoom req => server.handleCreateRoom request conn req
  | .joinRoom req => server.handleJoinRoom request conn req
  | .friendReq req => server.handleFriendRequest request conn req
  | .friendResp req => server.handleFriendResponse request conn req
  | .friendRemove req => server.handleFriendRemove request conn req
  | .recallMsg req => server.handleRecall request conn req
  | .heartbeat _ => server
  | .notSet => server.record (.shutdown conn)

def receive (server : ChatServer) (conn : Conn) (envelope : Envelope) :
    ChatServer :=
  let numbered : ChatServer :=
    { server with
      requests := server.requests + 1
      history := .received server.requests conn envelope :: server.history }
  numbered.onEnvelope server.requests conn envelope

/-! ## Loop callbacks -/

/-- The common part of both login callbacks after a successful login. -/
def loginDone (server : ChatServer) (request : Nat) (conn : Conn)
    (result : LoginResult) (token : String) (now : Nat) : ChatServer :=
  let uid := result.userInfo.uid
  let entered :=
    (server.withSessions
        (server.sessions.authenticate conn uid token)).record
      (.loggedIn request conn result)
  let befriended := entered.withSessions
    (result.friends.foldl (fun sessions friend =>
      sessions.addFriendship uid friend.uid) entered.sessions)
  (((befriended.send conn (ServerReplies.loginReply result token now)
      ).sendPendingRequests conn result.pendingRequests
      ).sendOfflineMessages request conn result.offlineMessages now
      ).sendFriendList conn

def chatDone (server : ChatServer) (request : Nat) (conn : Conn)
    (sender recipient room content : String) (result : SendMessageResult)
    (now : Nat) : ChatServer :=
  if !result.success then
    server.sendError conn 3 result.reason
  else if recipient ≠ "" then
    let echoed :=
      (server.sendAll (ServerReplies.privateRelay server.sessions
          sender recipient content result.msgId now)).send conn
        (ServerReplies.privateChat sender recipient content result.msgId now)
    match server.sessions.getConnection recipient with
    | some _ => echoed
    | none =>
        (echoed.sendError conn 3 "user offline").runInPool request
          (.getMessage recipient result.msgId)
  else if room ≠ "" then
    server.sendAll (ServerReplies.toMembers server.sessions
      (server.rooms.getRoomMembers room)
      (ServerReplies.roomChat sender room content result.msgId now))
  else server

def friendRequestDone (server : ChatServer)
    (sender target message : String) : ChatServer :=
  let pending := server.withSessions
    (server.sessions.addPendingRequest sender target)
  pending.sendAll (ServerReplies.toUser pending.sessions target
    (.friendReq { fromUid := sender, message := message }))

/-- A message for the current connection of `uid`, followed by a fresh friend
list. -/
def notifyWithFriends (server : ChatServer) (uid : String)
    (msg : ServerMessage) : ChatServer :=
  match server.sessions.getConnection uid with
  | none => server
  | some target => (server.send target msg).sendFriendList target

def friendResponseDone (server : ChatServer) (conn : Conn)
    (requester responder : String) (accepted : Bool) : ChatServer :=
  let befriended :=
    if accepted then server.sessions.addFriendship requester responder
    else server.sessions
  let settled := server.withSessions
    (befriended.removePendingRequest requester responder)
  (settled.notifyWithFriends requester
    (.friendResp
      { fromUid := responder, toUid := requester, accepted := accepted })
    ).sendFriendList conn

def friendRemoveDone (server : ChatServer) (conn : Conn)
    (uid target : String) : ChatServer :=
  let parted := server.withSessions
    (server.sessions.removeFriendship uid target)
  (parted.notifyWithFriends target
    (.friendRemove { targetUid := uid })).sendFriendList conn

def recallDone (server : ChatServer) (conn : Conn) (uid : String)
    (msgId : Int) (recipient room : String) (result : RecallResult)
    (now : Nat) : ChatServer :=
  if !result.success then
    server.sendError conn 8 result.reason
  else
    let outgoing :=
      if recipient ≠ "" then
        ServerReplies.toUser server.sessions recipient
          (.recallNotify
            { msgId := ServerReplies.wireId msgId, fromUid := uid,
              toUid := recipient, recallTime := now })
      else if room ≠ "" then
        ServerReplies.toMembers server.sessions
          (server.rooms.getRoomMembers room)
          (.recallNotify
            { msgId := ServerReplies.wireId msgId, fromUid := uid,
              room := room, recallTime := now })
      else []
    (server.sendAll outgoing).send conn
      (.recallNotify
        { msgId := ServerReplies.wireId msgId, fromUid := uid,
          toUid := recipient, room := room, recallTime := now })

def runCallback (server : ChatServer) (request : Nat) (now : Nat) :
    Callback → ChatServer
  | .tokenLogin conn result token =>
      if result.success then server.loginDone request conn result token now
      else server.sendError conn 6 result.reason
  | .login conn result =>
      if result.success then
        server.loginDone request conn result result.token now
      else server.sendError conn 6 result.reason
  | .register conn ok => server.send conn (ServerReplies.registerReply ok)
  | .chat conn sender recipient room content result =>
      server.chatDone request conn sender recipient room content result now
  | .createRoom conn uid name result =>
      if !result.success then server.sendError conn 5 result.reason
      else server.withRooms (server.rooms.createRoom name uid)
  | .joinRoom conn uid roomName result =>
      if !result.success then server.sendError conn 4 result.reason
      else server.withRooms (server.rooms.joinRoom roomName uid)
  | .friendRequest _ sender target message =>
      server.friendRequestDone sender target message
  | .friendResponse conn requester responder accepted =>
      server.friendResponseDone conn requester responder accepted
  | .friendRemove conn uid target =>
      server.friendRemoveDone conn uid target
  | .recallMsg conn uid msgId recipient room result =>
      server.recallDone conn uid msgId recipient room result now

/-! ## Steps -/

inductive Action where
  /-- An envelope arrives on a connection. -/
  | receive (conn : Conn) (envelope : Envelope)
  /-- The codec meets a frame length it refuses. -/
  | invalidLength (conn : Conn)
  /-- The codec meets a payload that is not an envelope. -/
  | parseError (conn : Conn)
  /-- muduo reports the connection as down. -/
  | close (conn : Conn)
  /-- A free worker takes the oldest task. -/
  | start
  /-- A busy worker makes its next repository call and gets an answer. -/
  | call (worker : Nat) (call : RepositoryCall) (answer : call.Answer)
  /-- A worker is done and queues the functor for the loop. -/
  | finish (worker : Nat)
  /-- A loop runs its oldest functor. -/
  | callback (loop : Nat) (now : Nat)

def close (server : ChatServer) (conn : Conn) : ChatServer :=
  (server.withSessions
      ((server.sessions.setDisconnected conn).onDisconnection conn)).record
    (.closed conn)

def startTask (config : ServerConfig) (server : ChatServer) :
    Option ChatServer :=
  match server.queue with
  | [] => none
  | ⟨request, task⟩ :: rest =>
      if server.workers.length < config.threads then
        some { server with
          queue := rest
          workers := server.workers ++
            [⟨request, task, task.program config.nodeId⟩]
          history := .started request task :: server.history }
      else none

def makeCall (server : ChatServer) (index : Nat) (call : RepositoryCall)
    (answer : call.Answer) : Option ChatServer :=
  match server.workers[index]? with
  | none => none
  | some worker =>
      (worker.prog.resume call answer).map fun prog =>
        { server with
          workers := server.workers.set index { worker with prog := prog }
          history := .called worker.request call answer :: server.history }

def queueInLoop (config : ServerConfig) (server : ChatServer)
    (request : Nat) : Option Callback → ChatServer
  | none => server
  | some callback =>
      let loop := config.loopOf callback.conn
      { server with
        loops := Function.update server.loops loop
          (server.loops loop ++ [⟨request, callback⟩]) }

def finishTask (config : ServerConfig) (server : ChatServer)
    (index : Nat) : Option ChatServer :=
  match server.workers[index]? with
  | some ⟨request, _, .ret callback⟩ =>
      some (queueInLoop config
        { server with workers := server.workers.eraseIdx index }
        request callback)
  | _ => none

def loopRound (server : ChatServer) (loop : Nat) (now : Nat) :
    Option ChatServer :=
  match server.loops loop with
  | [] => none
  | ⟨request, callback⟩ :: rest =>
      some (runCallback
        { server with loops := Function.update server.loops loop rest }
        request now callback)

def step (config : ServerConfig) (server : ChatServer) :
    Action → Option ChatServer
  | .receive conn envelope =>
      if server.sessions.connected conn then
        some (server.receive conn envelope)
      else none
  | .invalidLength conn =>
      if server.sessions.connected conn then
        some (server.record (.shutdown conn))
      else none
  | .parseError conn =>
      if server.sessions.connected conn then
        some (server.sendError conn 1 "parse error")
      else none
  | .close conn =>
      if server.sessions.connected conn then some (server.close conn)
      else none
  | .start => server.startTask config
  | .call worker call answer => server.makeCall worker call answer
  | .finish worker => server.finishTask config worker
  | .callback loop now => server.loopRound loop now

def passwordLogin (conn : Conn) (uid passwd token : String) : List Action :=
  [.receive conn (.loginReq { uid := uid, passwd := passwd }),
    .start,
    .call 0 (.verifyUser uid passwd) true,
    .call 0 (.getUserInfo uid) (some { uid := uid }),
    .call 0 .generateToken token,
    .call 0 (.createSession uid token "node-1" 604800) true,
    .call 0 (.getFriendList uid) [],
    .call 0 (.getPendingRequests uid) [],
    .call 0 (.getUndeliveredMessages uid) [],
    .finish 0]

end ChatServer

end MuduoChat
