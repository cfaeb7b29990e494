import MuduoChat.Attribution
import MuduoChat.NodeRequests
import MuduoChat.NodeRooms
import MuduoChat.RecallAudience

/-!
# Who is sent what

Messages leave the server in callbacks, when the logins they were meant for
may be over: a route leads to the last connection that logged in as a user,
and rooms and friends are looked up in copies of what the database said
earlier.  What can be said of every message at any time is what it rests on.
A relayed message has been stored for the user it names as its sender, and it
is sent to nobody but this sender, users who are its recipient and users who
have entered its room; the same goes for the notices of friends and recalls,
and a token is sent to nobody but the client that asked for it.
-/

namespace MuduoChat

namespace ChatServer

/-! ## What a message rests on -/

/-- A login as `uid` has been completed on the connection. -/
def ServedAs (log : List Event) (conn : Conn) (uid : String) : Prop :=
  ∃ request result, .loggedIn request conn result ∈ log ∧
    result.userInfo.uid = uid

/-- A user has asked to create the room or to join it, and the database has
agreed. -/
inductive Entered (log : List Event) (name uid : String) : Prop
  | created (request : ℕ) (conn : Conn) (roomId : Int)
      (hcaused : Caused log request (.createRoom conn uid name))
      (hcreated : 0 < roomId ∧
        .called request (.createRoom name uid) roomId ∈ log)
  | joined (request : ℕ) (conn : Conn) (room : RoomInfo)
      (hcaused : Caused log request (.joinRoom conn uid name))
      (hfound : .called request (.getRoomByName name) (some room) ∈ log)
      (hadded : .called request (.addRoomMember room.roomId uid 0) true ∈ log)

/-- One of the two had the other as a friend when logging in, or one has
accepted a request of the other. -/
inductive Befriended (log : List Event) : String → String → Prop
  | login (request : ℕ) (conn : Conn) (result : LoginResult)
      (friend : UserInfo) (hlogin : .loggedIn request conn result ∈ log)
      (hfriend : friend ∈ result.friends) :
      Befriended log result.userInfo.uid friend.uid
  | accepted (request : ℕ) (conn : Conn) (requester responder : String)
      (hcaused : Caused log request
        (.respondFriendRequest conn requester responder true)) :
      Befriended log requester responder
  | symm {uid friend : String} (hfriends : Befriended log uid friend) :
      Befriended log friend uid

/-- A login on the connection, with what it has read for its user. -/
def LoginRead (log : List Event) (conn : Conn) (result : LoginResult) :
    Prop :=
  ∃ request uid, .loggedIn request conn result ∈ log ∧
    .called request (.getUserInfo uid) (some result.userInfo) ∈ log ∧
    .called request (.getPendingRequests uid) result.pendingRequests ∈ log ∧
    .called request (.getUndeliveredMessages uid)
      result.offlineMessages ∈ log

/-- The message has been stored for its sender. -/
def Written (log : List Event) (msg : ChatMessage) : Prop :=
  ∃ request room msgId,
    .called request
      (.storeMessage msg.sender msg.recipient room msg.content) msgId ∈ log ∧
    0 < msgId ∧ msg.msgId = ServerReplies.wireId msgId ∧
    (msg.room = "" ∨ msg.room = room)

/-- The message is a row that waited for the user of a login. -/
def Queued (log : List Event) (conn : Conn) (msg : ChatMessage) : Prop :=
  ∃ result info now, LoginRead log conn result ∧
    info ∈ result.offlineMessages ∧
    .chatMsg msg = ServerReplies.offlineChat info now

/-- Somebody served on the connection is one of the two users, or has entered
the room. -/
def Concerned (log : List Event) (conn : Conn)
    (sender recipient room : String) : Prop :=
  ServedAs log conn sender ∨ ServedAs log conn recipient ∨
    ∃ uid, ServedAs log conn uid ∧ Entered log room uid

/-- What the record must hold before a message can be sent. -/
def Entitled (log : List Event) (conn : Conn) : ServerMessage → Prop
  | .loginResp resp => resp.token = "" ∨ ∃ request req,
      .received request conn (.loginReq req) ∈ log ∧
        (resp.token = req.token ∨
          .called request .generateToken resp.token ∈ log)
  | .registerResp _ | .error _ => True
  | .chatMsg msg =>
      Written log msg ∧ Concerned log conn msg.sender msg.recipient msg.room ∨
        Queued log conn msg
  | .recallNotify notice =>
      (∃ request msgId,
        .called request (.recallMessage msgId notice.fromUid) true ∈ log ∧
          notice.msgId = ServerReplies.wireId msgId) ∧
        Concerned log conn notice.fromUid notice.toUid notice.room
  | .friendReq req =>
      (∃ uid request other, ServedAs log conn uid ∧ Caused log request
        (.addFriendRequest other req.fromUid uid req.message)) ∨
      ∃ result, LoginRead log conn result ∧
        req.fromUid ∈ result.pendingRequests ∧
        req.toUid = result.userInfo.uid
  | .friendResp resp =>
      ServedAs log conn resp.toUid ∧ ∃ request other, Caused log request
        (.respondFriendRequest other resp.toUid resp.fromUid resp.accepted)
  | .friendRemove req => ∃ uid request other, ServedAs log conn uid ∧
      Caused log request (.removeFriend other req.targetUid uid)
  | .friendList friends =>
      (∃ uid, ServedAs log conn uid) ∧
        ∃ uid, (uid = "" ∨ ServedAs log conn uid) ∧
          ∀ friend ∈ friends, Befriended log uid friend.uid

def Told (older : List Event) : Event → Prop
  | .sent conn msg => Entitled older conn msg
  | _ => True

section Monotonicity

variable {log longer : List Event} {conn : Conn} {uid : String}

theorem ServedAs.mono (hserved : ServedAs log conn uid)
    (hsuffix : log <:+ longer) : ServedAs longer conn uid := by
  obtain ⟨request, result, hlogin, huid⟩ := hserved
  exact ⟨request, result, hsuffix.subset hlogin, huid⟩

theorem Entered.mono {name : String} (hentered : Entered log name uid)
    (hsuffix : log <:+ longer) : Entered longer name uid := by
  cases hentered with
  | created request conn roomId hcaused hcreated =>
      exact .created request conn roomId (hcaused.mono hsuffix)
        ⟨hcreated.1, hsuffix.subset hcreated.2⟩
  | joined request conn room hcaused hfound hadded =>
      exact .joined request conn room (hcaused.mono hsuffix)
        (hsuffix.subset hfound) (hsuffix.subset hadded)

theorem Befriended.mono {friend : String}
    (hfriends : Befriended log uid friend) (hsuffix : log <:+ longer) :
    Befriended longer uid friend := by
  induction hfriends with
  | login request conn result friend hlogin hfriend =>
      exact .login request conn result friend (hsuffix.subset hlogin) hfriend
  | accepted request conn requester responder hcaused =>
      exact .accepted request conn requester responder (hcaused.mono hsuffix)
  | symm _ ih => exact .symm ih

theorem LoginRead.mono {result : LoginResult}
    (hread : LoginRead log conn result) (hsuffix : log <:+ longer) :
    LoginRead longer conn result := by
  obtain ⟨request, uid, hlogin, hinfo, hpending, hmessages⟩ := hread
  exact ⟨request, uid, hsuffix.subset hlogin, hsuffix.subset hinfo,
    hsuffix.subset hpending, hsuffix.subset hmessages⟩

theorem Written.mono {msg : ChatMessage} (hwritten : Written log msg)
    (hsuffix : log <:+ longer) : Written longer msg := by
  obtain ⟨request, room, msgId, hcalled, hrest⟩ := hwritten
  exact ⟨request, room, msgId, hsuffix.subset hcalled, hrest⟩

theorem Queued.mono {msg : ChatMessage} (hqueued : Queued log conn msg)
    (hsuffix : log <:+ longer) : Queued longer conn msg := by
  obtain ⟨result, info, now, hread, hrest⟩ := hqueued
  exact ⟨result, info, now, hread.mono hsuffix, hrest⟩

theorem Concerned.mono {sender recipient room : String}
    (hconcerned : Concerned log conn sender recipient room)
    (hsuffix : log <:+ longer) :
    Concerned longer conn sender recipient room := by
  rcases hconcerned with hsender | hrecipient | ⟨uid, hserved, hentered⟩
  · exact .inl (hsender.mono hsuffix)
  · exact .inr (.inl (hrecipient.mono hsuffix))
  · exact .inr (.inr ⟨uid, hserved.mono hsuffix, hentered.mono hsuffix⟩)

theorem Entitled.mono {msg : ServerMessage} (hentitled : Entitled log conn msg)
    (hsuffix : log <:+ longer) : Entitled longer conn msg := by
  cases msg with
  | loginResp resp =>
      refine hentitled.imp_right ?_
      rintro ⟨request, req, hreceived, htoken⟩
      exact ⟨request, req, hsuffix.subset hreceived,
        htoken.imp_right fun hcalled => hsuffix.subset hcalled⟩
  | registerResp | error => trivial
  | chatMsg msg =>
      rcases hentitled with ⟨hwritten, hconcerned⟩ | hqueued
      · exact .inl ⟨hwritten.mono hsuffix, hconcerned.mono hsuffix⟩
      · exact .inr (hqueued.mono hsuffix)
  | recallNotify notice =>
      obtain ⟨⟨request, msgId, hcalled, hid⟩, hconcerned⟩ := hentitled
      exact ⟨⟨request, msgId, hsuffix.subset hcalled, hid⟩,
        hconcerned.mono hsuffix⟩
  | friendReq req =>
      rcases hentitled with ⟨uid, request, other, hserved, hcaused⟩ |
        ⟨result, hread, hrest⟩
      · exact .inl ⟨uid, request, other, hserved.mono hsuffix,
          hcaused.mono hsuffix⟩
      · exact .inr ⟨result, hread.mono hsuffix, hrest⟩
  | friendResp resp =>
      obtain ⟨hserved, request, other, hcaused⟩ := hentitled
      exact ⟨hserved.mono hsuffix, request, other, hcaused.mono hsuffix⟩
  | friendRemove req =>
      obtain ⟨uid, request, other, hserved, hcaused⟩ := hentitled
      exact ⟨uid, request, other, hserved.mono hsuffix,
        hcaused.mono hsuffix⟩
  | friendList friends =>
      obtain ⟨⟨user, huser⟩, uid, hserved, hfriends⟩ := hentitled
      exact ⟨⟨user, huser.mono hsuffix⟩, uid,
        hserved.imp_right fun hserved => hserved.mono hsuffix,
        fun friend hfriend => (hfriends friend hfriend).mono hsuffix⟩

end Monotonicity

/-! ## What a callback rests on -/

section Backing

open Prog

variable {calls : List (Sigma RepositoryCall.Answer)}

/-- What a successful login has read for the user whose record it returns. -/
def ReadBy (calls : List (Sigma RepositoryCall.Answer))
    (result : LoginResult) : Prop :=
  ∃ uid, ⟨.getUserInfo uid, some result.userInfo⟩ ∈ calls ∧
    ⟨.getPendingRequests uid, result.pendingRequests⟩ ∈ calls ∧
    ⟨.getUndeliveredMessages uid, result.offlineMessages⟩ ∈ calls

/-- The calls behind what a callback carries besides the fields of its
task. -/
def Backed (calls : List (Sigma RepositoryCall.Answer)) : Callback → Prop
  | .tokenLogin _ result _ => result.success = true → ReadBy calls result
  | .login _ result => result.success = true →
      ReadBy calls result ∧ ⟨.generateToken, result.token⟩ ∈ calls
  | .chat _ sender recipient room content result =>
      result.success = true → 0 < result.msgId ∧
        ⟨.storeMessage sender recipient room content, result.msgId⟩ ∈ calls
  | .createRoom _ uid name result => result.success = true →
      ∃ roomId : Int, 0 < roomId ∧ ⟨.createRoom name uid, roomId⟩ ∈ calls
  | .joinRoom _ uid name result => result.success = true →
      ∃ room, ⟨.getRoomByName name, some room⟩ ∈ calls ∧
        ⟨.addRoomMember room.roomId uid 0, true⟩ ∈ calls
  | .recallMsg _ uid msgId _ _ result => result.success = true →
      ⟨.recallMessage msgId uid, true⟩ ∈ calls
  | _ => True

theorem readBy_collect (uid token : String) (userInfo : UserInfo) :
    (LoginService.collect uid token userInfo).Ensures fun calls result =>
      result.userInfo = userInfo ∧ result.token = token ∧
        ⟨.getPendingRequests uid, result.pendingRequests⟩ ∈ calls ∧
        ⟨.getUndeliveredMessages uid, result.offlineMessages⟩ ∈ calls := by
  simp [LoginService.collect, repository]

theorem readBy_login (uid passwd nodeId : String) :
    (LoginService.login uid passwd nodeId).Ensures fun calls result =>
      result.success = true →
        ReadBy calls result ∧ ⟨.generateToken, result.token⟩ ∈ calls := by
  simp only [LoginService.login, repository, request_bind, ensures_call]
  intro verified
  split
  · simp
  simp only [ensures_call]
  intro found
  cases found with
  | none => simp
  | some userInfo =>
      simp only [ensures_call]
      intro token sessionOk
      split
      · simp
      intro calls result hreaches _
      obtain ⟨rfl, rfl, hpending, hmessages⟩ :=
        readBy_collect uid token userInfo calls result hreaches
      exact ⟨⟨uid, by simp, by simp [hpending], by simp [hmessages]⟩,
        by simp⟩

theorem readBy_loginWithToken (token nodeId : String) :
    (LoginService.loginWithToken token nodeId).Ensures fun calls result =>
      result.success = true → ReadBy calls result := by
  simp only [LoginService.loginWithToken, repository, request_bind,
    ensures_call]
  intro found
  cases found with
  | none => simp
  | some session =>
      simp only [ensures_call]
      intro _ found
      cases found with
      | none => simp
      | some userInfo =>
          intro calls result hreaches _
          obtain ⟨rfl, -, hpending, hmessages⟩ := readBy_collect session.uid
            token userInfo calls result hreaches
          exact ⟨session.uid, by simp, by simp [hpending],
            by simp [hmessages]⟩

theorem stored_sendMessage (sender recipient room content : String) :
    (ChatService.sendMessage sender recipient room content).Ensures
      fun calls result => result.success = true → 0 < result.msgId ∧
        ⟨.storeMessage sender recipient room content, result.msgId⟩ ∈
          calls := by
  simp only [ChatService.sendMessage, repository, request_bind, ensures_call]
  intro msgId
  split
  · simp
  · rename_i hid
    simpa using not_le.mp hid

theorem created_createRoom (name creator : String) :
    (RoomService.createRoom name creator).Ensures fun calls result =>
      result.success = true → ∃ roomId : Int, 0 < roomId ∧
        ⟨.createRoom name creator, roomId⟩ ∈ calls := by
  simp only [RoomService.createRoom, repository, request_bind, ensures_call]
  intro taken
  split
  · simp
  simp only [ensures_call]
  intro roomId
  split
  · simp
  · rename_i hid
    simp only [ensures_call, pure_eq, ensures_ret]
    intro added _
    exact ⟨roomId, not_le.mp hid, by simp⟩

theorem joined_joinRoom (name uid : String) :
    (RoomService.joinRoom name uid).Ensures fun calls result =>
      result.success = true → ∃ room,
        ⟨.getRoomByName name, some room⟩ ∈ calls ∧
          ⟨.addRoomMember room.roomId uid 0, true⟩ ∈ calls := by
  simp only [RoomService.joinRoom, repository, request_bind, ensures_call]
  intro found
  cases found with
  | none => simp
  | some room =>
      simp only [ensures_call, pure_eq, ensures_ret]
      intro added hadded
      cases hadded
      exact ⟨room, by simp, by simp⟩

theorem recalled_recallMessage (msgId : Int)
    (uid recipient room : String) :
    (ChatService.recallMessage msgId uid recipient room).Ensures
      fun calls result => result.success = true →
        ⟨.recallMessage msgId uid, true⟩ ∈ calls := by
  simp only [ChatService.recallMessage, repository, request_bind,
    ensures_call]
  intro found
  cases found with
  | none => simp
  | some info =>
      dsimp only
      split
      · simp
      simp only [ensures_call]
      intro now instant
      split
      · simp
      simp only [ensures_call]
      intro recalled
      split
      · simp
      · rename_i hrecalled
        simp_all

theorem completes_program (nodeId : String) (task : Task) :
    (task.program nodeId).Ensures fun calls callback =>
      ∀ done, callback = some done →
        Completes task done ∧ Backed calls done := by
  have hfinish {α : Type} {service : ServiceProg α}
      {finish : α → Option Callback}
      {post : List (Sigma RepositoryCall.Answer) → α → Prop}
      (hservice : service.Ensures post)
      (hdone : ∀ calls value done, post calls value →
        finish value = some done →
          Completes task done ∧ Backed calls done) :
      (service >>= fun value => pure (finish value)).Ensures
        fun calls callback => ∀ done, callback = some done →
          Completes task done ∧ Backed calls done := by
    refine hservice.bind fun calls value hvalue => ?_
    rw [pure_eq, ensures_ret, List.append_nil]
    exact fun done hcallback => hdone calls value done hvalue hcallback
  have hany {α : Type} (service : ServiceProg α) :
      service.Ensures fun _ _ => True := fun _ _ _ => trivial
  cases task with
  | logout | getMessage | markMessagesDelivered =>
      exact hfinish (hany _) fun _ _ _ _ hdone => by cases hdone
  | loginWithToken conn token =>
      refine hfinish (readBy_loginWithToken token nodeId) ?_
      rintro calls result _ hread ⟨⟩
      exact ⟨.loginWithToken conn token result, hread⟩
  | login conn uid passwd =>
      refine hfinish (readBy_login uid passwd nodeId) ?_
      rintro calls result _ hread ⟨⟩
      exact ⟨.login conn uid passwd result, hread⟩
  | registerUser conn uid passwd nickname email =>
      refine hfinish (hany _) ?_
      rintro calls ok _ - ⟨⟩
      exact ⟨.registerUser conn uid passwd nickname email ok, trivial⟩
  | sendMessage conn sender recipient room content =>
      refine hfinish (stored_sendMessage sender recipient room content) ?_
      rintro calls result _ hstored ⟨⟩
      exact ⟨.sendMessage conn sender recipient room content result, hstored⟩
  | createRoom conn uid name =>
      refine hfinish (created_createRoom name uid) ?_
      rintro calls result _ hcreated ⟨⟩
      exact ⟨.createRoom conn uid name result, hcreated⟩
  | joinRoom conn uid name =>
      refine hfinish (joined_joinRoom name uid) ?_
      rintro calls result _ hjoined ⟨⟩
      exact ⟨.joinRoom conn uid name result, hjoined⟩
  | addFriendRequest conn sender target message =>
      refine hfinish (hany _) ?_
      rintro calls result _ - ⟨⟩
      exact ⟨.addFriendRequest conn sender target message, trivial⟩
  | respondFriendRequest conn requester responder accepted =>
      refine hfinish (hany _) ?_
      rintro calls result _ - ⟨⟩
      exact ⟨.respondFriendRequest conn requester responder accepted, trivial⟩
  | removeFriend conn uid target =>
      refine hfinish (hany _) ?_
      rintro calls result _ - ⟨⟩
      exact ⟨.removeFriend conn uid target, trivial⟩
  | recallMessage conn uid msgId recipient room =>
      refine hfinish (recalled_recallMessage msgId uid recipient room) ?_
      rintro calls result _ hrecalled ⟨⟩
      exact ⟨.recallMessage conn uid msgId recipient room result, hrecalled⟩

/-- The callback completes a task that was asked for, with answers that are
on record. -/
def Made (log : List Event) (request : ℕ) (callback : Callback) : Prop :=
  ∃ task calls, Caused log request task ∧ Completes task callback ∧
    Backed calls callback ∧
      ∀ entry ∈ calls, .called request entry.1 entry.2 ∈ log

theorem Progressed.made {config : ServerConfig} {log : List Event}
    {request : ℕ} {callback : Callback}
    (hprogressed : Progressed config log request (.ret (some callback))) :
    Made log request callback := by
  obtain ⟨task, calls, hcaused, hreaches, hcalls⟩ := hprogressed
  obtain ⟨hcompletes, hbacked⟩ :=
    completes_program config.nodeId task calls _ hreaches callback rfl
  exact ⟨task, calls, hcaused, hcompletes, hbacked, hcalls⟩

/-- Requests of users come from connections they are logged in on. -/
theorem Caused.servedAs {log : List Event} {request : ℕ} {task : Task}
    {conn : Conn} (user : String → Prop) (hcaused : Caused log request task)
    (hfollow : ¬ task.IsFollowUp)
    (huser : ∀ login envelope other, Requests login other envelope task →
      other = conn ∧ ∃ uid, login = some uid ∧ user uid) :
    ∃ uid, ServedAs log conn uid ∧ user uid := by
  obtain ⟨other, envelope, older, hreceived, hrequests⟩ :=
    hcaused.resolve_left hfollow
  obtain ⟨rfl, uid, hlogin, huid⟩ := huser _ _ _ hrequests
  obtain ⟨number, result, before, ⟨-, newer, rfl, -⟩, hresult⟩ :=
    latestAuth_of_loginOf hlogin
  exact ⟨uid, ⟨number, result, hreceived.subset (by simp), hresult⟩, huid⟩

end Backing

/-! ## Servers on record -/

/-- Routes, rooms and friends rest on the record, and so does everything that
has been sent since. -/
structure Traced (log : List Event) (server : ChatServer) : Prop where
  users : ∀ uid conn, server.sessions.users uid = some conn →
    ServedAs log conn uid
  contexts : ∀ conn, server.sessions.getUid conn = "" ∨
    ServedAs log conn (server.sessions.getUid conn)
  members : ∀ name uid, uid ∈ server.rooms.getRoomMembers name →
    Entered log name uid
  friends : ∀ uid friend, friend ∈ server.sessions.friendships uid →
    Befriended log uid friend
  history : ∃ newer, server.history = newer ++ log ∧
    ∀ conn msg, .sent conn msg ∈ newer → Entitled log conn msg

section Tracing

variable {log : List Event} {server : ChatServer}

theorem Traced.send (htraced : Traced log server) {conn : Conn}
    {msg : ServerMessage} (hmsg : Entitled log conn msg) :
    Traced log (server.send conn msg) := by
  obtain ⟨newer, hhistory, hnewer⟩ := htraced.history
  refine { htraced with history := ⟨.sent conn msg :: newer, ?_, ?_⟩ }
  · rw [List.cons_append, ← hhistory]
    rfl
  · intro other sent hsent
    rcases List.mem_cons.mp hsent with hnew | hold
    · cases hnew
      exact hmsg
    · exact hnewer other sent hold

theorem Traced.foldl {Item : Type} {act : ChatServer → Item → ChatServer}
    {items : List Item} (htraced : Traced log server)
    (hact : ∀ server, Traced log server → ∀ item ∈ items,
      Traced log (act server item)) :
    Traced log (items.foldl act server) := by
  induction items generalizing server with
  | nil => exact htraced
  | cons item rest ih =>
      apply ih (hact server htraced item List.mem_cons_self)
      intro other hother next hnext
      exact hact other hother next (List.mem_cons_of_mem item hnext)

theorem Traced.sendAll (htraced : Traced log server)
    {outgoing : List Outgoing}
    (houtgoing : ∀ out ∈ outgoing, Entitled log out.1 out.2) :
    Traced log (server.sendAll outgoing) :=
  htraced.foldl fun _ hserver out hout => hserver.send (houtgoing out hout)

theorem Traced.runInPool (htraced : Traced log server) (request : ℕ)
    (task : Task) : Traced log (server.runInPool request task) :=
  ⟨htraced.users, htraced.contexts, htraced.members, htraced.friends,
    htraced.history⟩

theorem getUid_of_conns {manager next : SessionManager}
    (hconns : next.conns = manager.conns) (conn : Conn) :
    next.getUid conn = manager.getUid conn := by
  rw [SessionManager.getUid, SessionManager.getUid,
    SessionManager.getContext, SessionManager.getContext, hconns]

theorem getUid_authenticate (manager : SessionManager) (conn other : Conn)
    (uid token : String) :
    (manager.authenticate conn uid token).getUid other =
      if other = conn then uid else manager.getUid other := by
  rw [SessionManager.getUid, SessionManager.getContext_authenticate]
  split_ifs
  · rfl
  · rfl

/-- Routes and contexts may go. -/
theorem Traced.narrow (htraced : Traced log server)
    {sessions : SessionManager}
    (husers : ∀ uid conn, sessions.users uid = some conn →
      server.sessions.users uid = some conn)
    (huids : ∀ conn, sessions.getUid conn = "" ∨
      sessions.getUid conn = server.sessions.getUid conn)
    (hfriends : ∀ uid friend, friend ∈ sessions.friendships uid →
      Befriended log uid friend) :
    Traced log (server.withSessions sessions) where
  users uid conn hconn := htraced.users uid conn (husers uid conn hconn)
  contexts conn := by
    rcases huids conn with hempty | hsame
    · exact .inl hempty
    · show sessions.getUid conn = "" ∨
        ServedAs log conn (sessions.getUid conn)
      rw [hsame]
      exact htraced.contexts conn
  members := htraced.members
  friends := hfriends
  history := htraced.history

theorem Traced.withSessions (htraced : Traced log server)
    {sessions : SessionManager}
    (husers : sessions.users = server.sessions.users)
    (hconns : sessions.conns = server.sessions.conns)
    (hfriends : ∀ uid friend, friend ∈ sessions.friendships uid →
      Befriended log uid friend) :
    Traced log (server.withSessions sessions) :=
  htraced.narrow (fun _ _ hconn => husers ▸ hconn)
    (fun conn => .inr (getUid_of_conns hconns conn)) hfriends

theorem Traced.withRooms (htraced : Traced log server) {rooms : RoomManager}
    (hrooms : ∀ name uid, uid ∈ rooms.getRoomMembers name →
      uid ∈ server.rooms.getRoomMembers name ∨ Entered log name uid) :
    Traced log (server.withRooms rooms) := by
  refine { htraced with members := fun name uid hmember => ?_ }
  rcases hrooms name uid hmember with hold | hnew
  · exact htraced.members name uid hold
  · exact hnew

theorem Traced.addFriendship (htraced : Traced log server)
    {uid friend : String} (hnew : Befriended log uid friend) :
    Traced log (server.withSessions
      (server.sessions.addFriendship uid friend)) := by
  refine htraced.withSessions rfl rfl fun first second hmem => ?_
  rcases SessionManager.mem_addFriendship.mp hmem with hold | hpair
  · exact htraced.friends first second hold
  · rcases Sym2.eq_iff.mp hpair with ⟨rfl, rfl⟩ | ⟨rfl, rfl⟩
    · exact hnew
    · exact hnew.symm

theorem Traced.removeFriendship (htraced : Traced log server)
    (uid friend : String) :
    Traced log (server.withSessions
      (server.sessions.removeFriendship uid friend)) :=
  htraced.withSessions rfl rfl fun first second hmem =>
    htraced.friends first second
      (SessionManager.mem_removeFriendship.mp hmem).1

theorem Traced.sendFriendList (htraced : Traced log server) {conn : Conn}
    (hconn : ∃ uid, ServedAs log conn uid) :
    Traced log (server.sendFriendList conn) := by
  refine htraced.send ⟨hconn, _, htraced.contexts conn, ?_⟩
  intro friend hfriend
  obtain ⟨uid, huid, rfl⟩ := List.mem_map.mp hfriend
  exact htraced.friends _ uid huid

theorem Traced.servedAs_of_toUser (htraced : Traced log server)
    {uid : String} {msg : ServerMessage} {out : Outgoing}
    (hout : out ∈ ServerReplies.toUser server.sessions uid msg) :
    ServedAs log out.1 uid ∧ out.2 = msg := by
  obtain ⟨hconn, hmsg⟩ := mem_toUser.mp hout
  exact ⟨htraced.users uid out.1 hconn, hmsg⟩

theorem Traced.concerned_of_toMembers (htraced : Traced log server)
    {sender recipient room : String} {msg : ServerMessage} {out : Outgoing}
    (hout : out ∈ ServerReplies.toMembers server.sessions
      (server.rooms.getRoomMembers room) msg) :
    Concerned log out.1 sender recipient room ∧ out.2 = msg := by
  obtain ⟨⟨member, hmember, hconn⟩, hmsg⟩ := mem_toMembers.mp hout
  exact ⟨.inr (.inr ⟨member, htraced.users member out.1 hconn,
    htraced.members room member hmember⟩), hmsg⟩

/-- A message to the connection of a user, and a friend list after it. -/
theorem Traced.notifyWithFriends (htraced : Traced log server)
    {uid : String} {msg : ServerMessage}
    (hmsg : ∀ conn, ServedAs log conn uid → Entitled log conn msg) :
    Traced log (server.notifyWithFriends uid msg) := by
  unfold ChatServer.notifyWithFriends
  cases hconn : server.sessions.getConnection uid with
  | none => exact htraced
  | some conn =>
      have hserved : ServedAs log conn uid := htraced.users uid conn hconn
      exact (htraced.send (hmsg conn hserved)).sendFriendList ⟨uid, hserved⟩

/-- What was said by the time of the record stays true later. -/
theorem Traced.onward (htraced : Traced log server) {next : ChatServer}
    {newer : List Event} (hsessions : next.sessions = server.sessions)
    (hrooms : next.rooms = server.rooms)
    (hhistory : next.history = newer ++ log) :
    Traced next.history next := by
  have hsuffix : log <:+ next.history := ⟨newer, hhistory.symm⟩
  refine ⟨?_, ?_, ?_, ?_, [], rfl, fun _ _ hsent => absurd hsent (by simp)⟩
  · rw [hsessions]
    exact fun uid conn hconn => (htraced.users uid conn hconn).mono hsuffix
  · rw [hsessions]
    exact fun conn =>
      (htraced.contexts conn).imp_right fun hserved => hserved.mono hsuffix
  · rw [hrooms]
    exact fun name uid huid => (htraced.members name uid huid).mono hsuffix
  · rw [hsessions]
    exact fun uid friend hmem =>
      (htraced.friends uid friend hmem).mono hsuffix

/-! ## Callbacks -/

section Done

variable {request now : ℕ} {conn : Conn}

theorem Traced.sendPendingRequests (htraced : Traced log server)
    {requests : List String} (hrequests : ∀ requester ∈ requests,
      Entitled log conn (ServerReplies.pendingRequest requester
        (server.sessions.getUid conn))) :
    Traced log (server.sendPendingRequests conn requests) := by
  refine htraced.foldl fun next hnext requester hrequester => ?_
  have hadded : Traced log (next.withSessions
      (next.sessions.addPendingRequest requester
        (server.sessions.getUid conn))) :=
    hnext.withSessions rfl rfl hnext.friends
  exact hadded.send (hrequests requester hrequester)

theorem Traced.sendOfflineMessages (htraced : Traced log server)
    {messages : List MessageInfo} (hmessages : ∀ info ∈ messages,
      Entitled log conn (ServerReplies.offlineChat info now)) :
    Traced log (server.sendOfflineMessages request conn messages now) := by
  have hpushed : Traced log (server.sendAll
      (messages.map fun info =>
        (conn, ServerReplies.offlineChat info now))) := by
    refine htraced.sendAll fun out hout => ?_
    obtain ⟨info, hinfo, rfl⟩ := List.mem_map.mp hout
    exact hmessages info hinfo
  unfold ChatServer.sendOfflineMessages
  dsimp only
  split
  · exact hpushed
  · exact hpushed.runInPool request _

theorem befriended_foldl {uid : String} {friends : List UserInfo}
    {sessions : SessionManager}
    (hsessions : ∀ first second, second ∈ sessions.friendships first →
      Befriended log first second)
    (hfriends : ∀ friend ∈ friends, Befriended log uid friend.uid) :
    ∀ first second, second ∈ (friends.foldl (fun sessions friend =>
      sessions.addFriendship uid friend.uid) sessions).friendships first →
        Befriended log first second := by
  induction friends generalizing sessions with
  | nil => exact hsessions
  | cons friend rest ih =>
      obtain ⟨hfriend, hrest⟩ := List.forall_mem_cons.mp hfriends
      refine ih (fun first second hmem => ?_) hrest
      rcases SessionManager.mem_addFriendship.mp hmem with hold | hpair
      · exact hsessions first second hold
      · rcases Sym2.eq_iff.mp hpair with ⟨rfl, rfl⟩ | ⟨rfl, rfl⟩
        · exact hfriend
        · exact hfriend.symm

/-- A login has its own entry in the record before anything is sent. -/
theorem Traced.entered {older : List Event} {result : LoginResult}
    {token : String} (htraced : Traced older server)
    (hlog : log = .loggedIn request conn result :: server.history) :
    Traced log (server.enter request (some (conn, result, token))) := by
  have hsuffix : older <:+ log := by
    obtain ⟨newer, hhistory, -⟩ := htraced.history
    exact ⟨.loggedIn request conn result :: newer, by simp [hlog, hhistory]⟩
  have hserved : ServedAs log conn result.userInfo.uid :=
    ⟨request, result, by simp [hlog], rfl⟩
  refine ⟨?_, ?_, fun name uid huid => ?_, fun uid friend hmem => ?_,
    [], hlog.symm, fun _ _ hsent => absurd hsent (by simp)⟩
  · intro uid other hother
    have husers : (server.sessions.authenticate conn result.userInfo.uid
        token).users uid = some other := hother
    rw [SessionManager.users_authenticate] at husers
    split_ifs at husers with huid
    · cases husers
      exact huid ▸ hserved
    · exact (htraced.users uid other husers).mono hsuffix
  · intro other
    let sessions :=
      server.sessions.authenticate conn result.userInfo.uid token
    show sessions.getUid other = "" ∨
      ServedAs log other (sessions.getUid other)
    rw [getUid_authenticate]
    split_ifs with hother
    · exact .inr (hother ▸ hserved)
    · exact (htraced.contexts other).imp_right fun hold => hold.mono hsuffix
  · exact (htraced.members name uid huid).mono hsuffix
  · exact (htraced.friends uid friend hmem).mono hsuffix

theorem Traced.loginDone {older : List Event} {result : LoginResult}
    {token : String} (htraced : Traced older server)
    (hlog : log = .loggedIn request conn result :: server.history)
    (hread : LoginRead log conn result)
    (htoken : Entitled log conn (ServerReplies.loginReply result token now)) :
    Traced log (server.loginDone request conn result token now) := by
  have hlogin : .loggedIn request conn result ∈ log := by simp [hlog]
  have hserved : ∃ uid, ServedAs log conn uid :=
    ⟨result.userInfo.uid, request, result, hlogin, rfl⟩
  let entered := server.enter request (some (conn, result, token))
  have hentered : Traced log entered := htraced.entered hlog
  let befriended := result.friends.foldl (fun sessions friend =>
    sessions.addFriendship result.userInfo.uid friend.uid) entered.sessions
  obtain ⟨husers, hconns⟩ := foldl_addFriendship_frame
    result.userInfo.uid result.friends entered.sessions
  have huid : befriended.getUid conn = result.userInfo.uid := by
    rw [getUid_of_conns hconns]
    exact (getUid_authenticate server.sessions conn conn
      result.userInfo.uid token).trans (if_pos rfl)
  let replied := (entered.withSessions befriended).send conn
    (ServerReplies.loginReply result token now)
  have hreplied : Traced log replied :=
    (hentered.withSessions husers hconns
      (befriended_foldl hentered.friends fun friend hfriend =>
        .login request conn result friend hlogin hfriend)).send htoken
  let asked := replied.sendPendingRequests conn result.pendingRequests
  have hasked : Traced log asked :=
    hreplied.sendPendingRequests fun requester hrequester =>
      .inr ⟨result, hread, hrequester, huid⟩
  have hpushed : Traced log (asked.sendOfflineMessages request conn
      result.offlineMessages now) :=
    hasked.sendOfflineMessages fun info hinfo =>
      .inr ⟨result, info, now, hread, hinfo, rfl⟩
  exact hpushed.sendFriendList hserved

theorem Traced.chatDone {sender recipient room content : String}
    {result : SendMessageResult} (htraced : Traced log server)
    (hserved : ServedAs log conn sender)
    (hstored : result.success = true → 0 < result.msgId ∧
      .called request (.storeMessage sender recipient room content)
        result.msgId ∈ log) :
    Traced log (server.chatDone request conn sender recipient room content
      result now) := by
  unfold ChatServer.chatDone
  cases hsuccess : result.success with
  | false => exact htraced.send trivial
  | true =>
      obtain ⟨hid, hcalled⟩ := hstored hsuccess
      simp only [Bool.not_true, Bool.false_eq_true, if_false]
      by_cases hrecipient : recipient = ""
      · subst hrecipient
        simp only [ne_eq, not_true_eq_false, if_false]
        split
        · refine htraced.sendAll fun out hout => ?_
          obtain ⟨hconcerned, hmsg⟩ := htraced.concerned_of_toMembers hout
          rw [hmsg]
          exact .inl ⟨⟨request, room, result.msgId, hcalled, hid, rfl,
            .inr rfl⟩, hconcerned⟩
        · exact htraced
      · rw [if_pos hrecipient]
        have hwritten : Written log
            { sender := sender, recipient := recipient, content := content,
              msgId := ServerReplies.wireId result.msgId,
              timestamp := now } :=
          ⟨request, room, result.msgId, hcalled, hid, rfl, .inl rfl⟩
        have hrelayed : Traced log (server.sendAll
            (ServerReplies.privateRelay server.sessions sender recipient
              content result.msgId now)) := by
          refine htraced.sendAll fun out hout => ?_
          obtain ⟨hrelay, hmsg⟩ := htraced.servedAs_of_toUser hout
          rw [hmsg]
          exact .inl ⟨hwritten, .inr (.inl hrelay)⟩
        have hechoed : Traced log ((server.sendAll
            (ServerReplies.privateRelay server.sessions sender recipient
              content result.msgId now)).send conn
            (ServerReplies.privateChat sender recipient content
              result.msgId now)) :=
          hrelayed.send (.inl ⟨hwritten, .inl hserved⟩)
        split
        · exact hechoed
        · have herror : Entitled log conn
              (ServerReplies.errorReply 3 "user offline") := trivial
          exact (hechoed.send herror).runInPool request _

theorem Traced.friendRequestDone {sender target message : String}
    (htraced : Traced log server) (hcaused : Caused log request
      (.addFriendRequest conn sender target message)) :
    Traced log (server.friendRequestDone sender target message) := by
  have hpending : Traced log (server.withSessions
      (server.sessions.addPendingRequest sender target)) :=
    htraced.withSessions rfl rfl htraced.friends
  refine hpending.sendAll fun out hout => ?_
  obtain ⟨hserved, hmsg⟩ := hpending.servedAs_of_toUser hout
  rw [hmsg]
  exact .inl ⟨target, request, conn, hserved, hcaused⟩

theorem Traced.friendResponseDone {requester responder : String}
    {accepted : Bool} (htraced : Traced log server)
    (hcaused : Caused log request
      (.respondFriendRequest conn requester responder accepted))
    (hserved : ∃ uid, ServedAs log conn uid) :
    Traced log (server.friendResponseDone conn requester responder
      accepted) := by
  let settled := server.withSessions ((if accepted = true then
    server.sessions.addFriendship requester responder
      else server.sessions).removePendingRequest requester responder)
  have hsettled : Traced log settled := by
    cases accepted with
    | true =>
        have hfriends := (htraced.addFriendship
          (.accepted request conn requester responder hcaused)).friends
        exact htraced.withSessions rfl rfl hfriends
    | false => exact htraced.withSessions rfl rfl htraced.friends
  have htold : Traced log (settled.notifyWithFriends requester
      (.friendResp
        { fromUid := responder, toUid := requester,
          accepted := accepted })) :=
    hsettled.notifyWithFriends fun _ hrequester =>
      ⟨hrequester, request, conn, hcaused⟩
  exact htold.sendFriendList hserved

theorem Traced.friendRemoveDone {uid target : String}
    (htraced : Traced log server)
    (hcaused : Caused log request (.removeFriend conn uid target))
    (hserved : ∃ uid, ServedAs log conn uid) :
    Traced log (server.friendRemoveDone conn uid target) := by
  have htold : Traced log ((server.withSessions
      (server.sessions.removeFriendship uid target)).notifyWithFriends
        target (.friendRemove { targetUid := uid })) :=
    (htraced.removeFriendship uid target).notifyWithFriends
      fun _ htarget => ⟨target, request, conn, htarget, hcaused⟩
  exact htold.sendFriendList hserved

theorem Traced.recallDone {uid recipient room : String} {msgId : Int}
    {result : RecallResult} (htraced : Traced log server)
    (hserved : ServedAs log conn uid)
    (hrecalled : result.success = true →
      .called request (.recallMessage msgId uid) true ∈ log) :
    Traced log (server.recallDone conn uid msgId recipient room result
      now) := by
  unfold ChatServer.recallDone
  cases hsuccess : result.success with
  | false => exact htraced.send trivial
  | true =>
      have hcalled : ∃ request key,
          .called request (.recallMessage key uid) true ∈ log ∧
            ServerReplies.wireId msgId = ServerReplies.wireId key :=
        ⟨request, msgId, hrecalled hsuccess, rfl⟩
      refine Traced.send (htraced.sendAll fun out hout => ?_)
        ⟨hcalled, .inl hserved⟩
      split_ifs at hout with hrecipient hroom
      · obtain ⟨hnotified, hmsg⟩ := htraced.servedAs_of_toUser hout
        rw [hmsg]
        exact ⟨hcalled, .inr (.inl hnotified)⟩
      · obtain ⟨hconcerned, hmsg⟩ := htraced.concerned_of_toMembers hout
        rw [hmsg]
        exact ⟨hcalled, hconcerned⟩
      · cases hout

/-- The record and the server at the end of a step. -/
structure Kept (server : ChatServer) : Prop where
  traced : Traced server.history server
  told : Runs.Justified Told server.history

theorem Traced.kept (htraced : Traced log server)
    (htold : Runs.Justified Told log) : Kept server := by
  obtain ⟨newer, hhistory, hnewer⟩ := htraced.history
  refine ⟨htraced.onward rfl rfl hhistory, ?_⟩
  rw [hhistory]
  clear hhistory
  induction newer with
  | nil => exact htold
  | cons event rest ih =>
      refine Runs.justified_cons.mpr ⟨?_, ih fun conn msg hsent =>
        hnewer conn msg (List.mem_cons_of_mem event hsent)⟩
      cases event with
      | sent conn msg =>
          exact (hnewer conn msg List.mem_cons_self).mono
            (List.suffix_append rest log)
      | _ => trivial

theorem loginRead_of_readBy {older : List Event}
    {calls : List (Sigma RepositoryCall.Answer)} {result : LoginResult}
    (hread : ReadBy calls result)
    (hcalls : ∀ entry ∈ calls, .called request entry.1 entry.2 ∈ older) :
    LoginRead (.loggedIn request conn result :: older) conn result := by
  obtain ⟨uid, hinfo, hpending, hmessages⟩ := hread
  exact ⟨request, uid, List.mem_cons_self,
    List.mem_cons_of_mem _ (hcalls _ hinfo),
    List.mem_cons_of_mem _ (hcalls _ hpending),
    List.mem_cons_of_mem _ (hcalls _ hmessages)⟩

/-- The token of a login reply is the one the client has presented or the one
drawn for its request. -/
theorem Kept.loginDone {result : LoginResult} {token : String}
    {envelope : Envelope} {older : List Event}
    {calls : List (Sigma RepositoryCall.Answer)} (hkept : Kept server)
    (hread : ReadBy calls result)
    (hcalls : ∀ entry ∈ calls,
      .called request entry.1 entry.2 ∈ server.history)
    (hreceived : .received request conn envelope :: older <:+ server.history)
    (htoken : ∃ req, envelope = .loginReq req ∧ (token = req.token ∨
      .called request .generateToken token ∈ server.history)) :
    Kept (server.loginDone request conn result token now) := by
  obtain ⟨req, rfl, htoken⟩ := htoken
  have hlogged : Runs.Justified Told
      (.loggedIn request conn result :: server.history) :=
    Runs.justified_cons.mpr ⟨trivial, hkept.told⟩
  refine Traced.kept (hkept.traced.loginDone rfl
    (loginRead_of_readBy hread hcalls) (.inr ⟨request, req, ?_, ?_⟩)) hlogged
  · exact List.mem_cons_of_mem _ (hreceived.subset List.mem_cons_self)
  · exact htoken.imp_right fun hcalled => List.mem_cons_of_mem _ hcalled

theorem Kept.runCallback (hkept : Kept server) {callback : Callback}
    (hmade : Made server.history request callback) :
    Kept (server.runCallback request now callback) := by
  have htraced := hkept.traced
  have herror (conn : Conn) (code : ℕ) (reason : String) :
      Kept (server.sendError conn code reason) :=
    Traced.kept (htraced.send trivial) hkept.told
  obtain ⟨task, calls, hcaused, hcompletes, hbacked, hcalls⟩ := hmade
  cases hcompletes with
  | loginWithToken conn token result =>
      obtain ⟨other, envelope, older, hreceived, hrequests⟩ :=
        hcaused.resolve_left id
      cases hsuccess : result.success with
      | false => simpa [ChatServer.runCallback, hsuccess] using herror conn 6 _
      | true =>
          cases hrequests with
          | tokenLogin req htoken =>
              simp only [ChatServer.runCallback, hsuccess, if_true]
              exact hkept.loginDone (hbacked hsuccess) hcalls hreceived
                ⟨req, rfl, .inl rfl⟩
  | login conn uid passwd result =>
      obtain ⟨other, envelope, older, hreceived, hrequests⟩ :=
        hcaused.resolve_left id
      cases hsuccess : result.success with
      | false => simpa [ChatServer.runCallback, hsuccess] using herror conn 6 _
      | true =>
          obtain ⟨hread, htoken⟩ := hbacked hsuccess
          cases hrequests with
          | login req =>
              simp only [ChatServer.runCallback, hsuccess, if_true]
              exact hkept.loginDone hread hcalls hreceived
                ⟨req, rfl, .inr (hcalls _ htoken)⟩
  | registerUser conn uid passwd nickname email ok =>
      exact Traced.kept (htraced.send trivial) hkept.told
  | sendMessage conn sender recipient room content result =>
      obtain ⟨_, hserved, rfl⟩ := hcaused.servedAs (· = sender) id
        (by rintro _ _ _ ⟨⟩; exact ⟨rfl, _, ‹_›, rfl⟩)
      have hdone : Traced server.history (server.chatDone request conn _
          recipient room content result now) :=
        htraced.chatDone hserved fun hsuccess =>
          ⟨(hbacked hsuccess).1, hcalls _ (hbacked hsuccess).2⟩
      exact hdone.kept hkept.told
  | createRoom conn uid name result =>
      cases hsuccess : result.success with
      | false => simpa [ChatServer.runCallback, hsuccess] using herror conn 5 _
      | true =>
          obtain ⟨roomId, hid, hcreated⟩ := hbacked hsuccess
          have hrooms : Traced server.history
              (server.withRooms (server.rooms.createRoom name uid)) :=
            htraced.withRooms fun other member hmember => by
              rcases mem_createRoom.mp hmember with hold | ⟨hname, _, huid⟩
              · exact .inl hold
              · subst hname huid
                exact .inr (.created request conn roomId hcaused
                  ⟨hid, hcalls _ hcreated⟩)
          simpa [ChatServer.runCallback, hsuccess] using
            hrooms.kept hkept.told
  | joinRoom conn uid name result =>
      cases hsuccess : result.success with
      | false => simpa [ChatServer.runCallback, hsuccess] using herror conn 4 _
      | true =>
          obtain ⟨room, hfound, hadded⟩ := hbacked hsuccess
          have hrooms : Traced server.history
              (server.withRooms (server.rooms.joinRoom name uid)) :=
            htraced.withRooms fun other member hmember => by
              rcases mem_joinRoom.mp hmember with hold | ⟨hname, _, huid⟩
              · exact .inl hold
              · subst hname huid
                exact .inr (.joined request conn room hcaused (hcalls _ hfound)
                  (hcalls _ hadded))
          simpa [ChatServer.runCallback, hsuccess] using
            hrooms.kept hkept.told
  | addFriendRequest conn sender target message =>
      exact (htraced.friendRequestDone hcaused).kept hkept.told
  | respondFriendRequest conn requester responder accepted =>
      obtain ⟨uid, hserved, -⟩ := hcaused.servedAs (fun _ => True) id
        (by rintro _ _ _ ⟨⟩; exact ⟨rfl, _, ‹_›, trivial⟩)
      exact (htraced.friendResponseDone hcaused ⟨uid, hserved⟩).kept
        hkept.told
  | removeFriend conn uid target =>
      obtain ⟨user, hserved, -⟩ := hcaused.servedAs (fun _ => True) id
        (by rintro _ _ _ ⟨⟩; exact ⟨rfl, _, ‹_›, trivial⟩)
      exact (htraced.friendRemoveDone hcaused ⟨user, hserved⟩).kept hkept.told
  | recallMessage conn uid msgId recipient room result =>
      obtain ⟨_, hserved, rfl⟩ := hcaused.servedAs (· = uid) id
        (by rintro _ _ _ ⟨⟩; exact ⟨rfl, _, ‹_›, rfl⟩)
      have hdone : Traced server.history (server.recallDone conn _ msgId
          recipient room result now) :=
        htraced.recallDone hserved fun hsuccess => hcalls _ (hbacked hsuccess)
      exact hdone.kept hkept.told

end Done

/-! ## Receptions and disconnections -/

theorem Kept.onward (hkept : Kept server) {next : ChatServer} {event : Event}
    (hsessions : next.sessions = server.sessions)
    (hrooms : next.rooms = server.rooms)
    (hhistory : next.history = event :: server.history)
    (htold : Told server.history event) : Kept next := by
  have happend : next.history = [event] ++ server.history := hhistory
  refine ⟨hkept.traced.onward hsessions hrooms happend, ?_⟩
  rw [hhistory]
  exact Runs.justified_cons.mpr ⟨htold, hkept.told⟩

theorem Kept.of_same (hkept : Kept server) {next : ChatServer}
    (hsessions : next.sessions = server.sessions)
    (hrooms : next.rooms = server.rooms)
    (hhistory : next.history = server.history) : Kept next := by
  have happend : next.history = [] ++ server.history := hhistory
  refine ⟨hkept.traced.onward hsessions hrooms happend, ?_⟩
  rw [hhistory]
  exact hkept.told

theorem Traced.deauthenticate (htraced : Traced log server) (conn : Conn) :
    Traced log
      (server.withSessions (server.sessions.deauthenticate conn)) := by
  refine htraced.narrow (fun uid other hother => ?_) (fun other => ?_) ?_
  · rw [SessionManager.users_deauthenticate] at hother
    split_ifs at hother
    exact hother
  · rw [SessionManager.getUid, SessionManager.getContext_deauthenticate]
    split_ifs
    · exact .inl rfl
    · exact .inr rfl
  · rw [friendships_deauthenticate]
    exact htraced.friends

theorem Traced.close (htraced : Traced log server) (conn : Conn) :
    Traced log (server.withSessions
      ((server.sessions.setDisconnected conn).onDisconnection conn)) := by
  refine htraced.narrow (fun uid other hother => ?_) (fun other => .inr ?_) ?_
  · rw [SessionManager.users_onDisconnection] at hother
    split_ifs at hother
    exact hother
  · rw [SessionManager.getUid, SessionManager.getContext_onDisconnection,
      SessionManager.getContext_setDisconnected]
    rfl
  · have hfriends := (cachesKept_close server conn).friendships
    exact fun uid friend hmem =>
      htraced.friends uid friend (hfriends ▸ hmem)

theorem Kept.close (hkept : Kept server) (conn : Conn) :
    Kept (server.close conn) := by
  have hclosed : Kept (server.withSessions
      ((server.sessions.setDisconnected conn).onDisconnection conn)) :=
    (hkept.traced.close conn).kept hkept.told
  exact hclosed.onward rfl rfl rfl trivial

theorem Kept.receive (hkept : Kept server) (conn : Conn)
    (envelope : Envelope) : Kept (server.receive conn envelope) := by
  have harrived : Kept (server.arrived conn envelope) :=
    hkept.onward rfl rfl rfl trivial
  have hqueued (task : Task) :
      Kept ((server.arrived conn envelope).runInPool server.requests task) :=
    (harrived.traced.runInPool _ task).kept harrived.told
  have herror (code : ℕ) (reason : String) :
      Kept ((server.arrived conn envelope).sendError conn code reason) :=
    Traced.kept (harrived.traced.send trivial) harrived.told
  have huser (task : String → Task) :
      Kept ((server.arrived conn envelope).whenAuthenticated server.requests
        conn task) := by
    unfold whenAuthenticated
    split
    · exact hqueued _
    · exact harrived
  cases envelope with
  | loginReq req =>
      show Kept (handleLogin _ _ _ _)
      unfold handleLogin
      split_ifs
      · exact herror 1 _
      · exact hqueued _
      · exact herror 2 _
      · exact hqueued _
  | logoutReq req =>
      have hleft := ((harrived.traced.runInPool server.requests
        (.logout req.uid req.token)).deauthenticate conn).kept harrived.told
      have hrecorded : Kept ((((server.arrived conn _).runInPool
          server.requests (.logout req.uid req.token)).withSessions
            (server.sessions.deauthenticate conn)).record
              (.loggedOut server.requests conn)) :=
        hleft.onward rfl rfl rfl trivial
      exact Traced.kept (hrecorded.traced.send (.inl rfl)) hrecorded.told
  | registerReq req =>
      show Kept (handleRegister _ _ _ _)
      unfold handleRegister
      split_ifs
      · exact herror 7 _
      · exact hqueued _
  | heartbeat beat => exact harrived
  | notSet => exact harrived.onward rfl rfl rfl trivial
  | _ =>
      simp only [ChatServer.receive, onEnvelope, handleChatMessage,
        handleCreateRoom, handleJoinRoom, handleFriendRequest,
        handleFriendResponse, handleFriendRemove, handleRecall]
      exact huser _

theorem Kept.step {config : ServerConfig} {action : Action}
    {next : ChatServer} (hkept : Kept server)
    (haccounted : Accounted config server)
    (hstep : step config server action = some next) : Kept next := by
  cases steps_of_step hstep with
  | receive conn envelope => exact hkept.receive conn envelope
  | invalidLength conn => exact hkept.onward rfl rfl rfl trivial
  | parseError conn =>
      exact Traced.kept (hkept.traced.send trivial) hkept.told
  | close conn => exact hkept.close conn
  | start request task rest hqueue => exact hkept.onward rfl rfl rfl trivial
  | call index worker call rest answer hworker hprog =>
      exact hkept.onward rfl rfl rfl trivial
  | finish index request task callback hworker =>
      cases callback with
      | none => exact hkept.of_same rfl rfl rfl
      | some callback => exact hkept.of_same rfl rfl rfl
  | callback loop now request callback rest hloop =>
      have hmade : Made server.history request callback :=
        (haccounted.loops loop ⟨request, callback⟩
          (by simp [hloop])).made
      have htaken : Kept { server with
          loops := Function.update server.loops loop rest } :=
        hkept.of_same rfl rfl rfl
      exact htaken.runCallback hmade

end Tracing

theorem initial_kept : Kept initial := by
  refine ⟨⟨by simp [initial, SessionManager.initial], fun conn => .inl rfl,
    fun name uid hmember => ?_, fun uid friend hmem => ?_, [], rfl, by simp⟩,
    Runs.justified_nil⟩
  · exact absurd hmember OrderedSet.not_mem_empty
  · exact absurd hmem OrderedSet.not_mem_empty

/-- In every run, under every interleaving, whatever the databases answer:
each message goes to a connection it is meant for, by what is on record when
it is sent. -/
theorem sent_to_entitled {config : ServerConfig} {actions : List Action}
    {server : ChatServer}
    (hrun : Runs.runFrom (step config) initial actions = some server)
    {conn : Conn} {msg : ServerMessage} {older : List Event}
    (hsent : .sent conn msg :: older <:+ server.history) :
    Entitled older conn msg := by
  have hkept : Accounted config server ∧ Kept server :=
    @Runs.invariant_of_run _ _ _
      (fun server => Accounted config server ∧ Kept server) _ _ _
      ⟨initial_accounted config, initial_kept⟩
      (fun _ _ _ hstep hserver =>
        ⟨hserver.1.step hstep, hserver.2.step hserver.1 hstep⟩) hrun
  exact hkept.2.told _ _ hsent

/-- Alice writes to Bob. -/
def bobIsTold : List Action :=
  passwordLogin 0 "alice" "pw" "t" ++ [.callback 0 5] ++
    passwordLogin 1 "bob" "pw" "s" ++
    [.callback 0 6,
      .receive 0 (.chatMsg { recipient := "bob", content := "hi" }),
      .start,
      .call 0 (.storeMessage "alice" "bob" "" "hi") 7,
      .finish 0, .callback 0 8]

theorem sent_to_entitled_bobIsTold : ∃ server older,
    Runs.runFrom (step { threads := 1, loopOf := fun _ => 0 }) initial
        bobIsTold = some server ∧
      .sent 1 (ServerReplies.privateChat "alice" "bob" "hi" 7 8) :: older <:+
        server.history ∧
      Entitled older 1 (ServerReplies.privateChat "alice" "bob" "hi" 7 8) := by
  obtain ⟨server, echo, older, hrun, hhistory⟩ : ∃ server echo older,
      Runs.runFrom (step { threads := 1, loopOf := fun _ => 0 }) initial
          bobIsTold = some server ∧
        server.history = echo ::
          .sent 1 (ServerReplies.privateChat "alice" "bob" "hi" 7 8) ::
            older :=
    ⟨_, _, _, rfl, rfl⟩
  have hsent : .sent 1 (ServerReplies.privateChat "alice" "bob" "hi" 7 8) ::
      older <:+ server.history := hhistory ▸ List.suffix_cons _ _
  exact ⟨server, older, hrun, hsent, sent_to_entitled hrun hsent⟩

end ChatServer

end MuduoChat
