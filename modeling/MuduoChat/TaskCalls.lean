import MuduoChat.ChatServerSteps

/-!
# What tasks ask of the repositories

For every task: on whose behalf its program calls the repositories, and what
calls lie behind a login that succeeds.  The server's programs are looked into
here and nowhere else; later files use `Task.onlyCalls_actor` and
`ensures_entry`.
-/

namespace MuduoChat

/-! ## Actors -/

def RepositoryCall.actor : RepositoryCall → Option String
  | storeMessage sender .. => some sender
  | recallMessage _ uid => some uid
  | removeFriends uid _ => some uid
  | createRoom _ creator => some creator
  | addRoomMember _ uid _ => some uid
  | _ => none

/-- The uid under which the service call of a task acts, where the server
takes it from the session. -/
def Task.actor : Task → Option String
  | sendMessage _ sender .. => some sender
  | createRoom _ uid _ => some uid
  | joinRoom _ uid _ => some uid
  | removeFriend _ uid _ => some uid
  | recallMessage _ uid .. => some uid
  | _ => none

def RepositoryCall.queuesOffline : RepositoryCall → Bool
  | addOfflineMessage .. => true
  | _ => false

/-- The calls the server makes while it works for `actor`: they act for nobody
else, and none of them queues an offline message. -/
def RepositoryCall.Within (actor : Option String) (call : RepositoryCall) :
    Prop :=
  (call.actor = none ∨ call.actor = actor) ∧ call.queuesOffline = false

/-- The repository calls of each task. -/
inductive Task.Makes : Task → RepositoryCall → Prop
  | getSessionByToken (conn : Conn) (token : String) :
      Makes (.loginWithToken conn token) (.getSessionByToken token)
  | updateSessionNode (conn : Conn) (token nodeId : String) :
      Makes (.loginWithToken conn token) (.updateSessionNode token nodeId)
  | tokenUser (conn : Conn) (token uid : String) :
      Makes (.loginWithToken conn token) (.getUserInfo uid)
  | tokenFriends (conn : Conn) (token uid : String) :
      Makes (.loginWithToken conn token) (.getFriendList uid)
  | tokenRequests (conn : Conn) (token uid : String) :
      Makes (.loginWithToken conn token) (.getPendingRequests uid)
  | tokenMessages (conn : Conn) (token uid : String) :
      Makes (.loginWithToken conn token) (.getUndeliveredMessages uid)
  | verifyUser (conn : Conn) (uid passwd : String) :
      Makes (.login conn uid passwd) (.verifyUser uid passwd)
  | getUserInfo (conn : Conn) (uid passwd : String) :
      Makes (.login conn uid passwd) (.getUserInfo uid)
  | generateToken (conn : Conn) (uid passwd : String) :
      Makes (.login conn uid passwd) .generateToken
  | createSession (conn : Conn) (uid passwd token nodeId : String)
      (ttlSeconds : Nat) :
      Makes (.login conn uid passwd)
        (.createSession uid token nodeId ttlSeconds)
  | getFriendList (conn : Conn) (uid passwd : String) :
      Makes (.login conn uid passwd) (.getFriendList uid)
  | getPendingRequests (conn : Conn) (uid passwd : String) :
      Makes (.login conn uid passwd) (.getPendingRequests uid)
  | getUndeliveredMessages (conn : Conn) (uid passwd : String) :
      Makes (.login conn uid passwd) (.getUndeliveredMessages uid)
  | revokeSession (uid token : String) :
      Makes (.logout uid token) (.revokeSession token)
  | revokeAllSessions (uid token : String) :
      Makes (.logout uid token) (.revokeAllSessions uid)
  | registerUser (conn : Conn) (uid passwd nickname email : String) :
      Makes (.registerUser conn uid passwd nickname email)
        (.registerUser uid passwd nickname email)
  | storeMessage (conn : Conn) (sender recipient room content : String) :
      Makes (.sendMessage conn sender recipient room content)
        (.storeMessage sender recipient room content)
  | getMessage (recipient : String) (msgId : Int) :
      Makes (.getMessage recipient msgId) (.getMessage msgId)
  | roomExists (conn : Conn) (uid name : String) :
      Makes (.createRoom conn uid name) (.roomExists name)
  | createRoom (conn : Conn) (uid name : String) :
      Makes (.createRoom conn uid name) (.createRoom name uid)
  | addCreator (conn : Conn) (uid name : String) (roomId : Int) :
      Makes (.createRoom conn uid name) (.addRoomMember roomId uid 2)
  | getRoomByName (conn : Conn) (uid roomName : String) :
      Makes (.joinRoom conn uid roomName) (.getRoomByName roomName)
  | addRoomMember (conn : Conn) (uid roomName : String) (roomId : Int) :
      Makes (.joinRoom conn uid roomName) (.addRoomMember roomId uid 0)
  | userExists (conn : Conn) (sender target message : String) :
      Makes (.addFriendRequest conn sender target message)
        (.userExists target)
  | addFriendRequest (conn : Conn) (sender target message : String) :
      Makes (.addFriendRequest conn sender target message)
        (.addFriendRequest sender target message)
  | respondFriendRequest (conn : Conn) (requester responder : String)
      (accepted : Bool) :
      Makes (.respondFriendRequest conn requester responder accepted)
        (.respondFriendRequest requester responder accepted)
  | removeFriends (conn : Conn) (uid target : String) :
      Makes (.removeFriend conn uid target) (.removeFriends uid target)
  | getRecalled (conn : Conn) (uid : String) (msgId : Int)
      (recipient room : String) :
      Makes (.recallMessage conn uid msgId recipient room)
        (.getMessage msgId)
  | time (conn : Conn) (uid : String) (msgId : Int)
      (recipient room : String) :
      Makes (.recallMessage conn uid msgId recipient room) .time
  | mktime (conn : Conn) (uid : String) (msgId : Int)
      (recipient room : String) (tm : Tm) :
      Makes (.recallMessage conn uid msgId recipient room) (.mktime tm)
  | recallMessage (conn : Conn) (uid : String) (msgId : Int)
      (recipient room : String) :
      Makes (.recallMessage conn uid msgId recipient room)
        (.recallMessage msgId uid)
  | markMessagesDelivered (uid : String) :
      Makes (.markMessagesDelivered uid) (.markMessagesDelivered uid)

section ServiceCalls

open Prog

theorem onlyCalls_collect {allowed : RepositoryCall → Prop}
    (uid token : String) (userInfo : UserInfo)
    (hfriends : allowed (.getFriendList uid))
    (hrequests : allowed (.getPendingRequests uid))
    (hmessages : allowed (.getUndeliveredMessages uid)) :
    (LoginService.collect uid token userInfo).OnlyCalls allowed := by
  simp [LoginService.collect, repository, hfriends, hrequests, hmessages]

theorem onlyCalls_login (conn : Conn) (uid passwd nodeId : String) :
    (LoginService.login uid passwd nodeId).OnlyCalls
      (Task.Makes (.login conn uid passwd)) := by
  simp only [LoginService.login, repository, request_bind, onlyCalls_call]
  refine ⟨.verifyUser conn uid passwd, fun verified => ?_⟩
  split
  · simp
  · simp only [onlyCalls_call]
    refine ⟨.getUserInfo conn uid passwd, fun found => ?_⟩
    cases found with
    | none => simp
    | some userInfo =>
        simp only [onlyCalls_call]
        refine ⟨.generateToken conn uid passwd, fun token => ?_⟩
        refine ⟨.createSession conn uid passwd token nodeId _,
          fun sessionOk => ?_⟩
        split
        · simp
        · exact onlyCalls_collect uid token userInfo
            (.getFriendList conn uid passwd)
            (.getPendingRequests conn uid passwd)
            (.getUndeliveredMessages conn uid passwd)

theorem onlyCalls_loginWithToken (conn : Conn) (token nodeId : String) :
    (LoginService.loginWithToken token nodeId).OnlyCalls
      (Task.Makes (.loginWithToken conn token)) := by
  simp only [LoginService.loginWithToken, repository, request_bind,
    onlyCalls_call]
  refine ⟨.getSessionByToken conn token, fun found => ?_⟩
  cases found with
  | none => simp
  | some session =>
      simp only [onlyCalls_call]
      refine ⟨.updateSessionNode conn token nodeId, fun _ => ?_⟩
      refine ⟨.tokenUser conn token session.uid, fun found => ?_⟩
      cases found with
      | none => simp
      | some userInfo =>
          exact onlyCalls_collect session.uid token userInfo
            (.tokenFriends conn token session.uid)
            (.tokenRequests conn token session.uid)
            (.tokenMessages conn token session.uid)

theorem onlyCalls_recallMessage (conn : Conn) (msgId : Int)
    (uid recipient room : String) :
    (ChatService.recallMessage msgId uid recipient room).OnlyCalls
      (Task.Makes (.recallMessage conn uid msgId recipient room)) := by
  simp only [ChatService.recallMessage, repository, request_bind,
    onlyCalls_call]
  refine ⟨.getRecalled conn uid msgId recipient room, fun found => ?_⟩
  cases found with
  | none => simp
  | some msg =>
      dsimp only
      split
      · simp
      · simp only [onlyCalls_call]
        refine ⟨.time conn uid msgId recipient room, fun now => ?_⟩
        refine ⟨.mktime conn uid msgId recipient room _, fun msgTime => ?_⟩
        split
        · simp
        · simp only [onlyCalls_call]
          refine ⟨.recallMessage conn uid msgId recipient room,
            fun recalled => ?_⟩
          split <;> simp

theorem onlyCalls_createRoom (conn : Conn) (name creator : String) :
    (RoomService.createRoom name creator).OnlyCalls
      (Task.Makes (.createRoom conn creator name)) := by
  simp only [RoomService.createRoom, repository, request_bind,
    onlyCalls_call]
  refine ⟨.roomExists conn creator name, fun taken => ?_⟩
  split
  · simp
  · simp only [onlyCalls_call]
    refine ⟨.createRoom conn creator name, fun roomId => ?_⟩
    split
    · simp
    · simp only [onlyCalls_call]
      exact ⟨.addCreator conn creator name roomId, by simp⟩

theorem onlyCalls_joinRoom (conn : Conn) (roomName uid : String) :
    (RoomService.joinRoom roomName uid).OnlyCalls
      (Task.Makes (.joinRoom conn uid roomName)) := by
  simp only [RoomService.joinRoom, repository, request_bind,
    onlyCalls_call]
  refine ⟨.getRoomByName conn uid roomName, fun found => ?_⟩
  cases found with
  | none => simp
  | some room =>
      simp only [onlyCalls_call]
      exact ⟨.addRoomMember conn uid roomName room.roomId, by simp⟩

theorem onlyCalls_addFriendRequest (conn : Conn)
    (sender target message : String) :
    (FriendService.addFriendRequest sender target message).OnlyCalls
      (Task.Makes (.addFriendRequest conn sender target message)) := by
  simp only [FriendService.addFriendRequest, repository, request_bind,
    onlyCalls_call]
  refine ⟨.userExists conn sender target message, fun found => ?_⟩
  split
  · simp
  · simp only [onlyCalls_call]
    exact ⟨.addFriendRequest conn sender target message, by simp⟩

theorem onlyCalls_sendMessage (conn : Conn)
    (sender recipient room content : String) :
    (ChatService.sendMessage sender recipient room content).OnlyCalls
      (Task.Makes (.sendMessage conn sender recipient room content)) := by
  simp only [ChatService.sendMessage, repository, request_bind,
    onlyCalls_call]
  refine ⟨.storeMessage conn sender recipient room content,
    fun msgId => ?_⟩
  split <;> simp

theorem Task.onlyCalls_makes (nodeId : String) (task : Task) :
    (task.program nodeId).OnlyCalls task.Makes := by
  cases task with
  | loginWithToken conn token =>
      exact (onlyCalls_loginWithToken conn token nodeId).bind fun _ =>
        onlyCalls_ret
  | login conn uid passwd =>
      exact (onlyCalls_login conn uid passwd nodeId).bind fun _ =>
        onlyCalls_ret
  | sendMessage conn sender recipient room content =>
      exact (onlyCalls_sendMessage conn sender recipient room content).bind
        fun _ => onlyCalls_ret
  | createRoom conn uid name =>
      exact (onlyCalls_createRoom conn name uid).bind fun _ => onlyCalls_ret
  | joinRoom conn uid roomName =>
      exact (onlyCalls_joinRoom conn roomName uid).bind fun _ =>
        onlyCalls_ret
  | addFriendRequest conn sender target message =>
      exact (onlyCalls_addFriendRequest conn sender target message).bind
        fun _ => onlyCalls_ret
  | recallMessage conn uid msgId recipient room =>
      exact (onlyCalls_recallMessage conn msgId uid recipient room).bind
        fun _ => onlyCalls_ret
  | logout uid token =>
      refine onlyCalls_call.mpr ⟨.revokeSession uid token, fun _ => ?_⟩
      exact onlyCalls_call.mpr
        ⟨.revokeAllSessions uid token, fun _ => onlyCalls_ret⟩
  | registerUser conn uid passwd nickname email =>
      exact onlyCalls_call.mpr
        ⟨.registerUser conn uid passwd nickname email,
          fun _ => onlyCalls_ret⟩
  | getMessage recipient msgId =>
      exact onlyCalls_call.mpr
        ⟨.getMessage recipient msgId, fun _ => onlyCalls_ret⟩
  | respondFriendRequest conn requester responder accepted =>
      exact onlyCalls_call.mpr
        ⟨.respondFriendRequest conn requester responder accepted,
          fun _ => onlyCalls_ret⟩
  | removeFriend conn uid target =>
      exact onlyCalls_call.mpr
        ⟨.removeFriends conn uid target, fun _ => onlyCalls_ret⟩
  | markMessagesDelivered uid =>
      exact onlyCalls_call.mpr
        ⟨.markMessagesDelivered uid, fun _ => onlyCalls_ret⟩

/-- A task makes no call on behalf of anybody but its actor. -/
theorem Task.onlyCalls_actor (nodeId : String) (task : Task) :
    (task.program nodeId).OnlyCalls
      (RepositoryCall.Within task.actor) := by
  apply (task.onlyCalls_makes nodeId).mono
  intro call hmakes
  cases hmakes <;>
    simp [RepositoryCall.Within, RepositoryCall.actor, Task.actor,
      RepositoryCall.queuesOffline]

end ServiceCalls

theorem login_of_requests {login : Option String} {conn : Conn}
    {envelope : Envelope} {task : Task} {uid : String}
    (hrequests : Requests login conn envelope task)
    (hactor : task.actor = some uid) : login = some uid := by
  cases hrequests <;> simp_all [Task.actor]

/-! ## Successful logins -/

section Logins

open Prog

/-- What a successful login has read for its user. -/
structure Collected (log : List (Sigma RepositoryCall.Answer)) (uid : String)
    (result : LoginResult) : Prop where
  userInfo : ⟨.getUserInfo uid, some result.userInfo⟩ ∈ log
  friends : ⟨.getFriendList uid, result.friends⟩ ∈ log
  offlineMessages :
    ⟨.getUndeliveredMessages uid, result.offlineMessages⟩ ∈ log

theorem ensures_collect (uid token : String) (userInfo : UserInfo) :
    (LoginService.collect uid token userInfo).Ensures fun log result =>
      result.userInfo = userInfo ∧
        ⟨.getFriendList uid, result.friends⟩ ∈ log ∧
        ⟨.getUndeliveredMessages uid, result.offlineMessages⟩ ∈ log := by
  simp [LoginService.collect, repository]

theorem ensures_login (uid passwd nodeId : String) :
    (LoginService.login uid passwd nodeId).Ensures fun log result =>
      result.success = true →
        ⟨.verifyUser uid passwd, true⟩ ∈ log ∧ Collected log uid result := by
  simp only [LoginService.login, repository, request_bind, ensures_call]
  intro verified
  split
  · simp
  · rename_i hverified
    simp only [ensures_call]
    intro found
    cases found with
    | none => simp
    | some userInfo =>
        simp only [ensures_call]
        intro token sessionOk
        split
        · simp
        · intro log result hreaches _
          obtain ⟨rfl, hfriends, hoffline⟩ :=
            ensures_collect uid token userInfo log result hreaches
          refine ⟨by simp_all, ?_⟩
          exact ⟨by simp, by simp [hfriends], by simp [hoffline]⟩

theorem ensures_loginWithToken (token nodeId : String) :
    (LoginService.loginWithToken token nodeId).Ensures fun log result =>
      result.success = true → ∃ session,
        ⟨.getSessionByToken token, some session⟩ ∈ log ∧
          Collected log session.uid result := by
  simp only [LoginService.loginWithToken, repository, request_bind,
    ensures_call]
  intro found
  cases found with
  | none => simp
  | some session =>
      simp only [ensures_call]
      intro _ found
      cases found with
      | none => simp
      | some userInfo =>
          intro log result hreaches _
          obtain ⟨rfl, hfriends, hoffline⟩ := ensures_collect session.uid
            token userInfo log result hreaches
          refine ⟨session, ?_, ?_⟩
          · simp
          · exact ⟨by simp, by simp [hfriends], by simp [hoffline]⟩

end Logins

namespace ChatServer

theorem entry_eq_some {callback : Callback} {conn : Conn}
    {result : LoginResult} {token : String}
    (hentry : entry callback = some (conn, result, token)) :
    result.success = true ∧
      (callback = .tokenLogin conn result token ∨
        callback = .login conn result) := by
  unfold entry at hentry
  split at hentry
  · split_ifs at hentry with hsuccess
    cases hentry
    exact ⟨hsuccess, .inl rfl⟩
  · split_ifs at hentry with hsuccess
    cases hentry
    exact ⟨hsuccess, .inr rfl⟩
  · simp at hentry

theorem ensures_of_entry_none {α : Type} {service : ServiceProg α}
    {finish : α → Option Callback}
    (hfinish : ∀ value done, finish value = some done → entry done = none)
    {post : List (Sigma RepositoryCall.Answer) → Conn → LoginResult → Prop} :
    (service >>= fun value => pure (finish value)).Ensures
      fun log callback => ∀ done conn result token, callback = some done →
        entry done = some (conn, result, token) → post log conn result := by
  refine Prog.Ensures.bind (fun _ _ _ => trivial) ?_
  intro log value _
  simp only [Prog.pure_eq, Prog.ensures_ret]
  intro done conn result token hdone hentry
  rw [hfinish value done hdone] at hentry
  simp at hentry

theorem ensures_of_applied {service : ServiceProg LoginResult}
    {finish : LoginResult → Callback} (conn : Conn)
    {post : List (Sigma RepositoryCall.Answer) → LoginResult → Prop}
    (hservice : service.Ensures fun log result =>
      result.success = true → post log result)
    (hfinish : ∀ value other result token,
      finish value = .tokenLogin other result token ∨
        finish value = .login other result →
          other = conn ∧ result = value) :
    (service >>= fun value => pure (some (finish value))).Ensures
      fun log callback => ∀ done other result token, callback = some done →
        entry done = some (other, result, token) →
          other = conn ∧ post log result := by
  refine hservice.bind ?_
  intro log value hvalue
  simp only [Prog.pure_eq, Prog.ensures_ret, List.append_nil]
  intro done other result token hdone hentry
  cases hdone
  obtain ⟨hsuccess, hlogin⟩ := entry_eq_some hentry
  obtain ⟨rfl, rfl⟩ := hfinish value other result token hlogin
  exact ⟨rfl, hvalue hsuccess⟩

theorem ensures_entry (nodeId : String) (task : Task) :
    (task.program nodeId).Ensures fun log callback =>
      ∀ done conn result token, callback = some done →
        entry done = some (conn, result, token) →
          (∃ uid passwd, task = .login conn uid passwd ∧
            ⟨.verifyUser uid passwd, true⟩ ∈ log ∧
              Collected log uid result) ∨
          ∃ presented session, task = .loginWithToken conn presented ∧
            ⟨.getSessionByToken presented, some session⟩ ∈ log ∧
              Collected log session.uid result := by
  cases task with
  | loginWithToken conn token =>
      intro log callback hreaches done other result given hdone hentry
      obtain ⟨rfl, session, hsession, hcollected⟩ :=
        ensures_of_applied conn (ensures_loginWithToken token nodeId)
          (by grind) log callback hreaches done other result given hdone hentry
      exact .inr ⟨token, session, rfl, hsession, hcollected⟩
  | login conn uid passwd =>
      intro log callback hreaches done other result given hdone hentry
      obtain ⟨rfl, hverified, hcollected⟩ :=
        ensures_of_applied conn (ensures_login uid passwd nodeId) (by grind)
          log callback hreaches done other result given hdone hentry
      exact .inl ⟨uid, passwd, rfl, hverified, hcollected⟩
  | _ =>
      refine ensures_of_entry_none ?_
      intro value done hdone
      cases hdone <;> rfl

/-- Everything a login brings with it was read for one user. -/
theorem collected_of_entry {nodeId : String} {task : Task}
    {log : List (Sigma RepositoryCall.Answer)} {done : Callback}
    (hreaches : Prog.Reaches (task.program nodeId) log (.ret (some done)))
    {conn : Conn} {result : LoginResult} {token : String}
    (hentry : entry done = some (conn, result, token)) :
    ∃ uid, Collected log uid result := by
  rcases ensures_entry nodeId task log _ hreaches done conn result token rfl
    hentry with ⟨uid, _, _, _, hcollected⟩ | ⟨_, session, _, _, hcollected⟩
  · exact ⟨uid, hcollected⟩
  · exact ⟨session.uid, hcollected⟩

end ChatServer

end MuduoChat
