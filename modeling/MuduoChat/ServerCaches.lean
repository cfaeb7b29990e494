import MuduoChat.ChatServerSteps
import Mathlib.Data.Sym.Sym2
import Mathlib.Data.Set.Insert

/-!
# The caches of the server

The server keeps two copies of what the database knows: the members of rooms
and the friends of users.  Only callbacks write them, and the replies a
callback sends on the way do not matter to them.
-/

namespace MuduoChat

/-- What a callback does to the rooms in memory. -/
def Callback.enterRoom (rooms : RoomManager) : Callback → RoomManager
  | .createRoom _ uid name result =>
      if result.success then rooms.createRoom name uid else rooms
  | .joinRoom _ uid roomName result =>
      if result.success then rooms.joinRoom roomName uid else rooms
  | _ => rooms

/-- What a callback does to the friend sets. -/
def Callback.relate (manager : SessionManager) : Callback → SessionManager
  | .tokenLogin _ result _ | .login _ result =>
      if result.success then
        result.friends.foldl (fun manager friend =>
          manager.addFriendship result.userInfo.uid friend.uid) manager
      else manager
  | .friendResponse _ requester responder accepted =>
      if accepted then manager.addFriendship requester responder
      else manager
  | .friendRemove _ uid target => manager.removeFriendship uid target
  | _ => manager

namespace ChatServer

/-! ## Replies -/

structure CachesKept (before after : ChatServer) : Prop where
  rooms : after.rooms = before.rooms
  friendships : after.sessions.friendships = before.sessions.friendships

theorem CachesKept.refl (server : ChatServer) : CachesKept server server :=
  ⟨rfl, rfl⟩

theorem CachesKept.trans {first second third : ChatServer}
    (hfirst : CachesKept first second) (hsecond : CachesKept second third) :
    CachesKept first third :=
  ⟨hsecond.rooms.trans hfirst.rooms,
    hsecond.friendships.trans hfirst.friendships⟩

theorem cachesKept_foldl {Item : Type}
    {apply : ChatServer → Item → ChatServer}
    (happly : ∀ server item, CachesKept server (apply server item))
    (items : List Item) (server : ChatServer) :
    CachesKept server (items.foldl apply server) := by
  induction items generalizing server with
  | nil => exact .refl server
  | cons item rest ih => exact (happly server item).trans (ih _)

theorem cachesKept_sendAll (server : ChatServer)
    (outgoing : List Outgoing) :
    CachesKept server (server.sendAll outgoing) := by
  refine cachesKept_foldl ?_ outgoing server
  intro server out
  exact ⟨rfl, rfl⟩

theorem cachesKept_sendPendingRequests (server : ChatServer) (conn : Conn)
    (requesters : List String) :
    CachesKept server (server.sendPendingRequests conn requesters) := by
  refine cachesKept_foldl ?_ requesters server
  intro server requester
  exact ⟨rfl, rfl⟩

theorem cachesKept_sendOfflineMessages (server : ChatServer) (request : Nat)
    (conn : Conn) (messages : List MessageInfo) (now : Nat) :
    CachesKept server
      (server.sendOfflineMessages request conn messages now) := by
  unfold sendOfflineMessages
  have hpushed := cachesKept_sendAll server
    (messages.map fun info => (conn, ServerReplies.offlineChat info now))
  dsimp only
  split
  · exact hpushed
  · exact hpushed.trans ⟨rfl, rfl⟩

theorem cachesKept_notifyWithFriends (server : ChatServer) (uid : String)
    (msg : ServerMessage) :
    CachesKept server (server.notifyWithFriends uid msg) := by
  unfold notifyWithFriends
  split <;> exact ⟨rfl, rfl⟩

/-! ## Callbacks -/

theorem cachesKept_chatDone (server : ChatServer) (request : Nat)
    (conn : Conn) (sender recipient room content : String)
    (result : SendMessageResult) (now : Nat) :
    CachesKept server (server.chatDone request conn sender recipient room
      content result now) := by
  unfold chatDone
  split
  · exact ⟨rfl, rfl⟩
  · split
    · have hrelayed := cachesKept_sendAll server
        (ServerReplies.privateRelay server.sessions sender recipient content
          result.msgId now)
      dsimp only
      split <;> exact hrelayed.trans ⟨rfl, rfl⟩
    · split
      · exact cachesKept_sendAll server _
      · exact .refl server

theorem cachesKept_recallDone (server : ChatServer) (conn : Conn)
    (uid : String) (msgId : Int) (recipient room : String)
    (result : RecallResult) (now : Nat) :
    CachesKept server
      (server.recallDone conn uid msgId recipient room result now) := by
  unfold recallDone
  split
  · exact ⟨rfl, rfl⟩
  · exact (cachesKept_sendAll server _).trans ⟨rfl, rfl⟩

theorem cachesKept_friendRequestDone (server : ChatServer)
    (sender target message : String) :
    CachesKept server (server.friendRequestDone sender target message) := by
  have hpending : CachesKept server (server.withSessions
      (server.sessions.addPendingRequest sender target)) := ⟨rfl, rfl⟩
  exact hpending.trans (cachesKept_sendAll _ _)

theorem friendships_foldl_addFriendship {manager other : SessionManager}
    (hsame : other.friendships = manager.friendships) (uid : String)
    (friends : List UserInfo) :
    (friends.foldl (fun manager friend =>
        manager.addFriendship uid friend.uid) other).friendships =
      (friends.foldl (fun manager friend =>
        manager.addFriendship uid friend.uid) manager).friendships := by
  induction friends generalizing manager other with
  | nil => exact hsame
  | cons friend rest ih =>
      refine ih ?_
      simp only [SessionManager.addFriendship, hsame]

theorem caches_loginDone (server : ChatServer) (request : Nat) (conn : Conn)
    (result : LoginResult) (token : String) (now : Nat) :
    (server.loginDone request conn result token now).rooms = server.rooms ∧
      (server.loginDone request conn result token
          now).sessions.friendships =
        (result.friends.foldl (fun manager friend =>
          manager.addFriendship result.userInfo.uid friend.uid)
          server.sessions).friendships := by
  have hreplies (befriended : ChatServer) : CachesKept befriended
      ((((befriended.send conn
        (ServerReplies.loginReply result token now)).sendPendingRequests conn
          result.pendingRequests).sendOfflineMessages request conn
          result.offlineMessages now).sendFriendList conn) := by
    have hreply : CachesKept befriended (befriended.send conn
        (ServerReplies.loginReply result token now)) := ⟨rfl, rfl⟩
    have hpending := hreply.trans
      (cachesKept_sendPendingRequests _ conn result.pendingRequests)
    have hoffline := hpending.trans (cachesKept_sendOfflineMessages _ request
      conn result.offlineMessages now)
    exact hoffline.trans ⟨rfl, rfl⟩
  have hlogin := hreplies ((server.withSessions
    (result.friends.foldl (fun sessions friend =>
      sessions.addFriendship result.userInfo.uid friend.uid)
      (server.sessions.authenticate conn result.userInfo.uid
        token))).record (.loggedIn request conn result))
  refine ⟨hlogin.rooms, hlogin.friendships.trans ?_⟩
  have hentered : (server.sessions.authenticate conn result.userInfo.uid
      token).friendships = server.sessions.friendships := rfl
  exact friendships_foldl_addFriendship hentered result.userInfo.uid
    result.friends

theorem caches_friendResponseDone (server : ChatServer) (conn : Conn)
    (requester responder : String) (accepted : Bool) :
    (server.friendResponseDone conn requester responder accepted).rooms =
        server.rooms ∧
      (server.friendResponseDone conn requester responder
          accepted).sessions.friendships =
        (if accepted then server.sessions.addFriendship requester responder
          else server.sessions).friendships := by
  let befriended :=
    if accepted then server.sessions.addFriendship requester responder
    else server.sessions
  have hreplies : CachesKept
      (server.withSessions
        (befriended.removePendingRequest requester responder))
      (server.friendResponseDone conn requester responder accepted) :=
    (cachesKept_notifyWithFriends _ requester _).trans ⟨rfl, rfl⟩
  exact ⟨hreplies.rooms, hreplies.friendships⟩

theorem caches_friendRemoveDone (server : ChatServer) (conn : Conn)
    (uid target : String) :
    (server.friendRemoveDone conn uid target).rooms = server.rooms ∧
      (server.friendRemoveDone conn uid target).sessions.friendships =
        (server.sessions.removeFriendship uid target).friendships := by
  have hreplies : CachesKept
      (server.withSessions (server.sessions.removeFriendship uid target))
      (server.friendRemoveDone conn uid target) :=
    (cachesKept_notifyWithFriends _ target _).trans ⟨rfl, rfl⟩
  exact ⟨hreplies.rooms, hreplies.friendships⟩

theorem caches_runCallback (server : ChatServer) (request now : Nat)
    (callback : Callback) :
    (server.runCallback request now callback).rooms =
        callback.enterRoom server.rooms ∧
      (server.runCallback request now callback).sessions.friendships =
        (callback.relate server.sessions).friendships := by
  have hkept {after : ChatServer} (hcaches : CachesKept server after) :
      after.rooms = server.rooms ∧
        after.sessions.friendships = server.sessions.friendships :=
    ⟨hcaches.rooms, hcaches.friendships⟩
  cases callback with
  | tokenLogin conn result token =>
      simp only [runCallback, Callback.enterRoom, Callback.relate]
      split
      · exact caches_loginDone server request conn result token now
      · exact ⟨rfl, rfl⟩
  | login conn result =>
      simp only [runCallback, Callback.enterRoom, Callback.relate]
      split
      · exact caches_loginDone server request conn result result.token now
      · exact ⟨rfl, rfl⟩
  | register conn ok => exact ⟨rfl, rfl⟩
  | chat conn sender recipient room content result =>
      exact hkept (cachesKept_chatDone server request conn sender recipient
        room content result now)
  | createRoom conn uid name result =>
      simp only [runCallback, Callback.enterRoom, Callback.relate]
      cases result.success <;> exact ⟨rfl, rfl⟩
  | joinRoom conn uid roomName result =>
      simp only [runCallback, Callback.enterRoom, Callback.relate]
      cases result.success <;> exact ⟨rfl, rfl⟩
  | friendRequest conn sender target message =>
      exact hkept (cachesKept_friendRequestDone server sender target message)
  | friendResponse conn requester responder accepted =>
      exact caches_friendResponseDone server conn requester responder
        accepted
  | friendRemove conn uid target =>
      exact caches_friendRemoveDone server conn uid target
  | recallMsg conn uid msgId recipient room result =>
      exact hkept (cachesKept_recallDone server conn uid msgId recipient
        room result now)

/-! ## Receptions and disconnections -/

theorem friendships_deauthenticate (manager : SessionManager)
    (conn : Conn) :
    (manager.deauthenticate conn).friendships = manager.friendships := by
  unfold SessionManager.deauthenticate
  split
  · rfl
  · rename_i session _
    unfold SessionManager.eraseUser
    split <;> rfl

theorem cachesKept_receive (server : ChatServer) (conn : Conn)
    (envelope : Envelope) :
    CachesKept server (server.receive conn envelope) := by
  cases envelope with
  | loginReq req =>
      simp only [receive, onEnvelope, handleLogin]
      split_ifs <;> exact ⟨rfl, rfl⟩
  | logoutReq req =>
      exact ⟨rfl, friendships_deauthenticate server.sessions conn⟩
  | registerReq req =>
      simp only [receive, onEnvelope, handleRegister]
      split_ifs <;> exact ⟨rfl, rfl⟩
  | heartbeat beat => exact ⟨rfl, rfl⟩
  | notSet => exact ⟨rfl, rfl⟩
  | _ =>
      simp only [receive, onEnvelope, handleChatMessage, handleCreateRoom,
        handleJoinRoom, handleFriendRequest, handleFriendResponse,
        handleFriendRemove, handleRecall, whenAuthenticated]
      split_ifs <;> exact ⟨rfl, rfl⟩

theorem cachesKept_close (server : ChatServer) (conn : Conn) :
    CachesKept server (server.close conn) := by
  refine ⟨rfl, ?_⟩
  show ((server.sessions.setDisconnected conn).onDisconnection
    conn).friendships = server.sessions.friendships
  unfold SessionManager.onDisconnection
  split
  · rfl
  · unfold SessionManager.eraseUser
    split <;> rfl

end ChatServer

/-! ## Friend sets as pairs -/

namespace SessionManager

/-- The pairs of friends in memory. -/
def friendPairs (manager : SessionManager) : Set (Sym2 String) :=
  { link | ∃ uid friend, friend ∈ manager.friendships uid ∧
    link = s(uid, friend) }

def Mutual (manager : SessionManager) : Prop :=
  ∀ uid friend, friend ∈ manager.friendships uid →
    uid ∈ manager.friendships friend

/-- What a login adds: its user together with each of the friends. -/
def pairsOf (uid : String) (friends : List UserInfo) : Set (Sym2 String) :=
  { link | ∃ friend ∈ friends, link = s(uid, friend.uid) }

variable {manager other : SessionManager} {uid friend first second : String}

theorem friendPairs_congr
    (hsame : other.friendships = manager.friendships) :
    other.friendPairs = manager.friendPairs := by
  unfold friendPairs
  rw [hsame]

theorem Mutual.congr (hmutual : manager.Mutual)
    (hsame : other.friendships = manager.friendships) : other.Mutual := by
  unfold Mutual
  rw [hsame]
  exact hmutual

theorem Mutual.mem_friendPairs (hmutual : manager.Mutual) :
    s(uid, friend) ∈ manager.friendPairs ↔
      friend ∈ manager.friendships uid := by
  constructor
  · rintro ⟨one, another, hmem, hpair⟩
    rcases Sym2.eq_iff.mp hpair with ⟨rfl, rfl⟩ | ⟨rfl, rfl⟩
    · exact hmem
    · exact hmutual _ _ hmem
  · intro hmem
    exact ⟨uid, friend, hmem, rfl⟩

theorem mem_addFriendship :
    friend ∈ (manager.addFriendship first second).friendships uid ↔
      friend ∈ manager.friendships uid ∨
        s(uid, friend) = s(first, second) := by
  rw [Sym2.eq_iff]
  unfold addFriendship
  by_cases hsecond : uid = second <;> by_cases hfirst : uid = first <;>
    by_cases hsame : first = second <;>
    simp_all [Function.update_apply] <;> tauto

theorem mem_removeFriendship :
    friend ∈ (manager.removeFriendship first second).friendships uid ↔
      friend ∈ manager.friendships uid ∧
        s(uid, friend) ≠ s(first, second) := by
  rw [Ne, Sym2.eq_iff]
  unfold removeFriendship
  by_cases hsecond : uid = second <;> by_cases hfirst : uid = first <;>
    by_cases hsame : first = second <;>
    simp_all [Function.update_apply]

theorem friendPairs_addFriendship :
    (manager.addFriendship first second).friendPairs =
      insert s(first, second) manager.friendPairs := by
  ext link
  constructor
  · rintro ⟨uid, friend, hmem, rfl⟩
    rcases mem_addFriendship.mp hmem with hold | hnew
    · exact .inr ⟨uid, friend, hold, rfl⟩
    · exact .inl hnew
  · rintro (rfl | ⟨uid, friend, hmem, rfl⟩)
    · exact ⟨first, second, mem_addFriendship.mpr (.inr rfl), rfl⟩
    · exact ⟨uid, friend, mem_addFriendship.mpr (.inl hmem), rfl⟩

theorem friendPairs_removeFriendship :
    (manager.removeFriendship first second).friendPairs =
      manager.friendPairs \ {s(first, second)} := by
  ext link
  constructor
  · rintro ⟨uid, friend, hmem, rfl⟩
    obtain ⟨hold, hne⟩ := mem_removeFriendship.mp hmem
    exact ⟨⟨uid, friend, hold, rfl⟩, hne⟩
  · rintro ⟨⟨uid, friend, hmem, rfl⟩, hne⟩
    exact ⟨uid, friend, mem_removeFriendship.mpr ⟨hmem, hne⟩, rfl⟩

theorem Mutual.addFriendship (hmutual : manager.Mutual)
    (first second : String) :
    (manager.addFriendship first second).Mutual := by
  intro uid friend hmem
  rw [mem_addFriendship] at hmem ⊢
  rw [Sym2.eq_swap]
  exact hmem.imp_left (hmutual uid friend)

theorem Mutual.removeFriendship (hmutual : manager.Mutual)
    (first second : String) :
    (manager.removeFriendship first second).Mutual := by
  intro uid friend hmem
  rw [mem_removeFriendship] at hmem ⊢
  rw [Sym2.eq_swap]
  exact hmem.imp_left (hmutual uid friend)

theorem befriend_all (hmutual : manager.Mutual) (uid : String)
    (friends : List UserInfo) :
    (friends.foldl (fun manager friend =>
        manager.addFriendship uid friend.uid) manager).Mutual ∧
      (friends.foldl (fun manager friend =>
        manager.addFriendship uid friend.uid) manager).friendPairs =
        manager.friendPairs ∪ pairsOf uid friends := by
  induction friends generalizing manager with
  | nil => simpa [pairsOf] using hmutual
  | cons friend rest ih =>
      obtain ⟨hrest, hpairs⟩ :=
        ih (hmutual.addFriendship uid friend.uid)
      refine ⟨hrest, ?_⟩
      rw [List.foldl_cons, hpairs, friendPairs_addFriendship]
      ext link
      simp [pairsOf]
      tauto

theorem Mutual.relate (hmutual : manager.Mutual) (callback : Callback) :
    (callback.relate manager).Mutual := by
  unfold Callback.relate
  split
  · split
    · exact (befriend_all hmutual _ _).1
    · exact hmutual
  · split
    · exact (befriend_all hmutual _ _).1
    · exact hmutual
  · split
    · exact hmutual.addFriendship _ _
    · exact hmutual
  · exact hmutual.removeFriendship _ _
  · exact hmutual

end SessionManager

end MuduoChat
