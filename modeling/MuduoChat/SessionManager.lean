import MuduoChat.ChatProtocol
import MuduoChat.LabelledRuns
import MuduoChat.OrderedSets
import Mathlib.Data.String.Basic

/-!
# The session manager

`SessionManager` keeps the uid-to-connection map `users_`, the in-memory
friend sets and the pending friend requests.  The other half of a login, the
`Session` record, is not stored in the manager: it is the context of the
muduo connection itself.  The two are updated together by three operations
and by nothing else, so the state below carries both, with the liveness flag
muduo reports through `TcpConnection::connected`.
-/

namespace MuduoChat

abbrev Conn := Nat

structure Session where
  uid : String := ""
  token : String := ""
  authenticated : Bool := false
  deriving DecidableEq

/-- What the server sees of a muduo connection.  A connection object is born
connected; its context is empty until a `Session` is stored in it. -/
structure TcpConnection where
  connected : Bool := true
  context : Option Session := none
  deriving DecidableEq

structure SessionManager where
  users : String → Option Conn := fun _ => none
  friendships : String → OrderedSet String := fun _ => ∅
  pendingFriendRequests : OrderedSet String := ∅
  conns : Conn → TcpConnection := fun _ => {}

namespace SessionManager

def initial : SessionManager := {}

/-! ## Access to the connections -/

def connected (manager : SessionManager) (conn : Conn) : Bool :=
  (manager.conns conn).connected

def getContext (manager : SessionManager) (conn : Conn) : Option Session :=
  (manager.conns conn).context

def setContext (manager : SessionManager) (conn : Conn)
    (session : Session) : SessionManager :=
  { manager with
    conns := Function.update manager.conns conn
      { manager.conns conn with context := some session } }

/-- muduo marks a connection as down before it reports it. -/
def setDisconnected (manager : SessionManager) (conn : Conn) :
    SessionManager :=
  { manager with
    conns := Function.update manager.conns conn
      { manager.conns conn with connected := false } }

/-! ## The three operations that touch `users_` -/

/-- `users_.erase` for the uid of a stored session, skipped when it is
empty. -/
def eraseUser (manager : SessionManager) (session : Session) :
    SessionManager :=
  if session.uid = "" then manager
  else { manager with users := Function.update manager.users session.uid none }

def onDisconnection (manager : SessionManager) (conn : Conn) :
    SessionManager :=
  match manager.getContext conn with
  | none => manager
  | some session => manager.eraseUser session

def authenticate (manager : SessionManager) (conn : Conn)
    (uid token : String) : SessionManager :=
  setContext
    { manager with users := Function.update manager.users uid (some conn) }
    conn { uid := uid, token := token, authenticated := true }

def deauthenticate (manager : SessionManager) (conn : Conn) :
    SessionManager :=
  match manager.getContext conn with
  | none => manager.setContext conn {}
  | some session => (manager.eraseUser session).setContext conn {}

/-! ## Queries -/

def isAuthenticated (manager : SessionManager) (conn : Conn) : Bool :=
  match manager.getContext conn with
  | none => false
  | some session => session.authenticated

def getUid (manager : SessionManager) (conn : Conn) : String :=
  match manager.getContext conn with
  | none => ""
  | some session => session.uid

def getConnection (manager : SessionManager) (uid : String) : Option Conn :=
  manager.users uid

def isOnline (manager : SessionManager) (uid : String) : Bool :=
  (manager.users uid).isSome

/-! ## Friends and pending requests -/

def addFriendship (manager : SessionManager) (uid₁ uid₂ : String) :
    SessionManager :=
  let first := Function.update manager.friendships uid₁
    ((manager.friendships uid₁).insert uid₂)
  { manager with
    friendships := Function.update first uid₂ ((first uid₂).insert uid₁) }

def removeFriendship (manager : SessionManager) (uid₁ uid₂ : String) :
    SessionManager :=
  let first := Function.update manager.friendships uid₁
    ((manager.friendships uid₁).erase uid₂)
  { manager with
    friendships := Function.update first uid₂ ((first uid₂).erase uid₁) }

def getFriends (manager : SessionManager) (uid : String) :
    OrderedSet String :=
  manager.friendships uid

def addPendingRequest (manager : SessionManager)
    (requester target : String) : SessionManager :=
  { manager with
    pendingFriendRequests :=
      manager.pendingFriendRequests.insert (requester ++ ":" ++ target) }

def removePendingRequest (manager : SessionManager)
    (requester target : String) : SessionManager :=
  { manager with
    pendingFriendRequests :=
      manager.pendingFriendRequests.erase (requester ++ ":" ++ target) }

def hasPendingRequest (manager : SessionManager)
    (requester target : String) : Bool :=
  decide (requester ++ ":" ++ target ∈ manager.pendingFriendRequests)

/-! ## What the operations change -/

@[simp] theorem users_setContext
    (manager : SessionManager) (conn : Conn) (session : Session) :
    (manager.setContext conn session).users = manager.users := rfl

@[simp] theorem getContext_setContext
    (manager : SessionManager) (conn other : Conn) (session : Session) :
    (manager.setContext conn session).getContext other =
      if other = conn then some session else manager.getContext other := by
  by_cases heq : other = conn
  · subst other
    simp [setContext, getContext]
  · simp [setContext, getContext, Function.update, heq]

@[simp] theorem connected_setContext
    (manager : SessionManager) (conn other : Conn) (session : Session) :
    (manager.setContext conn session).connected other =
      manager.connected other := by
  by_cases heq : other = conn
  · subst other
    simp [setContext, connected]
  · simp [setContext, connected, Function.update, heq]

@[simp] theorem users_setDisconnected
    (manager : SessionManager) (conn : Conn) :
    (manager.setDisconnected conn).users = manager.users := rfl

@[simp] theorem getContext_setDisconnected
    (manager : SessionManager) (conn other : Conn) :
    (manager.setDisconnected conn).getContext other =
      manager.getContext other := by
  by_cases heq : other = conn
  · subst other
    simp [setDisconnected, getContext]
  · simp [setDisconnected, getContext, Function.update, heq]

@[simp] theorem connected_setDisconnected
    (manager : SessionManager) (conn other : Conn) :
    (manager.setDisconnected conn).connected other =
      (decide (other ≠ conn) && manager.connected other) := by
  by_cases heq : other = conn
  · subst other
    simp [setDisconnected, connected]
  · simp [setDisconnected, connected, Function.update, heq]

@[simp] theorem conns_eraseUser
    (manager : SessionManager) (session : Session) :
    (manager.eraseUser session).conns = manager.conns := by
  unfold eraseUser
  split <;> rfl

@[simp] theorem getContext_eraseUser
    (manager : SessionManager) (session : Session) (other : Conn) :
    (manager.eraseUser session).getContext other =
      manager.getContext other := by
  simp [getContext]

@[simp] theorem connected_eraseUser
    (manager : SessionManager) (session : Session) (other : Conn) :
    (manager.eraseUser session).connected other =
      manager.connected other := by
  simp [connected]

theorem users_eraseUser
    (manager : SessionManager) (session : Session) (uid : String) :
    (manager.eraseUser session).users uid =
      if uid = session.uid ∧ uid ≠ "" then none else manager.users uid := by
  unfold eraseUser
  by_cases hempty : session.uid = ""
  · have hno : ¬ (uid = session.uid ∧ uid ≠ "") := by
      rintro ⟨heq, hne⟩
      exact hne (heq.trans hempty)
    simp [hempty]
  · by_cases heq : uid = session.uid
    · subst uid
      simp [hempty]
    · simp [hempty, heq, Function.update]

theorem users_authenticate
    (manager : SessionManager) (conn : Conn) (uid token other : String) :
    (manager.authenticate conn uid token).users other =
      if other = uid then some conn else manager.users other := by
  simp [authenticate, Function.update]

/-- Both ways of leaving erase the route of the uid in the context, whatever
connection that route points to; an empty uid is not erased. -/
theorem users_deauthenticate
    (manager : SessionManager) (conn : Conn) (uid : String) :
    (manager.deauthenticate conn).users uid =
      if uid = manager.getUid conn ∧ uid ≠ "" then none
      else manager.users uid := by
  unfold deauthenticate getUid
  cases hcontext : manager.getContext conn with
  | none =>
      have hno : ¬ (uid = "" ∧ uid ≠ "") := fun h => h.2 h.1
      simp [hno]
  | some session => simp [users_eraseUser]

theorem users_onDisconnection
    (manager : SessionManager) (conn : Conn) (uid : String) :
    (manager.onDisconnection conn).users uid =
      if uid = manager.getUid conn ∧ uid ≠ "" then none
      else manager.users uid := by
  unfold onDisconnection getUid
  cases hcontext : manager.getContext conn with
  | none =>
      have hno : ¬ (uid = "" ∧ uid ≠ "") := fun h => h.2 h.1
      simp [hno]
  | some session => simp [users_eraseUser]

@[simp] theorem conns_onDisconnection
    (manager : SessionManager) (conn : Conn) :
    (manager.onDisconnection conn).conns = manager.conns := by
  unfold onDisconnection
  cases manager.getContext conn <;> simp

@[simp] theorem getContext_authenticate
    (manager : SessionManager) (conn other : Conn) (uid token : String) :
    (manager.authenticate conn uid token).getContext other =
      if other = conn then
        some { uid := uid, token := token, authenticated := true }
      else manager.getContext other := by
  rw [authenticate, getContext_setContext]
  rfl

@[simp] theorem connected_authenticate
    (manager : SessionManager) (conn other : Conn) (uid token : String) :
    (manager.authenticate conn uid token).connected other =
      manager.connected other := by
  rw [authenticate, connected_setContext]
  rfl

@[simp] theorem getContext_deauthenticate
    (manager : SessionManager) (conn other : Conn) :
    (manager.deauthenticate conn).getContext other =
      if other = conn then some {} else manager.getContext other := by
  unfold deauthenticate
  cases manager.getContext conn with
  | none => simp
  | some session => simp

@[simp] theorem connected_deauthenticate
    (manager : SessionManager) (conn other : Conn) :
    (manager.deauthenticate conn).connected other =
      manager.connected other := by
  unfold deauthenticate
  cases manager.getContext conn with
  | none => simp
  | some session => simp

@[simp] theorem getContext_onDisconnection
    (manager : SessionManager) (conn other : Conn) :
    (manager.onDisconnection conn).getContext other =
      manager.getContext other := by
  simp [getContext]

@[simp] theorem connected_onDisconnection
    (manager : SessionManager) (conn other : Conn) :
    (manager.onDisconnection conn).connected other =
      manager.connected other := by
  simp [connected]

/-! ## Logged-in connections -/

def LoggedInAs (manager : SessionManager) (conn : Conn)
    (uid : String) : Prop :=
  ∃ session, manager.getContext conn = some session ∧
    session.authenticated = true ∧ session.uid = uid

theorem loggedInAs_iff
    {manager : SessionManager} {conn : Conn} {uid : String} :
    manager.LoggedInAs conn uid ↔
      manager.isAuthenticated conn = true ∧ manager.getUid conn = uid := by
  unfold LoggedInAs isAuthenticated getUid
  cases manager.getContext conn <;> simp

theorem LoggedInAs.getUid_eq
    {manager : SessionManager} {conn : Conn} {uid : String}
    (hlogged : manager.LoggedInAs conn uid) :
    manager.getUid conn = uid :=
  (loggedInAs_iff.mp hlogged).2

@[simp] theorem loggedInAs_authenticate
    (manager : SessionManager) (conn other : Conn)
    (uid token name : String) :
    (manager.authenticate conn uid token).LoggedInAs other name ↔
      if other = conn then name = uid else manager.LoggedInAs other name := by
  unfold LoggedInAs
  by_cases heq : other = conn
  · simp only [heq, getContext_authenticate, if_true, Option.some.injEq]
    constructor
    · rintro ⟨session, rfl, -, huid⟩
      exact huid.symm
    · rintro rfl
      exact ⟨_, rfl, rfl, rfl⟩
  · simp [heq]

@[simp] theorem loggedInAs_deauthenticate
    (manager : SessionManager) (conn other : Conn) (name : String) :
    (manager.deauthenticate conn).LoggedInAs other name ↔
      other ≠ conn ∧ manager.LoggedInAs other name := by
  unfold LoggedInAs
  by_cases heq : other = conn
  · simp [heq]
  · simp [heq]

@[simp] theorem loggedInAs_onDisconnection
    (manager : SessionManager) (conn other : Conn) (name : String) :
    (manager.onDisconnection conn).LoggedInAs other name ↔
      manager.LoggedInAs other name := by
  simp [LoggedInAs]

@[simp] theorem loggedInAs_setDisconnected
    (manager : SessionManager) (conn other : Conn) (name : String) :
    (manager.setDisconnected conn).LoggedInAs other name ↔
      manager.LoggedInAs other name := by
  simp [LoggedInAs]

@[simp] theorem getUid_setDisconnected
    (manager : SessionManager) (conn other : Conn) :
    (manager.setDisconnected conn).getUid other =
      manager.getUid other := by
  simp [getUid]

end SessionManager

end MuduoChat
