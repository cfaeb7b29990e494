import MuduoChat.LiveRoutes

/-!
# Logouts and earlier logins

A logout takes effect while its envelope is being handled, a login only when
its callback runs.  A client that sends both without waiting may find itself
logged in after the logout.  A client that logged in under two uids is logged
out of the last one only, and stays routed as the other.
-/

namespace MuduoChat

namespace SessionManager

/-- The connection is not logged in and no uid is routed to it. -/
def Released (manager : SessionManager) (conn : Conn) : Prop :=
  manager.isAuthenticated conn = false ∧
    ∀ uid, manager.users uid ≠ some conn

variable {manager next : SessionManager} {conn : Conn}

theorem Released.of_users_le (hreleased : manager.Released conn)
    (hcontext : next.getContext conn = manager.getContext conn)
    (husers : ∀ uid, next.users uid = some conn →
      manager.users uid = some conn) : next.Released conn := by
  have hauth : next.isAuthenticated conn = manager.isAuthenticated conn := by
    unfold isAuthenticated
    rw [hcontext]
  refine ⟨hauth.trans hreleased.1, fun uid hroute => ?_⟩
  exact hreleased.2 uid (husers uid hroute)

theorem not_released_authenticate (conn : Conn) (uid token : String) :
    ¬ (manager.authenticate conn uid token).Released conn := by
  rintro ⟨hauth, -⟩
  simp [isAuthenticated] at hauth

theorem Released.authenticate (hreleased : manager.Released conn)
    {other : Conn} (hother : other ≠ conn) (uid token : String) :
    (manager.authenticate other uid token).Released conn := by
  apply hreleased.of_users_le
  · simp [Ne.symm hother]
  · intro name hroute
    rw [users_authenticate] at hroute
    split_ifs at hroute
    · exact (hother (Option.some.inj hroute)).elim
    · exact hroute

/-- Only the uid in the context is erased. -/
theorem released_deauthenticate_iff (manager : SessionManager)
    (conn : Conn) :
    (manager.deauthenticate conn).Released conn ↔
      ∀ uid, manager.users uid = some conn →
        uid = manager.getUid conn ∧ uid ≠ "" := by
  constructor
  · rintro ⟨-, hroutes⟩ uid hroute
    by_contra hkept
    apply hroutes uid
    rw [users_deauthenticate, if_neg hkept, hroute]
  · intro hown
    refine ⟨by simp [isAuthenticated], fun uid hroute => ?_⟩
    rw [users_deauthenticate] at hroute
    split_ifs at hroute with herased
    exact herased (hown uid hroute)

theorem Released.deauthenticate (hreleased : manager.Released conn)
    {other : Conn} (hother : other ≠ conn) :
    (manager.deauthenticate other).Released conn := by
  apply hreleased.of_users_le
  · simp [Ne.symm hother]
  · intro uid hroute
    rw [users_deauthenticate] at hroute
    split_ifs at hroute
    exact hroute

theorem Released.close (hreleased : manager.Released conn) (other : Conn) :
    ((manager.setDisconnected other).onDisconnection other).Released
      conn := by
  apply hreleased.of_users_le
  · simp
  · intro uid hroute
    rw [users_onDisconnection] at hroute
    split_ifs at hroute
    exact hroute

end SessionManager

namespace ChatServer

/-! ## The last login or logout of a connection -/

/-- Of the login and logout requests that arrived on the connection, the last
one is a logout. -/
def LogoutLast (conn : Conn) : List Event → Prop
  | [] => False
  | .received _ other (.logoutReq _) :: older =>
      other = conn ∨ LogoutLast conn older
  | .received _ other (.loginReq _) :: older =>
      other ≠ conn ∧ LogoutLast conn older
  | _ :: older => LogoutLast conn older

/-- No task is queued or running and no functor waits. -/
def Quiescent (server : ChatServer) : Prop :=
  server.queue = [] ∧ server.workers = [] ∧ ∀ loop, server.loops loop = []

/-- A connection whose last request was a logout is logged out. -/
def LogoutStands (conn : Conn) (server : ChatServer) : Prop :=
  LogoutLast conn server.history → server.sessions.Released conn

/-- No successful login of the connection is applied after a logout unless
another login has arrived, and a logout arrives while the context names the
only uid routed to the connection. -/
def LogoutInOrder (conn : Conn) (server : ChatServer) : Action → Prop
  | .callback loop _ =>
      ∀ functor rest result token,
        server.loops loop = functor :: rest →
          entry functor.callback = some (conn, result, token) →
            ¬ LogoutLast conn server.history
  | .receive other (.logoutReq _) =>
      other = conn → ∀ uid, server.sessions.users uid = some conn →
        uid = server.sessions.getUid conn ∧ uid ≠ ""
  | _ => True

section Steps

variable {config : ServerConfig} {server next : ChatServer} {conn : Conn}

theorem logoutLast_replies {replies older : List Event}
    (hreplies : ∀ event ∈ replies, event.IsReply) :
    LogoutLast conn (replies ++ older) ↔ LogoutLast conn older := by
  refine iff_of_eq (skips_replies (fun event older hevent => ?_) hreplies
    older)
  cases event with
  | sent target msg => rfl
  | shutdown target => rfl
  | _ => exact hevent.elim

theorem Responds.logoutStands_iff {request : Nat} {allowed : Task → Prop}
    (hresponds : Responds request allowed server next) :
    LogoutStands conn next ↔ LogoutStands conn server := by
  obtain ⟨replies, hhistory, hreplies⟩ := hresponds.history
  unfold LogoutStands SessionManager.Released SessionManager.isAuthenticated
    SessionManager.getContext
  rw [hhistory, logoutLast_replies hreplies, hresponds.users,
    hresponds.conns]

theorem logoutStands_receive_iff (hstands : LogoutStands conn server)
    (other : Conn) (envelope : Envelope) :
    LogoutStands conn (server.receive other envelope) ↔
      LogoutInOrder conn server (.receive other envelope) := by
  rw [(responds_receive server other envelope).logoutStands_iff]
  cases envelope with
  | logoutReq req =>
      by_cases hother : other = conn
      · subst hother
        have hlast : LogoutLast other (((server.arrived other
            (.logoutReq req)).leave server.requests other
              (.logoutReq req)).history) := .inl rfl
        constructor
        · intro hnext _
          exact (SessionManager.released_deauthenticate_iff
            server.sessions other).mp (hnext hlast)
        · intro hown _
          exact (SessionManager.released_deauthenticate_iff
            server.sessions other).mpr (hown rfl)
      · refine iff_of_true (fun hlast => ?_) fun hsame => (hother hsame).elim
        rcases hlast with hsame | hlast
        · exact (hother hsame).elim
        · exact (hstands hlast).deauthenticate hother
  | loginReq req =>
      exact iff_of_true (fun hlast => hstands hlast.2) trivial
  | _ => exact iff_of_true hstands trivial

theorem logoutStands_runCallback_iff (hstands : LogoutStands conn server)
    {request loop now : Nat} {callback : Callback} {rest : List Functor}
    (hloop : server.loops loop = ⟨request, callback⟩ :: rest) :
    LogoutStands conn (runCallback
        { server with loops := Function.update server.loops loop rest }
        request now callback) ↔
      LogoutInOrder conn server (.callback loop now) := by
  rw [(responds_runCallback _ now callback).logoutStands_iff]
  simp only [LogoutInOrder, hloop, List.cons.injEq]
  cases hentry : entry callback with
  | none =>
      apply iff_of_true hstands
      rintro functor rest' result token ⟨rfl, rfl⟩ hsome
      simp [hentry] at hsome
  | some login =>
      obtain ⟨other, result, token⟩ := login
      by_cases hother : other = conn
      · subst hother
        constructor
        · rintro hnext functor rest' result' token' ⟨rfl, rfl⟩ - hlast
          exact SessionManager.not_released_authenticate other _ token
            (hnext hlast)
        · intro horder hlast
          exact (horder _ rest result token ⟨rfl, rfl⟩ hentry hlast).elim
      · apply iff_of_true
        · intro hlast
          exact (hstands hlast).authenticate hother _ token
        · rintro functor rest' result' token' ⟨rfl, rfl⟩ hsome
          rw [hentry] at hsome
          cases hsome
          exact (hother rfl).elim

theorem logoutStands_step_iff {action : Action}
    (hstep : step config server action = some next)
    (hstands : LogoutStands conn server) :
    LogoutStands conn next ↔ LogoutInOrder conn server action := by
  cases steps_of_step hstep with
  | receive other envelope =>
      exact logoutStands_receive_iff hstands other envelope
  | close other =>
      exact iff_of_true (fun hlast => (hstands hlast).close other) trivial
  | finish index request task callback hworker =>
      cases callback with
      | none => exact iff_of_true hstands trivial
      | some callback => exact iff_of_true hstands trivial
  | callback loop now request callback rest hloop =>
      exact logoutStands_runCallback_iff hstands hloop
  | _ => exact iff_of_true hstands trivial

/-- Along exactly the runs whose steps keep the order, a connection whose last
request was a logout is not logged in and not routed, in quiescent states and
in all others. -/
theorem logout_stands_iff (config : ServerConfig) (conn : Conn)
    (actions : List Action) :
    Runs.Always (step config) (LogoutStands conn) initial actions ↔
      Runs.EachStep (step config) (LogoutInOrder conn) initial actions := by
  apply Runs.always_iff_eachStep
  · intro hlast
    exact hlast.elim
  · intro server action next hstep hstands
    exact logoutStands_step_iff hstep hstands

end Steps

/-! ### Pipelined requests -/

def aliceLogout : Action :=
  .receive 0 (.logoutReq { uid := "alice", token := "" })

/-- The task of the logout. -/
def logoutTask : List Action :=
  [.start, .call 0 (.revokeSession "") true,
    .call 0 (.revokeAllSessions "alice") true, .finish 0]

/-- The logout arrives while the login is in the pool. -/
def overtakenLogout : List Action :=
  [.receive 0 (.loginReq { uid := "alice", passwd := "pw" }), aliceLogout] ++
    (passwordLogin 0 "alice" "pw" "t").tail ++ logoutTask ++ [.callback 0 5]

/-- The connection logs in as Bob after it logged in as Alice. -/
def secondUid : List Action :=
  passwordLogin 0 "alice" "pw" "t" ++ [.callback 0 5] ++
    passwordLogin 0 "bob" "pw" "u" ++ [.callback 0 6, aliceLogout] ++
      logoutTask

def oneThread : ServerConfig := { threads := 1, loopOf := fun _ => 0 }

theorem logout_stands_fails_pipelined :
    ¬ Runs.Always (step oneThread)
        (fun server => server.Quiescent → LogoutStands 0 server) initial
        overtakenLogout ∧
      ¬ Runs.Always (step oneThread)
        (fun server => server.Quiescent → LogoutStands 0 server) initial
        secondUid := by
  constructor
  · have hrun : ∃ server, Runs.runFrom (step oneThread) initial
        overtakenLogout = some server ∧ server.Quiescent ∧
          LogoutLast 0 server.history ∧
          server.sessions.isAuthenticated 0 = true := by
      refine ⟨_, rfl, ⟨rfl, rfl, ?_⟩, .inl rfl, rfl⟩
      rintro (_ | loop) <;> rfl
    obtain ⟨server, hrun, hquiet, hlast, hauth⟩ := hrun
    intro halways
    have hreleased := halways _ server (List.prefix_refl _) hrun hquiet hlast
    rw [hreleased.1] at hauth
    cases hauth
  · have hrun : ∃ server, Runs.runFrom (step oneThread) initial
        secondUid = some server ∧ server.Quiescent ∧
          LogoutLast 0 server.history ∧
          server.sessions.users "alice" = some 0 := by
      refine ⟨_, rfl, ⟨rfl, rfl, ?_⟩, .inl rfl, rfl⟩
      rintro (_ | loop) <;> rfl
    obtain ⟨server, hrun, hquiet, hlast, hroute⟩ := hrun
    intro halways
    exact (halways _ server (List.prefix_refl _) hrun hquiet hlast).2 "alice"
      hroute

end ChatServer

end MuduoChat
