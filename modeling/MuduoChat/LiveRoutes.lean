import MuduoChat.ChatServerSteps

/-!
# Routes to connections that are down

A login is applied by a callback, after the request has been through the
pool.  The connection may go down in the meantime, and `onDisconnection` is
called once only, so a route created by a late callback is never removed.
A connection that served several uids leaves routes behind as well, because
only the uid in its context is erased.  These are the only two ways in which
`users_` comes to hold a dead connection.
-/

namespace MuduoChat

namespace SessionManager

/-- Every connection in `users_` is still connected. -/
def RoutesLive (manager : SessionManager) : Prop :=
  ∀ uid conn, manager.users uid = some conn → manager.connected conn = true

theorem RoutesLive.of_users_le {manager next : SessionManager}
    (hlive : manager.RoutesLive)
    (husers : ∀ uid conn, next.users uid = some conn →
      manager.users uid = some conn)
    (hconnected : ∀ conn, next.connected conn = manager.connected conn) :
    next.RoutesLive := by
  intro uid conn hroute
  rw [hconnected]
  exact hlive uid conn (husers uid conn hroute)

theorem RoutesLive.deauthenticate {manager : SessionManager}
    (hlive : manager.RoutesLive) (conn : Conn) :
    (manager.deauthenticate conn).RoutesLive := by
  apply hlive.of_users_le
  · intro uid target hroute
    rw [users_deauthenticate] at hroute
    split_ifs at hroute
    exact hroute
  · intro target
    simp

theorem routesLive_authenticate_iff {manager : SessionManager}
    (hlive : manager.RoutesLive) (conn : Conn) (uid token : String) :
    (manager.authenticate conn uid token).RoutesLive ↔
      manager.connected conn = true := by
  constructor
  · intro hnext
    have hroute : (manager.authenticate conn uid token).users uid =
        some conn := by
      simp [users_authenticate]
    simpa using hnext uid conn hroute
  · intro hconn other target hroute
    rw [connected_authenticate]
    rw [users_authenticate] at hroute
    split_ifs at hroute
    · rw [← Option.some.inj hroute]
      exact hconn
    · exact hlive other target hroute

theorem routesLive_close_iff {manager : SessionManager}
    (hlive : manager.RoutesLive) (conn : Conn) :
    ((manager.setDisconnected conn).onDisconnection conn).RoutesLive ↔
      ∀ uid, manager.users uid = some conn →
        uid = manager.getUid conn ∧ uid ≠ "" := by
  have hroutes (uid : String) :
      ((manager.setDisconnected conn).onDisconnection conn).users uid =
        if uid = manager.getUid conn ∧ uid ≠ "" then none
        else manager.users uid := by
    rw [users_onDisconnection, getUid_setDisconnected, users_setDisconnected]
  constructor
  · intro hnext uid hroute
    by_contra hkept
    have hdead := hnext uid conn (by rw [hroutes, if_neg hkept, hroute])
    simp at hdead
  · intro hown uid target hroute
    rw [hroutes] at hroute
    split_ifs at hroute with herased
    have htarget : target ≠ conn := by
      intro heq
      exact herased (hown uid (heq ▸ hroute))
    simpa [htarget] using hlive uid target hroute

theorem initial_routesLive : initial.RoutesLive := by
  intro uid conn hroute
  simp [initial] at hroute

end SessionManager

namespace ChatServer

open SessionManager

theorem Responds.routesLive_iff {request : Nat} {allowed : Task → Prop}
    {before after : ChatServer}
    (hresponds : Responds request allowed before after) :
    after.sessions.RoutesLive ↔ before.sessions.RoutesLive := by
  unfold RoutesLive SessionManager.connected
  rw [hresponds.users, hresponds.conns]

/-- The steps that leave no route to a dead connection: a successful login is
applied while its connection is up, and when a connection goes down its
context names the only uid routed to it. -/
def KeepsRoutesLive (server : ChatServer) : Action → Prop
  | .callback loop _ =>
      ∀ functor rest conn result token,
        server.loops loop = functor :: rest →
          entry functor.callback = some (conn, result, token) →
            server.sessions.connected conn = true
  | .close conn =>
      ∀ uid, server.sessions.users uid = some conn →
        uid = server.sessions.getUid conn ∧ uid ≠ ""
  | _ => True

theorem routesLive_receive {server : ChatServer}
    (hlive : server.sessions.RoutesLive) (conn : Conn)
    (envelope : Envelope) :
    (server.receive conn envelope).sessions.RoutesLive := by
  rw [(responds_receive server conn envelope).routesLive_iff]
  cases envelope with
  | logoutReq req => exact hlive.deauthenticate conn
  | _ => exact hlive

theorem routesLive_runCallback_iff {server : ChatServer}
    {request loop now : Nat} {callback : Callback} {rest : List Functor}
    (hlive : server.sessions.RoutesLive)
    (hloop : server.loops loop = ⟨request, callback⟩ :: rest) :
    (runCallback
        { server with loops := Function.update server.loops loop rest }
        request now callback).sessions.RoutesLive ↔
      server.KeepsRoutesLive (.callback loop now) := by
  rw [(responds_runCallback _ now callback).routesLive_iff]
  simp only [KeepsRoutesLive, hloop, List.cons.injEq]
  cases hentry : entry callback with
  | none =>
      apply iff_of_true hlive
      rintro functor rest' conn result token ⟨rfl, rfl⟩ hsome
      simp [hentry] at hsome
  | some login =>
      obtain ⟨conn, result, token⟩ := login
      refine (routesLive_authenticate_iff hlive conn _ token).trans ?_
      constructor
      · rintro hconn functor rest' conn' result' token' ⟨rfl, rfl⟩ hsome
        rw [hentry] at hsome
        cases hsome
        exact hconn
      · intro hkeeps
        exact hkeeps _ rest conn result token ⟨rfl, rfl⟩ hentry

theorem routesLive_step_iff {config : ServerConfig}
    {server next : ChatServer} {action : Action}
    (hstep : step config server action = some next)
    (hlive : server.sessions.RoutesLive) :
    next.sessions.RoutesLive ↔ server.KeepsRoutesLive action := by
  cases steps_of_step hstep with
  | receive conn envelope =>
      exact iff_of_true (routesLive_receive hlive conn envelope) trivial
  | close conn => exact routesLive_close_iff hlive conn
  | finish index request task callback hworker =>
      cases callback with
      | none => exact iff_of_true hlive trivial
      | some callback => exact iff_of_true hlive trivial
  | callback loop now request callback rest hloop =>
      exact routesLive_runCallback_iff hlive hloop
  | _ => exact iff_of_true hlive trivial

/-- `users_` holds connected connections only, along exactly those runs in
which every successful login is applied while its connection is up and every
connection that goes down serves no uid but the one in its context. -/
theorem routes_live_iff (config : ServerConfig) (actions : List Action) :
    Runs.Always (step config) (fun server => server.sessions.RoutesLive)
        initial actions ↔
      Runs.EachStep (step config) KeepsRoutesLive initial actions := by
  apply Runs.always_iff_eachStep
  · exact initial_routesLive
  · intro server action next hstep hlive
    exact routesLive_step_iff hstep hlive

/-- The connection goes down while its login is in the pool; the callback
then routes the uid to it. -/
theorem late_login_routes_dead_connection :
    ¬ Runs.Always (step { threads := 1, loopOf := fun _ => 0 })
        (fun server => server.sessions.RoutesLive) initial
        (passwordLogin 1 "alice" "pw" "t" ++
          [.close 1, .callback 0 5]) := by
  intro halways
  have hlive := halways _ _ (List.prefix_refl _) rfl
  have hconn := hlive "alice" 1 (by decide)
  revert hconn
  decide

end ChatServer

end MuduoChat
