import MuduoChat.ServerReplies

/-!
# Routing and presence along session histories

`users_` and the connection contexts are two copies of one relation.  This
file follows them through arbitrary sequences of `authenticate`,
`deauthenticate` and `onDisconnection` calls.

Two properties are at stake.  A route is *sound* when the connection stored
for a uid is logged in as that uid.  Presence is *kept* when every uid with a
live logged-in connection is routed to such a connection.  Neither survives
every sequence of calls: a second login on one connection leaves the first
uid routed to it, and both kinds of leaving erase the route by uid without
looking whose it is.  For each property the file determines the steps that
preserve it, and hence exactly the histories along which it holds.
-/

namespace MuduoChat

namespace SessionManager

/-! ## Session histories -/

/-- The calls that touch `users_`.  The server calls `onDisconnection` when
muduo reports that the connection went down. -/
inductive Op where
  | authenticate (conn : Conn) (uid token : String)
  | deauthenticate (conn : Conn)
  | onDisconnection (conn : Conn)
  deriving DecidableEq

def apply (manager : SessionManager) : Op → SessionManager
  | .authenticate conn uid token => manager.authenticate conn uid token
  | .deauthenticate conn => manager.deauthenticate conn
  | .onDisconnection conn =>
      (manager.setDisconnected conn).onDisconnection conn

def step (manager : SessionManager) (op : Op) : Option SessionManager :=
  some (manager.apply op)

/-! ## Routing soundness -/

def RoutesToOwners (manager : SessionManager) : Prop :=
  ∀ uid conn, manager.getConnection uid = some conn →
    manager.LoggedInAs conn uid

/-- Every private message is relayed to connections of its addressee only. -/
def RelaysToOwners (manager : SessionManager) : Prop :=
  ∀ sender uid content msgId now out,
    out ∈ ServerReplies.privateRelay manager sender uid content msgId now →
      manager.LoggedInAs out.1 uid

theorem RoutesToOwners.relaysToOwners
    {manager : SessionManager} (hroutes : manager.RoutesToOwners) :
    manager.RelaysToOwners := by
  intro sender uid content msgId now out hout
  unfold ServerReplies.privateRelay ServerReplies.toUser at hout
  cases hconn : manager.getConnection uid with
  | none => simp [hconn] at hout
  | some target =>
      simp only [hconn, List.mem_singleton] at hout
      subst out
      exact hroutes uid target hconn

/-- A login may not reach a connection that serves another uid, and a logout
may not reach the connection that serves the empty uid. -/
def Op.KeepsRoutes (manager : SessionManager) : Op → Prop
  | .authenticate conn uid _ =>
      ∀ other, manager.getConnection other = some conn → other = uid
  | .deauthenticate conn => manager.getConnection "" ≠ some conn
  | .onDisconnection _ => True

theorem routesToOwners_authenticate_iff
    {manager : SessionManager} (hroutes : manager.RoutesToOwners)
    (conn : Conn) (uid token : String) :
    (manager.authenticate conn uid token).RoutesToOwners ↔
      Op.KeepsRoutes manager (.authenticate conn uid token) := by
  constructor
  · intro hnext other hother
    by_contra hne
    have hroute :
        (manager.authenticate conn uid token).getConnection other =
          some conn := by
      simpa [getConnection, users_authenticate, hne] using hother
    have hlogged := hnext other conn hroute
    simp only [loggedInAs_authenticate, if_true] at hlogged
    exact hne hlogged
  · intro hkeeps other target hroute
    rw [loggedInAs_authenticate]
    simp only [getConnection, users_authenticate] at hroute
    by_cases hother : other = uid
    · simp only [hother, if_true, Option.some.injEq] at hroute
      simp [hroute, hother]
    · simp only [hother, if_false] at hroute
      have htarget : target ≠ conn := by
        intro heq
        exact hother (hkeeps other (heq ▸ hroute))
      simpa [htarget] using hroutes other target hroute

theorem routesToOwners_deauthenticate_iff
    {manager : SessionManager} (hroutes : manager.RoutesToOwners)
    (conn : Conn) :
    (manager.deauthenticate conn).RoutesToOwners ↔
      Op.KeepsRoutes manager (.deauthenticate conn) := by
  constructor
  · intro hnext hempty
    have hroute :
        (manager.deauthenticate conn).getConnection "" = some conn := by
      simpa [getConnection, users_deauthenticate] using hempty
    have hlogged := hnext "" conn hroute
    simp at hlogged
  · intro hkeeps uid target hroute
    simp only [getConnection, users_deauthenticate] at hroute
    split_ifs at hroute with herased
    have hlogged := hroutes uid target hroute
    have hother : target ≠ conn := by
      intro heq
      subst target
      have huid : uid = "" := by
        by_contra hne
        exact herased ⟨hlogged.getUid_eq.symm, hne⟩
      subst uid
      exact hkeeps hroute
    exact (loggedInAs_deauthenticate manager conn target uid).mpr
      ⟨hother, hlogged⟩

theorem RoutesToOwners.onDisconnection
    {manager : SessionManager} (hroutes : manager.RoutesToOwners)
    (conn : Conn) :
    ((manager.setDisconnected conn).onDisconnection conn).RoutesToOwners := by
  intro uid target hroute
  simp only [getConnection, users_onDisconnection,
    users_setDisconnected] at hroute
  split_ifs at hroute with herased
  simpa using hroutes uid target hroute

theorem routesToOwners_apply_iff
    {manager : SessionManager} (hroutes : manager.RoutesToOwners) (op : Op) :
    (manager.apply op).RoutesToOwners ↔ op.KeepsRoutes manager := by
  cases op with
  | authenticate conn uid token =>
      exact routesToOwners_authenticate_iff hroutes conn uid token
  | deauthenticate conn =>
      exact routesToOwners_deauthenticate_iff hroutes conn
  | onDisconnection conn =>
      exact iff_of_true (hroutes.onDisconnection conn) trivial

theorem initial_routesToOwners : initial.RoutesToOwners := by
  intro uid conn hroute
  simp [initial, getConnection] at hroute

/-- Routes stay sound, and private messages reach their addressees only,
along exactly those histories in which no login is applied to a connection
serving another uid and no logout to the connection serving the empty uid. -/
theorem routing_sound_iff (ops : List Op) :
    Runs.Always step
        (fun manager => manager.RoutesToOwners ∧ manager.RelaysToOwners)
        initial ops ↔
      Runs.EachStep step (fun manager op => op.KeepsRoutes manager)
        initial ops := by
  apply Runs.always_iff_eachStep
  · exact ⟨initial_routesToOwners, initial_routesToOwners.relaysToOwners⟩
  · rintro manager op next hstep ⟨hroutes, -⟩
    simp only [step, Option.some.injEq] at hstep
    subst next
    rw [← routesToOwners_apply_iff hroutes op]
    exact ⟨And.left, fun hnext => ⟨hnext, hnext.relaysToOwners⟩⟩

/-- Two logins on one connection, as the login benchmark performs them: the
first uid stays routed to the connection now logged in as the second. -/
theorem relogin_misroutes :
    ¬ Runs.Always step
        (fun manager => manager.RoutesToOwners ∧ manager.RelaysToOwners)
        initial
        [.authenticate 1 "bench1" "t1", .authenticate 1 "bench2" "t2"] := by
  intro halways
  have hroutes := (halways _ _ (List.prefix_refl _) rfl).1
  have hlogged := hroutes "bench1" 1 (by decide)
  have huid := hlogged.getUid_eq
  revert huid
  decide

/-! ## Presence across reconnects -/

def LiveAs (manager : SessionManager) (conn : Conn) (uid : String) : Prop :=
  manager.connected conn = true ∧ manager.LoggedInAs conn uid

def PresenceKept (manager : SessionManager) : Prop :=
  ∀ conn uid, manager.LiveAs conn uid →
    manager.isOnline uid = true ∧
      ∃ target, manager.getConnection uid = some target ∧
        manager.LiveAs target uid

theorem presenceKept_iff {manager : SessionManager} :
    manager.PresenceKept ↔
      ∀ conn uid, manager.LiveAs conn uid →
        ∃ target, manager.getConnection uid = some target ∧
          manager.LiveAs target uid := by
  constructor
  · intro hkept conn uid hlive
    exact (hkept conn uid hlive).2
  · intro hkept conn uid hlive
    obtain ⟨target, hroute, htarget⟩ := hkept conn uid hlive
    have husers : manager.users uid = some target := hroute
    have honline : manager.isOnline uid = true := by
      simp [isOnline, husers]
    exact ⟨honline, target, hroute, htarget⟩

theorem liveAs_authenticate
    (manager : SessionManager) (conn other : Conn)
    (uid token name : String) :
    (manager.authenticate conn uid token).LiveAs other name ↔
      if other = conn then manager.connected conn = true ∧ name = uid
      else manager.LiveAs other name := by
  by_cases heq : other = conn
  · simp [LiveAs, heq]
  · simp [LiveAs, heq]

theorem liveAs_deauthenticate
    (manager : SessionManager) (conn other : Conn) (name : String) :
    (manager.deauthenticate conn).LiveAs other name ↔
      other ≠ conn ∧ manager.LiveAs other name := by
  simp only [LiveAs, connected_deauthenticate, loggedInAs_deauthenticate]
  tauto

theorem liveAs_onDisconnection
    (manager : SessionManager) (conn other : Conn) (name : String) :
    ((manager.setDisconnected conn).onDisconnection conn).LiveAs other name ↔
      other ≠ conn ∧ manager.LiveAs other name := by
  simp [LiveAs, and_assoc]

/-- A login keeps presence when it does not put a dead connection in front of
a live one of the same uid, and does not take a connection away from another
uid that still has a live one.  Leaving keeps presence when no other live
connection shares the uid that is erased; the empty uid is never erased, so
there only its routed connection matters. -/
def Op.KeepsPresence (manager : SessionManager) : Op → Prop
  | .authenticate conn uid _ =>
      (manager.connected conn = true ∨
        ∀ other, other ≠ conn → ¬ manager.LiveAs other uid) ∧
      ∀ name other, manager.getConnection name = some conn → name ≠ uid →
        other ≠ conn → ¬ manager.LiveAs other name
  | .deauthenticate conn | .onDisconnection conn =>
      ∀ other, other ≠ conn → manager.LiveAs other (manager.getUid conn) →
        manager.getUid conn = "" ∧ manager.getConnection "" ≠ some conn

theorem presenceKept_authenticate_iff
    {manager : SessionManager} (hkept : manager.PresenceKept)
    (conn : Conn) (uid token : String) :
    (manager.authenticate conn uid token).PresenceKept ↔
      Op.KeepsPresence manager (.authenticate conn uid token) := by
  have hroute (name : String) :
      (manager.authenticate conn uid token).getConnection name =
        if name = uid then some conn else manager.getConnection name :=
    users_authenticate manager conn uid token name
  constructor
  · intro hnext
    have hlive {other name} (hother : other ≠ conn)
        (h : manager.LiveAs other name) :
        ∃ target,
          (manager.authenticate conn uid token).getConnection name =
            some target ∧
          (manager.authenticate conn uid token).LiveAs target name := by
      have hstill :
          (manager.authenticate conn uid token).LiveAs other name := by
        simpa [liveAs_authenticate, hother] using h
      exact (hnext other name hstill).2
    constructor
    · by_contra hdead
      push Not at hdead
      obtain ⟨hdown, other, hother, hlost⟩ := hdead
      obtain ⟨target, htarget, hconn⟩ := hlive hother hlost
      simp only [hroute, if_true, Option.some.injEq] at htarget
      subst target
      simp [liveAs_authenticate, hdown] at hconn
    · intro name other hname hne hother hlost
      obtain ⟨target, htarget, hconn⟩ := hlive hother hlost
      simp only [hroute, hne, if_false, hname,
        Option.some.injEq] at htarget
      subst target
      simp [liveAs_authenticate, hne] at hconn
  · rintro ⟨hfront, htaken⟩
    rw [presenceKept_iff] at hkept ⊢
    intro other name hlive
    rw [liveAs_authenticate] at hlive
    by_cases hname : name = uid
    · subst name
      have hup : manager.connected conn = true := by
        by_cases hother : other = conn
        · simp only [hother, if_true] at hlive
          exact hlive.1
        · simp only [hother, if_false] at hlive
          exact hfront.resolve_right fun hnone => hnone other hother hlive
      have hconn :
          (manager.authenticate conn uid token).LiveAs conn uid := by
        simpa [liveAs_authenticate] using hup
      exact ⟨conn, by simp [hroute], hconn⟩
    · have hother : other ≠ conn := by
        intro heq
        simp only [heq, if_true] at hlive
        exact hname hlive.2
      simp only [hother, if_false] at hlive
      obtain ⟨target, htarget, hsame⟩ := hkept other name hlive
      have hne : target ≠ conn := by
        intro heq
        subst target
        exact htaken name other htarget hname hother hlive
      have hstill :
          (manager.authenticate conn uid token).LiveAs target name := by
        simpa [liveAs_authenticate, hne] using hsame
      exact ⟨target, by simpa [hroute, hname] using htarget, hstill⟩

theorem presenceKept_leave_iff
    {manager next : SessionManager} {conn : Conn}
    (hkept : manager.PresenceKept)
    (hroute : ∀ uid, next.getConnection uid =
      if uid = manager.getUid conn ∧ uid ≠ "" then none
      else manager.getConnection uid)
    (hlive : ∀ other uid, next.LiveAs other uid ↔
      other ≠ conn ∧ manager.LiveAs other uid) :
    next.PresenceKept ↔
      ∀ other, other ≠ conn → manager.LiveAs other (manager.getUid conn) →
        manager.getUid conn = "" ∧ manager.getConnection "" ≠ some conn := by
  rw [presenceKept_iff] at hkept ⊢
  constructor
  · intro hnext other hother hother_live
    obtain ⟨target, htarget, htarget_live⟩ :=
      hnext other (manager.getUid conn)
        ((hlive other _).mpr ⟨hother, hother_live⟩)
    rw [hroute] at htarget
    have hempty : manager.getUid conn = "" := by
      by_contra hne
      simp [hne] at htarget
    rw [hempty] at htarget
    simp only [ne_eq, not_true_eq_false, and_false, if_false] at htarget
    have hother_target : target ≠ conn :=
      ((hlive target _).mp htarget_live).1
    have hfree : manager.getConnection "" ≠ some conn := by
      rw [htarget]
      simpa using hother_target
    exact ⟨hempty, hfree⟩
  · intro hleave other uid hother
    obtain ⟨hne, hother⟩ := (hlive other uid).mp hother
    obtain ⟨target, htarget, htarget_live⟩ := hkept other uid hother
    by_cases huid : uid = manager.getUid conn
    · obtain ⟨hempty, hfree⟩ := hleave other hne (huid ▸ hother)
      have hkeep : target ≠ conn := by
        intro heq
        apply hfree
        rw [← heq, ← htarget, huid, hempty]
      have hrouted : next.getConnection uid = some target := by
        rw [hroute, if_neg, htarget]
        exact fun h => h.2 (huid.trans hempty)
      exact ⟨target, hrouted, (hlive target uid).mpr ⟨hkeep, htarget_live⟩⟩
    · have hkeep : target ≠ conn := by
        intro heq
        subst target
        exact huid htarget_live.2.getUid_eq.symm
      have hrouted : next.getConnection uid = some target := by
        rw [hroute, if_neg, htarget]
        exact fun h => huid h.1
      exact ⟨target, hrouted, (hlive target uid).mpr ⟨hkeep, htarget_live⟩⟩

theorem presenceKept_apply_iff
    {manager : SessionManager} (hkept : manager.PresenceKept) (op : Op) :
    (manager.apply op).PresenceKept ↔ op.KeepsPresence manager := by
  cases op with
  | authenticate conn uid token =>
      exact presenceKept_authenticate_iff hkept conn uid token
  | deauthenticate conn =>
      exact presenceKept_leave_iff hkept
        (users_deauthenticate manager conn)
        (fun other uid => liveAs_deauthenticate manager conn other uid)
  | onDisconnection conn =>
      apply presenceKept_leave_iff hkept
      · intro uid
        have hroute :=
          users_onDisconnection (manager.setDisconnected conn) conn uid
        rwa [getUid_setDisconnected, users_setDisconnected] at hroute
      · intro other uid
        exact liveAs_onDisconnection manager conn other uid

theorem initial_presenceKept : initial.PresenceKept := by
  rintro conn uid ⟨-, session, hcontext, -⟩
  simp [initial, getContext] at hcontext

/-- Presence survives along exactly those histories in which no connection
leaves, and none is given a login, at the expense of another live connection
of the same user. -/
theorem presence_kept_iff (ops : List Op) :
    Runs.Always step PresenceKept initial ops ↔
      Runs.EachStep step (fun manager op => op.KeepsPresence manager)
        initial ops := by
  apply Runs.always_iff_eachStep initial_presenceKept
  intro manager op next hstep hkept
  simp only [step, Option.some.injEq] at hstep
  subst next
  exact presenceKept_apply_iff hkept op

/-- The reconnect of the design document: the new connection logs in before
the old one is reported down, and goes offline with it. -/
theorem reconnect_loses_presence :
    ¬ Runs.Always step PresenceKept initial
        [.authenticate 1 "alice" "t", .authenticate 2 "alice" "t",
          .onDisconnection 1] := by
  intro halways
  have hkept := halways _ _ (List.prefix_refl _) rfl
  have honline := (hkept 2 "alice"
    ⟨by decide, ⟨"alice", "t", true⟩, by decide, rfl, rfl⟩).1
  revert honline
  decide

end SessionManager

end MuduoChat
