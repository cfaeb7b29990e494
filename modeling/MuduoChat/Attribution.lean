import MuduoChat.RequestHistories
import MuduoChat.TaskCalls

/-!
# On whose behalf the server acts

Messages, rooms, recalls and friend removals are performed under the uid in
the connection's context at reception.  That context was put there by the
connection's latest login, and a login succeeds only for a uid whose password
was verified or whose session the presented token belongs to.  So each such
call can be traced back to proof of identity given on the same connection.

Friend requests, friend responses and logouts are not of this kind: their uid
is a field of the envelope.  They are free of impersonation in those runs in
which every such envelope names the uid its connection is logged in as.
-/

namespace MuduoChat

/-! ## Events on behalf of users -/

/-- The uid under which the service call of a task acts, where the server
takes it from the envelope. -/
def Task.claimant : Task → Option String
  | addFriendRequest _ sender .. => some sender
  | respondFriendRequest _ _ responder _ => some responder
  | logout uid _ => some uid
  | _ => none

/-- The event is a call made for `request` on behalf of `uid`: the service
call a task starts with, or one of its repository calls. -/
def Event.ActsFor (request : Nat) (uid : String) : Event → Prop
  | .started number task => number = request ∧ task.actor = some uid
  | .called number call _ => number = request ∧ call.actor = some uid
  | _ => False

def Event.IsAuthOn (conn : Conn) : Event → Prop
  | .loggedIn _ other _ | .loggedOut _ other => other = conn
  | _ => False

namespace ChatServer

/-! ## Proof of identity -/

/-- `event` is the latest login or logout on `conn` in the record, and
`older` is what was recorded before it. -/
def LatestAuth (conn : Conn) (log : List Event) (event : Event)
    (older : List Event) : Prop :=
  event.IsAuthOn conn ∧ ∃ newer, log = newer ++ event :: older ∧
    ∀ other ∈ newer, ¬ other.IsAuthOn conn

theorem latestAuth_cons {conn : Conn} {log older : List Event}
    {event other : Event} (hother : ¬ other.IsAuthOn conn)
    (hlatest : LatestAuth conn log event older) :
    LatestAuth conn (other :: log) event older := by
  obtain ⟨hevent, newer, rfl, hnewer⟩ := hlatest
  have hlonger : ∀ third ∈ other :: newer, ¬ third.IsAuthOn conn := by
    intro third hthird
    rcases List.mem_cons.mp hthird with rfl | hmem
    · exact hother
    · exact hnewer third hmem
  exact ⟨hevent, other :: newer, rfl, hlonger⟩

theorem latestAuth_of_loginOf {conn : Conn} {log : List Event}
    {uid : String} (hlogin : loginOf conn log = some uid) :
    ∃ request result older,
      LatestAuth conn log (.loggedIn request conn result) older ∧
        result.userInfo.uid = uid := by
  induction log with
  | nil => simp [loginOf] at hlogin
  | cons event rest ih =>
      cases event with
      | loggedIn request other result =>
          simp only [loginOf] at hlogin
          split_ifs at hlogin with heq
          · subst heq
            exact ⟨request, result, rest,
              ⟨rfl, [], rfl, by simp⟩, Option.some.inj hlogin⟩
          · obtain ⟨request', result', older, hlatest, huid⟩ := ih hlogin
            exact ⟨request', result', older, latestAuth_cons heq hlatest,
              huid⟩
      | loggedOut request other =>
          simp only [loginOf] at hlogin
          split_ifs at hlogin with heq
          obtain ⟨request', result', older, hlatest, huid⟩ := ih hlogin
          exact ⟨request', result', older, latestAuth_cons heq hlatest, huid⟩
      | _ =>
          obtain ⟨request', result', older, hlatest, huid⟩ := ih hlogin
          exact ⟨request', result', older,
            latestAuth_cons (fun hauth => hauth) hlatest, huid⟩

/-- The login request numbered `request` was received on `conn`, and either
the submitted uid and password were verified or the submitted token belongs to
a session of `uid`. -/
def Proven (log : List Event) (request : Nat) (conn : Conn)
    (uid : String) : Prop :=
  ∃ req older, .received request conn (.loginReq req) :: older <:+ log ∧
    ((req.uid = uid ∧
        .called request (.verifyUser uid req.passwd) true ∈ log) ∨
      ∃ session, session.uid = uid ∧
        .called request (.getSessionByToken req.token) (some session) ∈ log)

/-- `getUserInfo` returns records of the uid it was asked for. -/
def UserInfoSound (log : List Event) : Prop :=
  ∀ request uid info, .called request (.getUserInfo uid) (some info) ∈ log →
    info.uid = uid

theorem proven_of_explained {config : ServerConfig} {older : List Event}
    {request : Nat} {conn : Conn} {result : LoginResult}
    (hsound : UserInfoSound older)
    (hexplained : Explained config older (.loggedIn request conn result)) :
    result.success = true ∧
      Proven older request conn result.userInfo.uid := by
  obtain ⟨callback, token, hentry, task, calls, hcaused, hreaches, hcalls⟩ :=
    hexplained
  refine ⟨(entry_eq_some hentry).1, ?_⟩
  rcases ensures_entry config.nodeId task calls _ hreaches callback conn result
    token rfl hentry with
    ⟨uid, passwd, rfl, hverified, hcollected⟩ |
      ⟨presented, session, rfl, hsession, hcollected⟩
  · have huid : result.userInfo.uid = uid :=
      hsound _ _ _ (hcalls _ hcollected.userInfo)
    rcases hcaused with hfollow | ⟨conn', envelope, before, hreceived, hreq⟩
    · exact False.elim hfollow
    · cases hreq with
      | login req =>
          refine ⟨req, before, hreceived, .inl ⟨huid.symm, ?_⟩⟩
          rw [huid]
          exact hcalls _ hverified
  · have huid : result.userInfo.uid = session.uid :=
      hsound _ _ _ (hcalls _ hcollected.userInfo)
    rcases hcaused with hfollow | ⟨conn', envelope, before, hreceived, hreq⟩
    · exact False.elim hfollow
    · cases hreq with
      | tokenLogin req htoken =>
          exact ⟨req, before, hreceived,
            .inr ⟨session, huid.symm, hcalls _ hsession⟩⟩

/-! ## Attribution -/

theorem Caused.login_of_actor {log : List Event} {request : Nat}
    {task : Task} {uid : String} (hcaused : Caused log request task)
    (hactor : task.actor = some uid) :
    ∃ conn envelope before,
      .received request conn envelope :: before <:+ log ∧
        loginOf conn before = some uid := by
  rcases hcaused with hfollow | ⟨conn, envelope, before, hreceived, hreq⟩
  · cases task <;> simp_all [Task.IsFollowUp, Task.actor]
  · exact ⟨conn, envelope, before, hreceived,
      login_of_requests hreq hactor⟩

theorem received_unique {config : ServerConfig} {log : List Event}
    (hlog : Runs.Justified (Explained config) log)
    {request : Nat} {conn conn' : Conn} {envelope envelope' : Envelope}
    {before before' : List Event}
    (hreceived : .received request conn envelope :: before <:+ log)
    (hreceived' : .received request conn' envelope' :: before' <:+ log) :
    conn' = conn ∧ envelope' = envelope ∧ before' = before := by
  rcases List.suffix_or_suffix_of_suffix hreceived hreceived' with hle | hle
  · rcases List.suffix_cons_iff.mp hle with heq | hle
    · cases heq
      exact ⟨rfl, rfl, rfl⟩
    · exact absurd (hle.subset List.mem_cons_self)
        (hlog _ _ hreceived' conn envelope)
  · rcases List.suffix_cons_iff.mp hle with heq | hle
    · cases heq
      exact ⟨rfl, rfl, rfl⟩
    · exact absurd (hle.subset List.mem_cons_self)
        (hlog _ _ hreceived conn' envelope')

/-- Every call made on behalf of a uid stems from one envelope, received on a
connection whose latest authentication event was a successful login as that
uid, obtained on this connection by proof of identity. -/
def Attributed (server : ChatServer) : Prop :=
  ∀ event older request uid, event :: older <:+ server.history →
    event.ActsFor request uid →
      ∃ conn envelope before,
        .received request conn envelope :: before <:+ older ∧
        (∀ conn' envelope' before',
          .received request conn' envelope' :: before' <:+ older →
            conn' = conn ∧ envelope' = envelope) ∧
        ∃ login result earlier,
          LatestAuth conn before (.loggedIn login conn result) earlier ∧
          result.success = true ∧ result.userInfo.uid = uid ∧
          Proven earlier login conn uid

theorem LatestAuth.suffix {conn : Conn} {log older : List Event}
    {event : Event} (hlatest : LatestAuth conn log event older) :
    event :: older <:+ log := by
  obtain ⟨-, newer, rfl, -⟩ := hlatest
  exact List.suffix_append newer _

theorem Accounted.loggedIn_of_actsFor {config : ServerConfig}
    {server : ChatServer} (haccounted : Accounted config server)
    {event : Event} {older : List Event} {request : Nat} {uid : String}
    (hevent : event :: older <:+ server.history)
    (hacts : event.ActsFor request uid) :
    ∃ conn envelope before,
      .received request conn envelope :: before <:+ older ∧
        loginOf conn before = some uid := by
  have hexplained := haccounted.events event older hevent
  cases event with
  | started number task =>
      obtain ⟨rfl, hactor⟩ := hacts
      exact hexplained.login_of_actor hactor
  | called number call answer =>
      obtain ⟨rfl, hactor⟩ := hacts
      obtain ⟨next, task, calls, hcaused, hreaches, -⟩ := hexplained
      have hactors :=
        (task.onlyCalls_actor config.nodeId calls call next hreaches).1
      have htask : task.actor = some uid := by
        rcases hactors with hnone | hsame
        · rw [hactor] at hnone
          simp at hnone
        · rw [← hsame, hactor]
      exact hcaused.login_of_actor htask
  | _ => exact False.elim hacts

theorem Accounted.attributed {config : ServerConfig} {server : ChatServer}
    (haccounted : Accounted config server)
    (hsound : UserInfoSound server.history) : server.Attributed := by
  intro event older request uid hevent hacts
  obtain ⟨conn, envelope, before, hreceived, hlogin⟩ :=
    haccounted.loggedIn_of_actsFor hevent hacts
  obtain ⟨login, result, earlier, hlatest, huid⟩ :=
    latestAuth_of_loginOf hlogin
  have holder : older <:+ server.history :=
    (List.suffix_cons event older).trans hevent
  have hlogged : .loggedIn login conn result :: earlier <:+ server.history :=
    ((hlatest.suffix.trans (List.suffix_cons _ before)).trans hreceived).trans
      holder
  have hearlier : UserInfoSound earlier := by
    intro number name info hmem
    exact hsound number name info
      (hlogged.subset (List.mem_cons_of_mem _ hmem))
  obtain ⟨hsuccess, hproven⟩ := proven_of_explained hearlier
    (haccounted.events _ _ hlogged)
  have hunique : ∀ conn' envelope' before',
      .received request conn' envelope' :: before' <:+ older →
        conn' = conn ∧ envelope' = envelope := by
    intro conn' envelope' before' hreceived'
    obtain ⟨hconn, henvelope, -⟩ := received_unique haccounted.events
      (hreceived.trans holder) (hreceived'.trans holder)
    exact ⟨hconn, henvelope⟩
  exact ⟨conn, envelope, before, hreceived, hunique, login, result, earlier,
    hlatest, hsuccess, huid, huid ▸ hproven⟩

def Action.UserInfoMatches : Action → Prop
  | .call _ (.getUserInfo uid) (some info) => info.uid = uid
  | _ => True

theorem userInfoSound_of_run {config : ServerConfig} {actions : List Action}
    {server : ChatServer}
    (hmatches : ∀ action ∈ actions, action.UserInfoMatches)
    (hrun : Runs.runFrom (step config) initial actions = some server) :
    UserInfoSound server.history := by
  have heach : Runs.EachStep (step config)
      (fun _ action => action.UserInfoMatches) initial actions :=
    Runs.eachStep_of_forall fun action hmem _ => hmatches action hmem
  have halways : Runs.Always (step config)
      (fun server => UserInfoSound server.history) initial actions := by
    refine Runs.always_of_eachStep ?_ ?_ heach
    · intro request uid info hmem
      simp [initial] at hmem
    · intro before action next hstep hsound hmatch request uid info hmem
      rcases (steps_of_step hstep).called_mem hmem with hold | ⟨index, rfl⟩
      · exact hsound request uid info hold
      · exact hmatch
  exact halways actions server (List.prefix_refl _) hrun

/-- In every run, under every interleaving, whatever the server does on
behalf of a user goes back to an envelope from a connection on which that
user has proved their identity and is still logged in. -/
theorem attributed_of_run {config : ServerConfig} {actions : List Action}
    {server : ChatServer}
    (hmatches : ∀ action ∈ actions, action.UserInfoMatches)
    (hrun : Runs.runFrom (step config) initial actions = some server) :
    server.Attributed :=
  (accounted_of_run hrun).attributed (userInfoSound_of_run hmatches hrun)

def greeting : List Action :=
  passwordLogin 1 "alice" "pw" "t" ++
    [.callback 0 5,
      .receive 1 (.chatMsg { recipient := "bob", content := "hi" }),
      .start,
      .call 0 (.storeMessage "alice" "bob" "" "hi") 7]

theorem attributed_greeting :
    ∃ server,
      Runs.runFrom (step { threads := 1, loopOf := fun _ => 0 }) initial
          greeting = some server ∧
        server.history.head? =
          some (.called 1 (.storeMessage "alice" "bob" "" "hi") 7) ∧
        server.Attributed := by
  obtain ⟨server, hrun⟩ : ∃ server,
      Runs.runFrom (step { threads := 1, loopOf := fun _ => 0 }) initial
        greeting = some server := ⟨_, rfl⟩
  have hhead : (Runs.runFrom (step { threads := 1, loopOf := fun _ => 0 })
      initial greeting).map (fun server => server.history.head?) =
        some (some (.called 1 (.storeMessage "alice" "bob" "" "hi") 7)) :=
    rfl
  rw [hrun] at hhead
  refine ⟨server, hrun, Option.some.inj hhead, attributed_of_run ?_ hrun⟩
  simp [greeting, passwordLogin, Action.UserInfoMatches]

/-! ## Requests that name their own actor -/

/-- Friend requests, friend responses and logouts are performed only for the
uid their connection was logged in as at reception. -/
def FreeOfImpersonation (server : ChatServer) : Prop :=
  ∀ request task older uid,
    .started request task :: older <:+ server.history →
      task.claimant = some uid →
        ∃ conn envelope before,
          .received request conn envelope :: before <:+ older ∧
            loginOf conn before = some uid

/-- An envelope received under `login` names no other uid as its actor; a
logout needs a login. -/
def NamesLogin (login : Option String) : Envelope → Prop
  | .friendReq req => ∀ uid, login = some uid → req.fromUid = uid
  | .friendResp req => ∀ uid, login = some uid → req.fromUid = uid
  | .logoutReq req => login = some req.uid
  | _ => True

def SpeaksForItself (server : ChatServer) : Action → Prop
  | .receive conn envelope =>
      NamesLogin (server.sessions.loggedInUid conn) envelope
  | _ => True

theorem claimant_of_requests {login : Option String} {conn : Conn}
    {envelope : Envelope} {task : Task} {uid : String}
    (hrequests : Requests login conn envelope task)
    (hnames : NamesLogin login envelope)
    (hclaimant : task.claimant = some uid) : login = some uid := by
  cases hrequests <;> simp_all [Task.claimant, NamesLogin]

def Named (older : List Event) : Event → Prop
  | .received _ conn envelope => NamesLogin (loginOf conn older) envelope
  | _ => True

theorem Accounted.freeOfImpersonation {config : ServerConfig}
    {server : ChatServer} (haccounted : Accounted config server)
    (hnamed : Runs.Justified Named server.history) :
    server.FreeOfImpersonation := by
  intro request task older uid hstarted hclaimant
  rcases haccounted.events _ older hstarted with
    hfollow | ⟨conn, envelope, before, hreceived, hrequests⟩
  · cases task <;> simp_all [Task.IsFollowUp, Task.claimant]
  · have hhistory : .received request conn envelope :: before <:+
        server.history :=
      (hreceived.trans (List.suffix_cons _ older)).trans hstarted
    exact ⟨conn, envelope, before, hreceived,
      claimant_of_requests hrequests (hnamed _ before hhistory) hclaimant⟩

/-- No friend request, friend response or logout is performed for a uid other
than the one logged in at reception, in any run in which every such envelope
names that uid. -/
theorem no_impersonation_of_speaksForItself (config : ServerConfig)
    {actions : List Action}
    (hspeaks : Runs.EachStep (step config) SpeaksForItself initial
      actions) :
    Runs.Always (step config) FreeOfImpersonation initial actions := by
  have halways : Runs.Always (step config)
      (fun server => Accounted config server ∧
        Runs.Justified Named server.history) initial actions := by
    refine Runs.always_of_eachStep
      ⟨initial_accounted config, Runs.justified_nil⟩ ?_ hspeaks
    rintro server action next hstep ⟨haccounted, hnamed⟩ hnames
    refine ⟨haccounted.step hstep,
      (steps_of_step hstep).justified hnamed ?_ ?_⟩
    · intro older event hevent
      cases event with
      | received request conn envelope =>
          exact absurd rfl (hevent request conn envelope)
      | _ => trivial
    · rintro conn envelope rfl
      show NamesLogin (loginOf conn server.history) envelope
      rw [← haccounted.logins conn]
      exact hnames
  intro before server hinit hrun
  obtain ⟨haccounted, hnamed⟩ := halways before server hinit hrun
  exact haccounted.freeOfImpersonation hnamed

theorem no_impersonation_logout :
    Runs.Always (step { threads := 1, loopOf := fun _ => 0 })
      FreeOfImpersonation initial
      ((passwordLogin 1 "alice" "pw" "t" ++ [.callback 0 5]) ++
        [.receive 1 (.logoutReq { uid := "alice", token := "t" }),
          .start]) := by
  refine no_impersonation_of_speaksForItself _
    (Runs.EachStep.append (Runs.eachStep_of_forall ?_) ?_)
  · intro action hmem state
    simp only [passwordLogin, List.cons_append, List.nil_append,
      List.mem_cons, List.not_mem_nil, or_false] at hmem
    rcases hmem with rfl | rfl | rfl | rfl | rfl | rfl | rfl | rfl | rfl |
      rfl | rfl <;> trivial
  · intro server hrun
    cases hrun
    refine Runs.eachStep_cons.mpr fun next hstep => ⟨rfl, ?_⟩
    exact Runs.eachStep_of_forall (by simp [SpeaksForItself])

def emptySender : List Action :=
  passwordLogin 1 "alice" "pw" "t" ++
    [.callback 0 5,
      .receive 1 (.friendReq { toUid := "bob", message := "hi" }),
      .start]

theorem client_friend_request_impersonates :
    ¬ Runs.Always (step { threads := 1, loopOf := fun _ => 0 })
        FreeOfImpersonation initial emptySender := by
  intro halways
  obtain ⟨server, hrun⟩ : ∃ server,
      Runs.runFrom (step { threads := 1, loopOf := fun _ => 0 }) initial
        emptySender = some server := ⟨_, rfl⟩
  have hlog : ∃ before, server.history =
      .started 1 (.addFriendRequest 1 "" "bob" "hi") ::
        .received 1 1 (.friendReq { toUid := "bob", message := "hi" }) ::
          before ∧ loginOf 1 before = some "alice" := by
    cases hrun
    exact ⟨_, rfl, rfl⟩
  obtain ⟨before, hhistory, halice⟩ := hlog
  obtain ⟨conn, envelope, before', hreceived, hlogin⟩ :=
    halways _ server (List.prefix_refl _) hrun 1
      (.addFriendRequest 1 "" "bob" "hi") _ ""
      (by rw [hhistory]) rfl
  have hevents := (accounted_of_run hrun).events
  rw [hhistory] at hevents
  obtain ⟨rfl, -, rfl⟩ := received_unique hevents
    (List.suffix_cons _ _) (hreceived.trans (List.suffix_cons _ _))
  rw [halice] at hlogin
  simp at hlogin

end ChatServer

end MuduoChat
