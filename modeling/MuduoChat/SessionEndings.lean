import MuduoChat.NodeTokens
import MuduoChat.TokenRevocation

/-!
# What a logout ends

A connection that is logged in holds the token of its login in its context.
`handleLogout` does not look at it: it revokes the token the request carries.
When that is the same one, the session is gone for good once the task of the
logout has completed, however its commands interleave with those of other
logins.  When it is not, `revokeAllSessions` does not help, and the token goes
on working.
-/

namespace MuduoChat

namespace ChatNode

variable {config : ServerConfig} {node next : ChatNode} {action : Action}
  {token : String}

/-! ## Tokens in callbacks and contexts -/

/-- The tokens of logins that are waiting to be applied, and those in the
contexts of connections, are spent. -/
structure TokensGranted (config : ServerConfig) (node : ChatNode) :
    Prop where
  tracked : TokensTracked config node
  waiting : ∀ loop, ∀ functor ∈ node.server.loops loop,
    ∀ conn result token,
      ChatServer.entry functor.callback = some (conn, result, token) →
        SpentOn node (cstr token)
  granted : ∀ conn session,
    node.server.sessions.getContext conn = some session →
      session.authenticated = true → SpentOn node (cstr session.token)

theorem TokensGranted.step (hnode : TokensGranted config node)
    (hstep : step config node action = some next) :
    TokensGranted config next := by
  obtain ⟨htracked, hspent⟩ := hnode.tracked.step hstep
  have hspent (token : String) (htoken : SpentOn node (cstr token)) :
      SpentOn next (cstr token) := (hspent (cstr token) htoken).1
  have hsame (hloops : next.server.loops = node.server.loops)
      (hcontexts : ∀ conn session,
        next.server.sessions.getContext conn = some session →
          session.authenticated = true →
            node.server.sessions.getContext conn = some session) :
      TokensGranted config next := by
    refine ⟨htracked, ?_, ?_⟩
    · intro loop functor hfunctor conn result token hentry
      rw [hloops] at hfunctor
      exact hspent token (hnode.waiting loop functor hfunctor conn result
        token hentry)
    · intro conn session hcontext hauth
      exact hspent session.token (hnode.granted conn session
        (hcontexts conn session hcontext hauth) hauth)
  cases steps_of_step hstep with
  | receive conn envelope =>
      apply hsame (loops_receive node.server conn envelope)
      intro other session hcontext hauth
      exact getContext_receive hcontext hauth
  | close conn =>
      apply hsame rfl
      intro other session hcontext _
      simpa [ChatServer.close, ChatServer.record, ChatServer.withSessions]
        using hcontext
  | @finish index thread callback hthread hprog =>
      have hmem := List.mem_of_getElem? hthread
      have hsessions :=
        queueInLoop_sessions config node.server thread.op.request callback
      refine ⟨htracked, ?_, ?_⟩
      · intro loop functor hfunctor conn result token hentry
        apply hspent token
        rcases mem_loops_queueInLoop hfunctor with hold | ⟨hdone, _⟩
        · exact hnode.waiting loop functor hold conn result token hentry
        · obtain ⟨_, hobeys⟩ :=
            track_tokenPhase (hnode.tracked.faithful thread hmem)
          have hphase : tokenPhase thread ∈ tokenPhases node :=
            List.mem_map_of_mem hmem
          rw [hprog] at hobeys
          rcases hobeys functor.callback conn result token hdone hentry with
            hwritten | hseen
          · exact hnode.tracked.tokens.spent_of_written
              (hwritten ▸ hphase)
          · exact hnode.tracked.tokens.seen _ (hseen ▸ hphase)
      · intro conn session hcontext hauth
        exact hspent session.token (hnode.granted conn session
          (hsessions ▸ hcontext) hauth)
  | callback loop now functor rest hloop =>
      obtain ⟨_, hloops, _⟩ :=
        afterCallback_frame node loop now functor rest
      have hwaiting := hnode.waiting loop functor
        (hloop ▸ List.mem_cons_self)
      refine ⟨htracked, ?_, ?_⟩
      · intro other each heach conn result token hentry
        rw [hloops] at heach
        exact hspent token (hnode.waiting other each
          (mem_loops_of_mem_rest hloop heach) conn result token hentry)
      · intro conn session hcontext hauth
        apply hspent session.token
        rcases getContext_afterCallback hcontext with
          hold | ⟨result, hentry, _⟩
        · exact hnode.granted conn session hold hauth
        · exact hwaiting conn result session.token hentry
  | _ => exact hsame rfl fun _ _ hcontext _ => hcontext

/-! ## The task of a logout -/

/-- How far a logout has come with deleting its token; `lost` is a logout
that got no connection or whose command was not executed. -/
inductive LogoutPhase where
  | asked
  | connected
  | deleted
  | lost
  deriving DecidableEq

namespace LogoutPhase

def advance (token : String) :
    LogoutPhase → (call : NodeCall) → call.Answer → Option LogoutPhase
  | asked, .session (.redis .getConnection), conn =>
      some (if conn then connected else lost)
  | connected, .session (.redis (.command (.del key))), outcome =>
      if key = sessionKey (cstr token) then
        some (if outcome.executed then deleted else lost)
      else none
  | deleted, _, _ => some deleted
  | lost, _, _ => some lost
  | _, _, _ => none

/-- A logout that returns has deleted its token or lost the command, and
leaves no callback. -/
def Over (phase : LogoutPhase) (callback : Option Callback) : Prop :=
  (phase = deleted ∨ phase = lost) ∧ callback = none

theorem obeys_revokeAll (token uid : String) {phase : LogoutPhase}
    (hphase : phase = deleted ∨ phase = lost) :
    Prog.Obeys (advance token) (fun after _ => after = phase) phase
      (overSession (overRedis
        (RedisSessionRepo.revokeAllSessions uid))) := by
  have hstay (call : NodeCall) (answer : call.Answer) :
      advance token phase call answer = some phase := by
    rcases hphase with rfl | rfl <;> rfl
  intro conn
  refine ⟨phase, hstay _ conn, ?_⟩
  cases conn with
  | false => exact rfl
  | true =>
      intro found
      refine ⟨phase, hstay _ found, ?_⟩
      intro online
      refine ⟨phase, hstay _ online, ?_⟩
      intro route
      exact ⟨phase, hstay _ route, rfl⟩

theorem obeys_logout (nodeId uid token : String) :
    Prog.Obeys (advance token) Over asked
      (((Task.logout uid token).program nodeId).translate
        answerRepository) := by
  have hrest {phase : LogoutPhase} (hphase : phase = deleted ∨ phase = lost) :
      Prog.Obeys (advance token) Over phase
        (overSession (overRedis
          (RedisSessionRepo.revokeAllSessions uid)) >>= fun _ =>
            .ret none) := by
    apply (obeys_revokeAll token uid hphase).bind
    intro after revoked hafter
    subst hafter
    exact ⟨hphase, rfl⟩
  intro conn
  cases conn with
  | false => exact ⟨lost, rfl, hrest (.inr rfl)⟩
  | true =>
      refine ⟨connected, rfl, ?_⟩
      intro outcome
      refine ⟨if outcome.executed then deleted else lost,
        if_pos (cstr_sessionKey token), ?_⟩
      apply hrest
      cases outcome.executed
      · exact .inr rfl
      · exact .inl rfl

variable {token : String} {phase next : LogoutPhase} {call : NodeCall}
  {answer : call.Answer}

/-- The steps of the automaton. -/
inductive Advances (token : String) : LogoutPhase → (call : NodeCall) →
    call.Answer → LogoutPhase → Prop
  | connect (conn : Bool) :
      Advances token asked (.session (.redis .getConnection)) conn
        (if conn then connected else lost)
  | delete (outcome : CommandOutcome) :
      Advances token connected
        (.session (.redis (.command (.del (sessionKey (cstr token)))))) outcome
        (if outcome.executed then deleted else lost)
  | stay (phase : LogoutPhase) (call : NodeCall) (answer : call.Answer)
      (hphase : phase = deleted ∨ phase = lost) :
      Advances token phase call answer phase

theorem advances_of_advance
    (hadvance : advance token phase call answer = some next) :
    Advances token phase call answer next := by
  unfold advance at hadvance
  split at hadvance
  · cases hadvance
    exact .connect _
  · split at hadvance <;> cases hadvance
    rename_i heq
    subst heq
    exact .delete _
  · cases hadvance
    exact .stay _ _ _ (.inl rfl)
  · cases hadvance
    exact .stay _ _ _ (.inr rfl)
  · cases hadvance

theorem Advances.ne_asked (hadvances : Advances token phase call answer next) :
    next ≠ asked := by
  cases hadvances with
  | connect conn => cases conn <;> exact LogoutPhase.noConfusion
  | delete outcome =>
      cases hexecuted : outcome.executed <;> simp
  | stay phase call answer hphase =>
      rcases hphase with rfl | rfl <;> exact LogoutPhase.noConfusion

theorem log_of_asked {log : List (Sigma NodeCall.Answer)}
    (htrack : Prog.track (advance token) asked log = some asked) :
    log = [] := by
  cases log with
  | nil => rfl
  | cons entry rest =>
      obtain ⟨middle, hadvance, hrest⟩ :=
        Option.bind_eq_some_iff.mp htrack
      have hmiddle : middle ≠ asked :=
        (advances_of_advance hadvance).ne_asked
      have hkeep (phase : LogoutPhase) (call : NodeCall)
          (answer : call.Answer) (next : LogoutPhase)
          (hadvance : advance token phase call answer = some next)
          (_ : phase ≠ asked) : next ≠ asked :=
        (advances_of_advance hadvance).ne_asked
      have hasked : asked ≠ asked :=
        Prog.track_invariant hkeep hrest hmiddle
      exact (hasked rfl).elim

end LogoutPhase

def logoutPhase (token : String) (thread : NodeThread) : LogoutPhase :=
  (Prog.track (LogoutPhase.advance token) .asked thread.log).getD .lost

theorem track_logoutPhase {thread : NodeThread} {uid : String}
    (hthread : (system config).Faithful thread)
    (htask : thread.op.task = .logout uid token) :
    Prog.track (LogoutPhase.advance token) .asked thread.log =
        some (logoutPhase token thread) ∧
      Prog.Obeys (LogoutPhase.advance token) LogoutPhase.Over
        (logoutPhase token thread) thread.prog := by
  have hprogram : Prog.Obeys (LogoutPhase.advance token) LogoutPhase.Over
      .asked ((system config).program thread.op) := by
    have hlogout := LogoutPhase.obeys_logout config.nodeId uid token
    rw [← htask] at hlogout
    exact hlogout
  exact hthread.obeys_getD hprogram .lost

/-- The call that should delete the token does not. -/
def Unexecuted (log : List (Sigma NodeCall.Answer)) (token : String) :
    (call : NodeCall) → call.Answer → Prop
  | .session (.redis .getConnection), conn => log = [] ∧ conn = false
  | .session (.redis (.command (.del key))), outcome =>
      key = sessionKey (cstr token) ∧ outcome.executed = false
  | _, _ => False

theorem logoutPhase_exec {thread : NodeThread} {uid : String}
    {call : NodeCall} {answer : call.Answer} {world after : NodeWorld}
    {rest : call.Answer → NodeProg (Option Callback)}
    (hthread : (system config).Faithful thread)
    (htask : thread.op.task = .logout uid token)
    (hprog : thread.prog = .call call rest)
    (heffect : world.effect call answer = some after)
    (hexecuted : ¬ Unexecuted thread.log token call answer)
    (hphase : logoutPhase token thread ≠ .lost) :
    logoutPhase token (thread.advance call answer (rest answer)) ≠ .lost ∧
      (logoutPhase token (thread.advance call answer (rest answer)) =
          .deleted →
        logoutPhase token thread = .deleted ∨
          after.redis.store.field (sessionKey (cstr token)) "uid" = none) := by
  obtain ⟨htrack, hobeys⟩ := track_logoutPhase hthread htask
  rw [hprog] at hobeys
  have hadvance : LogoutPhase.advance token (logoutPhase token thread) call
      answer = some (logoutPhase token
        (thread.advance call answer (rest answer))) :=
    hobeys.advance_eq htrack .lost answer
  generalize logoutPhase token
    (thread.advance call answer (rest answer)) = next at *
  generalize hold : logoutPhase token thread = phase at *
  cases LogoutPhase.advances_of_advance hadvance with
  | connect conn =>
      have hlog : thread.log = [] := LogoutPhase.log_of_asked htrack
      cases conn with
      | false => exact (hexecuted ⟨hlog, rfl⟩).elim
      | true => exact ⟨LogoutPhase.noConfusion, fun heq => nomatch heq⟩
  | delete outcome =>
      cases hdone : outcome.executed with
      | false => exact (hexecuted ⟨rfl, hdone⟩).elim
      | true =>
          refine ⟨LogoutPhase.noConfusion, fun _ => .inr ?_⟩
          obtain ⟨redis, hredis, rfl⟩ := Option.map_eq_some_iff.mp heffect
          rcases command_of_effect hredis with ⟨rfl, _⟩ | ⟨_, hlost, _⟩
          · exact ExpiringStore.field_delete
          · rw [hdone] at hlost
            cases hlost
  | stay phase call answer hstay =>
      exact ⟨hphase, fun heq => .inl heq⟩

/-! ## Sessions that end -/

/-- The request is a logout that revokes the token: until its task is over
it is on its way, and afterwards the session is gone. -/
structure Ending (node : ChatNode) (request : Nat) (token : String) :
    Prop where
  spent : SpentOn node (cstr token)
  numbered : request < node.server.requests
  queued : ∀ item ∈ node.server.queue, item.request = request →
    ∃ uid, item.task = .logout uid token
  running : ∀ thread ∈ node.threads, thread.op.request = request →
    (∃ uid, thread.op.task = .logout uid token) ∧
      logoutPhase token thread ≠ .lost ∧
      (logoutPhase token thread = .deleted →
        node.world.redis.store.field (sessionKey (cstr token)) "uid" = none)
  waiting : ∀ loop, ∀ functor ∈ node.server.loops loop,
    functor.request ≠ request
  ended : ∀ entry ∈ node.finished, entry.1.request = request →
    node.world.redis.store.field (sessionKey (cstr token)) "uid" = none

/-- A logout carries the token of the session it ends, and the command that
deletes it is executed. -/
def Honoured (node : ChatNode) : Action → Prop
  | .receive conn (.logoutReq req) =>
      ∀ session, node.server.sessions.getContext conn = some session →
        session.authenticated = true → req.token = session.token
  | .exec index call answer =>
      ∀ thread, node.threads[index]? = some thread →
        ∀ uid token, thread.op.task = .logout uid token →
          ¬ Unexecuted thread.log token call answer
  | _ => True

theorem Ending.step {request : Nat} (hending : Ending node request token)
    (hnode : TokensTracked config node)
    (hstep : step config node action = some next)
    (hhonoured : Honoured node action) : Ending next request token := by
  obtain ⟨_, hspent⟩ := hnode.step hstep
  obtain ⟨hspent, huid⟩ := hspent (cstr token) hending.spent
  cases steps_of_step hstep with
  | receive conn envelope =>
      have hrequests := requests_receive node.server conn envelope
      refine ⟨hspent, ?_, ?_, hending.running, ?_, hending.ended⟩
      · show request < (node.server.receive conn envelope).requests
        rw [hrequests]
        have hlt := hending.numbered
        omega
      · intro item hitem hrequest
        rcases mem_queue_receive hitem with hold | ⟨hnew, _⟩
        · exact hending.queued item hold hrequest
        · have hlt := hending.numbered
          omega
      · intro loop functor hfunctor
        have hold : functor ∈ node.server.loops loop := by
          rwa [← loops_receive node.server conn envelope]
        exact hending.waiting loop functor hold
  | start item rest hqueue =>
      have hmem (other : PoolTask) (hother : other ∈ item :: rest)
          (hrequest : other.request = request) :
          ∃ uid, other.task = .logout uid token :=
        hending.queued other (hqueue ▸ hother) hrequest
      refine ⟨hspent, hending.numbered, ?_, ?_, hending.waiting,
        hending.ended⟩
      · intro other hother hrequest
        exact hmem other (List.mem_cons_of_mem item hother) hrequest
      · intro thread hthread hrequest
        rcases List.mem_append.mp hthread with hold | hnew
        · exact hending.running thread hold hrequest
        · rw [List.mem_singleton.mp hnew] at hrequest ⊢
          exact ⟨hmem item List.mem_cons_self hrequest,
            LogoutPhase.noConfusion, fun heq => nomatch heq⟩
  | @exec index call answer thread world rest hthread hprog heffect =>
      have hmem := List.mem_of_getElem? hthread
      refine ⟨hspent, hending.numbered, hending.queued, ?_,
        hending.waiting, ?_⟩
      · intro other hother hrequest
        rcases List.mem_or_eq_of_mem_set hother with hold | rfl
        · obtain ⟨htask, hlost, hdeleted⟩ :=
            hending.running other hold hrequest
          exact ⟨htask, hlost, fun heq => huid (hdeleted heq)⟩
        · obtain ⟨⟨uid, htask⟩, hlost, hdeleted⟩ :=
            hending.running thread hmem hrequest
          obtain ⟨hnext, hgone⟩ := logoutPhase_exec
            (hnode.faithful thread hmem) htask hprog heffect
            (hhonoured thread hthread uid token htask) hlost
          refine ⟨⟨uid, htask⟩, hnext, ?_⟩
          intro heq
          rcases hgone heq with hbefore | hnone
          · exact huid (hdeleted hbefore)
          · exact hnone
      · intro entry hentry hrequest
        exact huid (hending.ended entry hentry hrequest)
  | @finish index thread callback hthread hprog =>
      have hmem := List.mem_of_getElem? hthread
      have hrequests :=
        queueInLoop_requests config node.server thread.op.request callback
      have hqueue :=
        queueInLoop_queue config node.server thread.op.request callback
      refine ⟨hspent, hrequests ▸ hending.numbered, ?_, ?_, ?_, ?_⟩
      · intro item hitem
        exact hending.queued item (hqueue ▸ hitem)
      · intro other hother
        exact hending.running other (List.mem_of_mem_eraseIdx hother)
      · intro loop functor hfunctor hrequest
        rcases mem_loops_queueInLoop hfunctor with hold | ⟨hdone, hown⟩
        · exact hending.waiting loop functor hold hrequest
        · obtain ⟨⟨uid, htask⟩, _, _⟩ :=
            hending.running thread hmem (hown.symm.trans hrequest)
          obtain ⟨_, hobeys⟩ :=
            track_logoutPhase (hnode.faithful thread hmem) htask
          rw [hprog] at hobeys
          rw [hobeys.2] at hdone
          cases hdone
      · intro entry hentry hrequest
        rcases List.mem_cons.mp hentry with rfl | hold
        · obtain ⟨⟨uid, htask⟩, hlost, hdeleted⟩ :=
            hending.running thread hmem hrequest
          obtain ⟨_, hobeys⟩ :=
            track_logoutPhase (hnode.faithful thread hmem) htask
          rw [hprog] at hobeys
          exact hdeleted (hobeys.1.resolve_right hlost)
        · exact hending.ended entry hold hrequest
  | callback loop now functor rest hloop =>
      obtain ⟨hrequests, hloops, tasks, hqueue, _⟩ :=
        afterCallback_frame node loop now functor rest
      have hother : functor.request ≠ request :=
        hending.waiting loop functor (hloop ▸ List.mem_cons_self)
      refine ⟨hspent, hrequests ▸ hending.numbered, ?_, hending.running,
        ?_, hending.ended⟩
      · intro item hitem hrequest
        rw [hqueue] at hitem
        rcases List.mem_append.mp hitem with hold | hnew
        · exact hending.queued item hold hrequest
        · obtain ⟨task, _, rfl⟩ := List.mem_map.mp hnew
          exact (hother hrequest).elim
      · intro other each heach
        rw [hloops] at heach
        exact hending.waiting other each (mem_loops_of_mem_rest hloop heach)
  | disturb hdisturb =>
      refine ⟨hspent, hending.numbered, hending.queued, ?_,
        hending.waiting, ?_⟩
      · intro thread hthread hrequest
        obtain ⟨htask, hlost, hdeleted⟩ :=
          hending.running thread hthread hrequest
        exact ⟨htask, hlost, fun heq => huid (hdeleted heq)⟩
      · intro entry hentry hrequest
        exact huid (hending.ended entry hentry hrequest)
  | invalidLength | parseError | close =>
      exact ⟨hspent, hending.numbered, hending.queued, hending.running,
        hending.waiting, hending.ended⟩

/-- Receiving a logout with the token of the session starts its end. -/
theorem ending_receive {conn : Conn} {req : LogoutRequest}
    {session : Session} (hnode : TokensGranted config node)
    (hnumbered : Numbered node)
    (hcontext : node.server.sessions.getContext conn = some session)
    (hauth : session.authenticated = true)
    (htoken : req.token = session.token)
    (hstep : step config node (.receive conn (.logoutReq req)) = some next) :
    Ending next node.server.requests session.token := by
  have hspent : SpentOn node (cstr session.token) :=
    hnode.granted conn session hcontext hauth
  obtain ⟨_, hstays⟩ := hnode.tracked.step hstep
  obtain ⟨hspent, _⟩ := hstays (cstr session.token) hspent
  cases steps_of_step hstep
  refine ⟨hspent, ?_, ?_, ?_, ?_, ?_⟩
  · show node.server.requests <
      (node.server.receive conn (.logoutReq req)).requests
    rw [requests_receive]
    omega
  · intro item hitem hrequest
    rcases mem_queue_receive hitem with hold | ⟨_, hasked⟩
    · have hlt := hnumbered.queue item hold
      omega
    · generalize htask : item.task = task at hasked
      cases hasked
      exact ⟨req.uid, by rw [← htoken]⟩
  · intro thread hthread hrequest
    have hlt := hnumbered.threads thread hthread
    omega
  · intro loop functor hfunctor hrequest
    have hold : functor ∈ node.server.loops loop := by
      rwa [← loops_receive node.server conn (.logoutReq req)]
    have hlt := hnumbered.loops loop functor hold
    omega
  · intro entry hentry hrequest
    have hlt := hnumbered.finished entry hentry
    omega

/-! ## Refused tokens -/

/-- Whenever `loginWithToken` runs on this world, it fails. -/
def RefusesToken (world : NodeWorld) (token nodeId : String) : Prop :=
  Prog.Meets NodeWorld.effect (fun _ result => result.success = false) world
    ((LoginService.loginWithToken token nodeId).translate answerRepository)

theorem meets_overSession {α : Type} {post : α → Prop} {world : NodeWorld}
    {prog : LoginProg α}
    (hprog : Prog.Meets RedisWorld.effect (fun _ value => post value)
      world.redis prog) :
    Prog.Meets NodeWorld.effect (fun _ value => post value) world
      (overSession prog) := by
  induction prog generalizing world with
  | ret value => exact hprog
  | call request next ih =>
      intro answer after heffect
      obtain ⟨redis, hredis, rfl⟩ := Option.map_eq_some_iff.mp heffect
      exact ih answer (hprog answer redis hredis)

theorem refusesToken_of_uid {world : NodeWorld}
    (huid : world.redis.store.field (sessionKey (cstr token)) "uid" = none)
    (nodeId : String) : RefusesToken world token nodeId := by
  unfold RefusesToken LoginService.loginWithToken
  rw [Prog.translate_request_bind]
  have hlookup : Prog.Meets NodeWorld.effect
      (fun _ session => session = none) world
      (answerRepository (.getSessionByToken token)) :=
    meets_overSession (refuses_of_uid huid)
  apply hlookup.bind
  intro after session hsession
  subst hsession
  exact rfl

/-! ## Runs -/

/-- Whenever a connection that is logged in receives a logout, and the task
of this logout has completed, the token of the login is refused. -/
def LogoutEnds (config : ServerConfig) (start : ChatNode)
    (actions : List Action) : Prop :=
  ∀ before conn req after node session received last,
    before ++ .receive conn (.logoutReq req) :: after <+: actions →
    Runs.runFrom (step config) start before = some node →
    node.server.sessions.getContext conn = some session →
    session.authenticated = true →
    step config node (.receive conn (.logoutReq req)) = some received →
    Runs.runFrom (step config) received after = some last →
    (∃ callback, (PoolTask.mk node.server.requests
      (.logout req.uid req.token), callback) ∈ last.finished) →
        ∀ nodeId, RefusesToken last.world session.token nodeId

structure LogoutsKept (config : ServerConfig) (node : ChatNode) : Prop where
  granted : TokensGranted config node
  numbered : Numbered node

theorem LogoutsKept.step (hnode : LogoutsKept config node)
    (hstep : step config node action = some next) :
    LogoutsKept config next :=
  ⟨hnode.granted.step hstep, hnode.numbered.step hstep⟩

theorem logoutsKept_start (seed : SeededWorld) (db : Database) :
    LogoutsKept config { world := ⟨db, seed.world⟩ } := by
  refine ⟨⟨⟨by simp, seed.tokensKept⟩, ?_, ?_⟩, numbered_start _⟩
  · intro loop functor hfunctor
    cases hfunctor
  · intro conn session hcontext
    cases hcontext

/-- The end of a session, over a whole run: in every run in which each logout
carries the token of its session and its deletion is executed, a logout that
has completed has ended the session for good. -/
theorem logout_ends_of_honoured (config : ServerConfig) (seed : SeededWorld)
    (db : Database) (actions : List Action)
    (hhonoured : Runs.EachStep (step config) Honoured
      { world := ⟨db, seed.world⟩ } actions) :
    LogoutEnds config { world := ⟨db, seed.world⟩ } actions := by
  intro before conn req after node session received last hinit hbefore
    hcontext hauth hreceive hafter hdone nodeId
  obtain ⟨callback, hdone⟩ := hdone
  have hnode : LogoutsKept config node :=
    Runs.invariant_of_run (logoutsKept_start seed db)
      (fun _ _ _ hstep hkept => hkept.step hstep) hbefore
  have hsteps : Runs.EachStep (step config) Honoured node
      (.receive conn (.logoutReq req) :: after) :=
    Runs.EachStep.after hhonoured hinit hbefore
  obtain ⟨hown, hsteps⟩ := Runs.eachStep_cons.mp hsteps received hreceive
  have htoken : req.token = session.token := hown session hcontext hauth
  have hending : Ending received node.server.requests session.token :=
    ending_receive hnode.granted hnode.numbered hcontext hauth htoken
      hreceive
  have hkeep (state : ChatNode) (action : Action) (next : ChatNode)
      (hstep : step config state action = some next)
      (hstate : LogoutsKept config state ∧
        Ending state node.server.requests session.token)
      (hok : Honoured state action) :
      LogoutsKept config next ∧
        Ending next node.server.requests session.token :=
    ⟨hstate.1.step hstep, hstate.2.step hstate.1.granted.tracked
      hstep hok⟩
  have hlast := Runs.always_of_eachStep ⟨hnode.step hreceive, hending⟩ hkeep
    hsteps after last (List.prefix_refl after) hafter
  exact refusesToken_of_uid (hlast.2.ended _ hdone rfl) nodeId

/-- A logout that carries `token`, and its task. -/
def quietLogout (token : String) : List Action :=
  [.receive 0 (.logoutReq { uid := "ann", token := token }), .start,
    .exec 0 (.session (.redis .getConnection)) true,
    commandOf 0 (.del (sessionKey token)),
    .exec 0 (.session (.redis .getConnection)) true,
    commandOf 0 (.get (onlineKey "ann")),
    commandOf 0 (.del (onlineKey "ann")),
    commandOf 0 (.hdel userRoute "ann"), .finish 0]

/-- Actions that are honoured wherever they happen. -/
def Smooth : Action → Prop
  | .receive _ (.logoutReq _) => False
  | .exec _ (.session (.redis .getConnection)) conn => conn = true
  | .exec _ (.session (.redis (.command (.del _)))) outcome =>
      outcome.executed = true
  | _ => True

theorem Smooth.honoured (hsmooth : Smooth action) :
    Honoured node action := by
  unfold Smooth at hsmooth
  split at hsmooth
  · exact hsmooth.elim
  · intro thread _ uid token _ hlost
    rw [hlost.2] at hsmooth
    cases hsmooth
  · intro thread _ uid token _ hlost
    rw [hlost.2] at hsmooth
    cases hsmooth
  · rename_i hreceive hconn hdel
    cases action with
    | receive conn envelope =>
        cases envelope with
        | logoutReq req => exact (hreceive conn req rfl).elim
        | _ => trivial
    | exec index call answer =>
        intro thread _ uid token _ hlost
        unfold Unexecuted at hlost
        split at hlost
        · exact hconn index _ rfl
        · exact hdel index _ _ rfl
        · exact hlost
    | _ => trivial

theorem smooth_annLogin : ∀ action ∈ annLogin, Smooth action := by
  have hcommand : ∀ command, Smooth (commandOf 0 command) := by
    intro command
    cases command with
    | del key => rfl
    | _ => trivial
  exact forall_mem_quietLogin trivial trivial
    (forall_mem_loginCalls trivial trivial trivial trivial trivial trivial
      rfl trivial hcommand)
    (forall_mem_collectCalls trivial trivial trivial trivial trivial)
    trivial trivial

/-- A logout with the token of the session ends it. -/
theorem logout_ends_ownToken : ∃ last,
    Runs.runFrom (step twoWorkers)
        { world := ⟨annRegistered, emptySeed.world⟩ }
        (annLogin ++ quietLogout "t") = some last ∧
      RefusesToken last.world "t" "node-2" := by
  have hrun : ∃ node received last,
      Runs.runFrom (step twoWorkers)
          { world := ⟨annRegistered, emptySeed.world⟩ } annLogin =
        some node ∧
      node.server.sessions.getContext 0 = some ⟨"ann", "t", true⟩ ∧
      node.server.requests = 1 ∧
      step twoWorkers node
        (.receive 0 (.logoutReq { uid := "ann", token := "t" })) =
          some received ∧
      Runs.runFrom (step twoWorkers) received (quietLogout "t").tail =
        some last ∧
      (PoolTask.mk 1 (.logout "ann" "t"), none) ∈ last.finished :=
    ⟨_, _, _, rfl, rfl, rfl, rfl, rfl, .head _⟩
  obtain ⟨node, received, last, hlogin, hcontext, hrequests, hreceive,
    hlogout, hdone⟩ := hrun
  have hsteps : Runs.EachStep (step twoWorkers) Honoured
      { world := ⟨annRegistered, emptySeed.world⟩ }
      (annLogin ++ quietLogout "t") := by
    refine Runs.EachStep.append (Runs.eachStep_of_forall
      fun action haction state => (smooth_annLogin action haction).honoured)
      fun middle hmiddle => ?_
    rw [hlogin] at hmiddle
    cases hmiddle
    refine Runs.EachStep.cons hreceive ?_ ?_
    · intro session hsession _
      rw [hcontext] at hsession
      cases hsession
      rfl
    · refine Runs.eachStep_of_forall fun action haction state => ?_
      have hsmooth : ∀ action ∈ (quietLogout "t").tail, Smooth action := by
        simp [quietLogout, commandOf, Smooth]
      exact (hsmooth action haction).honoured
  refine ⟨last, ?_, ?_⟩
  · rw [Runs.runFrom_append, hlogin]
    show (step twoWorkers node _).bind _ = _
    rw [hreceive]
    exact hlogout
  · exact logout_ends_of_honoured twoWorkers emptySeed annRegistered
      (annLogin ++ quietLogout "t") hsteps annLogin 0
      { uid := "ann", token := "t" } (quietLogout "t").tail node
      ⟨"ann", "t", true⟩ received last (List.prefix_refl _) hlogin hcontext
      rfl hreceive hlogout ⟨none, hrequests ▸ hdone⟩ "node-2"

/-- A logout with an empty token does not. -/
theorem logout_ends_fails_emptyToken :
    ¬ LogoutEnds twoWorkers { world := ⟨annRegistered, emptySeed.world⟩ }
      (annLogin ++ quietLogout "") := by
  intro hends
  have hrun : ∃ node received last,
      Runs.runFrom (step twoWorkers)
          { world := ⟨annRegistered, emptySeed.world⟩ } annLogin =
        some node ∧
      node.server.sessions.getContext 0 = some ⟨"ann", "t", true⟩ ∧
      node.server.requests = 1 ∧
      step twoWorkers node
        (.receive 0 (.logoutReq { uid := "ann", token := "" })) =
          some received ∧
      Runs.runFrom (step twoWorkers) received (quietLogout "").tail =
        some last ∧
      (PoolTask.mk 1 (.logout "ann" ""), none) ∈ last.finished ∧
      ¬ RefusesToken last.world "t" "node-2" := by
    refine ⟨_, _, _, rfl, rfl, rfl, rfl, rfl, .head _, ?_⟩
    intro hrefuses
    have hfails := hrefuses true _ rfl
      ⟨true, some (.array [some "ann", some "node-1"])⟩ _ rfl
      true _ rfl ⟨true, none⟩ _ rfl
      true _ rfl ⟨true, some (some { uid := "ann" })⟩ _ rfl () _ rfl
      true _ rfl ⟨true, some []⟩ _ rfl () _ rfl
      true _ rfl ⟨true, some []⟩ _ rfl () _ rfl
      true _ rfl ⟨true, some []⟩ _ rfl () _ rfl
    cases hfails
  obtain ⟨node, received, last, hlogin, hcontext, hrequests, hreceive,
    hlogout, hdone, hworks⟩ := hrun
  apply hworks
  exact hends annLogin 0 { uid := "ann", token := "" }
    (quietLogout "").tail node ⟨"ann", "t", true⟩ received last
    (List.prefix_refl _) hlogin hcontext rfl hreceive hlogout
    ⟨none, hrequests ▸ hdone⟩ "node-2"

end ChatNode

end MuduoChat
