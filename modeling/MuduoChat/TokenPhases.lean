import MuduoChat.RedisSessionRepo

/-!
# The life of a token

A token is drawn by one `login`, which writes the user's name under it once.
No other command of the login service writes that field: a login by token
only rewrites the node, so that it may bring the key of a revoked session
back, but not the session.

`TokenPhase` follows a thread through these calls.  `TokensKept` says of the
phases of any number of threads that they fit together and fit the store; a
token that is `Spent` will never be written again.
-/

namespace MuduoChat

open RedisSessionRepo (readSession)

/-! ## The life of a token in one thread -/

/-- What a thread has to do with tokens: `asking` is a login by token before
its lookup, `seen` after a successful one; `drawn` is a login between drawing
its token and writing the session, `written` after that.  Tokens are what
Redis is given of them. -/
inductive TokenPhase where
  | unused
  | asking (token : String)
  | refused
  | seen (token : String)
  | drawn (token : String)
  | written (token : String)
  deriving DecidableEq

namespace TokenPhase

def advance (phase : TokenPhase) :
    (call : LoginCall) → call.Answer → Option TokenPhase
  | .repository .generateToken, token =>
      match phase with
      | unused => some (drawn (cstr token))
      | _ => none
  | .redis (.command (.hmset key assigned)), _ =>
      match phase with
      | drawn token => if key = sessionKey token then some (written token)
          else none
      | _ => if "uid" ∈ assigned.map Prod.fst then none else some phase
  | .redis (.command (.hmget key names)), outcome =>
      match phase with
      | asking token =>
          if key = sessionKey token ∧ names = ["uid", "node_id"] then
            if (readSession token outcome.reply).isSome then
              some (seen token)
            else some refused
          else none
      | _ => some phase
  | .redis (.command (.hset key _ _)), _ =>
      if key = userRoute then some phase else none
  | _, _ => some phase

def start : LoginOp → TokenPhase
  | .loginWithToken token _ => asking (cstr token)
  | .login .. | .logout .. => unused

/-- A successful login has written its token or found it valid. -/
def Returns (phase : TokenPhase) : LoginReply → Prop
  | .login result => result.success = true →
      phase = written (cstr result.token) ∨ phase = seen (cstr result.token)
  | .logout _ => True

/-- Calls that write no session and draw no token. -/
def Quiet : LoginCall → Prop
  | .repository .generateToken => False
  | .redis (.command (.hmset _ assigned)) => "uid" ∉ assigned.map Prod.fst
  | .redis (.command (.hset key _ _)) => key = userRoute
  | _ => True

/-- The steps of the automaton. -/
inductive Advances : TokenPhase → (call : LoginCall) → call.Answer →
    TokenPhase → Prop
  | draw (token : String) :
      Advances unused (.repository .generateToken) token
        (drawn (cstr token))
  | write (token : String) (assigned : List (String × String))
      (outcome : CommandOutcome) :
      Advances (drawn token)
        (.redis (.command (.hmset (sessionKey token) assigned))) outcome
        (written token)
  | see (token : String) (outcome : CommandOutcome)
      (hseen : (readSession token outcome.reply).isSome) :
      Advances (asking token)
        (.redis (.command (.hmget (sessionKey token) ["uid", "node_id"])))
        outcome (seen token)
  | refuse (token : String) (outcome : CommandOutcome) :
      Advances (asking token)
        (.redis (.command (.hmget (sessionKey token) ["uid", "node_id"])))
        outcome refused
  | quiet (phase : TokenPhase) (call : LoginCall) (answer : call.Answer)
      (hcall : Quiet call) : Advances phase call answer phase

variable {phase next : TokenPhase} {call : LoginCall} {answer : call.Answer}

theorem advances_of_advance
    (hadvance : phase.advance call answer = some next) :
    Advances phase call answer next := by
  cases call with
  | repository call =>
      cases call with
      | generateToken =>
          cases phase <;> cases hadvance
          exact .draw _
      | _ =>
          cases hadvance
          exact .quiet _ _ _ trivial
  | redis call =>
      cases call with
      | command command =>
          cases command with
          | hmset key assigned =>
              simp only [advance] at hadvance
              split at hadvance <;> split at hadvance <;> cases hadvance
              · rename_i heq
                subst heq
                exact .write _ _ _
              · rename_i hnone
                exact .quiet _ _ _ hnone
          | hmget key names =>
              simp only [advance] at hadvance
              split at hadvance
              · split at hadvance
                · rename_i heq
                  obtain ⟨rfl, rfl⟩ := heq
                  split at hadvance <;> cases hadvance
                  · rename_i hseen
                    exact .see _ _ hseen
                  · exact .refuse _ _
                · cases hadvance
              · cases hadvance
                exact .quiet _ _ _ trivial
          | hset key name data =>
              simp only [advance] at hadvance
              split at hadvance <;> cases hadvance
              rename_i heq
              exact .quiet _ _ _ heq
          | _ =>
              cases hadvance
              exact .quiet _ _ _ trivial
      | _ =>
          cases hadvance
          exact .quiet _ _ _ trivial

/-! ## The programs of the login service -/

theorem obeys_createSession (uid token nodeId : String) (ttlSeconds : Int) :
    Prog.Obeys advance
      (fun after ok => ok = true → after = written (cstr token))
      (drawn (cstr token))
      (overRedis (RedisSessionRepo.createSession uid token nodeId
        ttlSeconds)) := by
  intro conn
  refine ⟨drawn (cstr token), rfl, ?_⟩
  cases conn with
  | false => exact fun hok => nomatch hok
  | true =>
      intro now
      refine ⟨drawn (cstr token), rfl, ?_⟩
      intro hmset
      refine ⟨written (cstr token), if_pos (cstr_sessionKey token), ?_⟩
      intro expire
      refine ⟨written (cstr token), rfl, ?_⟩
      intro online
      refine ⟨written (cstr token), rfl, ?_⟩
      intro route
      refine ⟨written (cstr token), by simp [advance], ?_⟩
      exact fun _ => rfl

theorem obeys_login (uid passwd nodeId : String) :
    Prog.Obeys advance Returns unused
      (LoginOp.login uid passwd nodeId).program := by
  intro verified
  refine ⟨unused, rfl, ?_⟩
  cases verified with
  | false => exact fun hsuccess => nomatch hsuccess
  | true =>
      intro userInfo
      refine ⟨unused, rfl, ?_⟩
      cases userInfo with
      | none => exact fun hsuccess => nomatch hsuccess
      | some userInfo =>
          intro token
          refine ⟨drawn (cstr token), rfl, ?_⟩
          apply (obeys_createSession uid token nodeId _).bind
          intro after ok hafter
          cases ok with
          | false => exact fun hsuccess => nomatch hsuccess
          | true =>
              have hwritten : after = written (cstr token) := hafter rfl
              subst hwritten
              intro friends
              refine ⟨written (cstr token), rfl, ?_⟩
              intro requests
              refine ⟨written (cstr token), rfl, ?_⟩
              intro messages
              exact ⟨written (cstr token), rfl, fun _ => .inl rfl⟩

theorem obeys_getSessionByToken (token : String) :
    Prog.Obeys advance
      (fun after session => session.isSome → after = seen (cstr token))
      (asking (cstr token))
      (overRedis (RedisSessionRepo.getSessionByToken token)) := by
  intro conn
  refine ⟨asking (cstr token), rfl, ?_⟩
  cases conn with
  | false => exact fun hsome => nomatch hsome
  | true =>
      intro outcome
      have hsame := isSome_readSession token (cstr token) outcome.reply
      by_cases hseen : (readSession (cstr token) outcome.reply).isSome
      · exact ⟨seen (cstr token), by simp [advance, hseen], fun _ => rfl⟩
      · exact ⟨refused, by simp [advance, hseen],
          fun hsome => (hseen (hsame.symm.trans hsome)).elim⟩

theorem obeys_updateSessionNode (phase : TokenPhase)
    (hphase : ∀ token, phase ≠ drawn token) (token nodeId : String) :
    Prog.Obeys advance (fun after _ => after = phase) phase
      (overRedis (RedisSessionRepo.updateSessionNode token nodeId)) := by
  have hwrite (outcome : CommandOutcome) :
      advance phase (.redis (.command
        (.hmset (cstr (sessionKey token))
          [("node_id", cstr nodeId)]))) outcome =
          some phase := by
    cases phase with
    | drawn token => exact (hphase token rfl).elim
    | _ => simp [advance]
  intro conn
  refine ⟨phase, rfl, ?_⟩
  cases conn with
  | false => exact rfl
  | true =>
      intro outcome
      exact ⟨phase, hwrite outcome, rfl⟩

theorem obeys_loginWithToken (token nodeId : String) :
    Prog.Obeys advance Returns (asking (cstr token))
      (LoginOp.loginWithToken token nodeId).program := by
  apply (obeys_getSessionByToken token).bind
  intro after session hafter
  cases session with
  | none => exact fun hsuccess => nomatch hsuccess
  | some session =>
      have hseen : after = seen (cstr token) := hafter rfl
      subst hseen
      apply (obeys_updateSessionNode (seen (cstr token)) (by simp) token
        nodeId).bind
      intro after updated hafter
      subst hafter
      intro userInfo
      refine ⟨seen (cstr token), rfl, ?_⟩
      cases userInfo with
      | none => exact fun hsuccess => nomatch hsuccess
      | some userInfo =>
          intro friends
          refine ⟨seen (cstr token), rfl, ?_⟩
          intro requests
          refine ⟨seen (cstr token), rfl, ?_⟩
          intro messages
          exact ⟨seen (cstr token), rfl, fun _ => .inr rfl⟩

theorem obeys_revokeSession (token : String) :
    Prog.Obeys advance (fun after _ => after = phase) phase
      (overRedis (RedisSessionRepo.revokeSession token)) := by
  intro conn
  refine ⟨phase, rfl, ?_⟩
  cases conn with
  | false => exact rfl
  | true =>
      intro outcome
      exact ⟨phase, rfl, rfl⟩

theorem obeys_revokeAllSessions (uid : String) :
    Prog.Obeys advance (fun after _ => after = phase) phase
      (overRedis (RedisSessionRepo.revokeAllSessions uid)) := by
  intro conn
  refine ⟨phase, rfl, ?_⟩
  cases conn with
  | false => exact rfl
  | true =>
      intro found
      refine ⟨phase, rfl, ?_⟩
      intro online
      refine ⟨phase, rfl, ?_⟩
      intro route
      exact ⟨phase, rfl, rfl⟩

theorem obeys_logout (uid token : String) :
    Prog.Obeys advance Returns unused
      (LoginOp.logout uid token).program := by
  apply (obeys_revokeSession token).bind
  intro after revoked hafter
  subst hafter
  apply (obeys_revokeAllSessions uid).bind
  intro after revoked hafter
  exact trivial

theorem obeys_program (op : LoginOp) :
    Prog.Obeys advance Returns (start op) op.program := by
  cases op with
  | login uid passwd nodeId => exact obeys_login uid passwd nodeId
  | loginWithToken token nodeId => exact obeys_loginWithToken token nodeId
  | logout uid token => exact obeys_logout uid token

end TokenPhase

/-! ## The session's name of the user -/

section Store

variable {store : RedisStore} {token uid : String} {command : RedisCommand}

/-- A quiet command never brings the field `uid` of a session into being. -/
theorem uid_execute (hquiet : TokenPhase.Quiet (.redis (.command command)))
    (huid : (store.execute command).field (sessionKey token) "uid" =
      some uid) :
    store.field (sessionKey token) "uid" = some uid := by
  by_cases hkey : sessionKey token = command.key
  · cases command with
    | hmset key assigned =>
        have hsame : key = sessionKey token := hkey.symm
        subst hsame
        rwa [← ExpiringStore.field_setHash_of_not_mem hquiet]
    | hset key name data =>
        have hroute : userRoute = sessionKey token := hquiet ▸ hkey.symm
        exact (userRoute_ne_sessionKey token hroute).elim
    | hdel key name =>
        have hsame : key = sessionKey token := hkey.symm
        subst hsame
        simp only [ExpiringStore.execute,
          ExpiringStore.field_deleteField] at huid
        split at huid
        · cases huid
        · exact huid
    | set key data =>
        have hsame : key = sessionKey token := hkey.symm
        subst hsame
        simp [ExpiringStore.execute] at huid
    | del key =>
        have hsame : key = sessionKey token := hkey.symm
        subst hsame
        simp [ExpiringStore.execute] at huid
    | expire key seconds =>
        have hsame : key = sessionKey token := hkey.symm
        subst hsame
        exact ExpiringStore.field_of_field_expire huid
    | hmget key names => exact huid
    | get key => exact huid
  · rw [← ExpiringStore.field_eq_of_live
      (ExpiringStore.live_execute_of_ne hkey)]
    exact huid

/-- What the lookup reports is what the store has. -/
theorem uid_of_readSession {session : SessionInfo} {asked : String}
    (hread : readSession asked (some (store.reply
      (.hmget (sessionKey token) ["uid", "node_id"]))) = some session) :
    ∃ uid, store.field (sessionKey token) "uid" = some uid ∧
      session.uid = cstr uid := by
  simp only [ExpiringStore.reply] at hread
  split at hread
  · cases hread
  · simp only [List.map_cons, List.map_nil] at hread
    cases huid : store.field (sessionKey token) "uid" with
    | none => simp [huid, readSession] at hread
    | some uid =>
        simp only [huid, readSession, Option.some.injEq] at hread
        exact ⟨uid, rfl, by rw [← hread]⟩

/-- No session gets a user's name, and no token is drawn. -/
structure RedisWorld.Recedes (world after : RedisWorld) : Prop where
  drawn : after.drawn = world.drawn
  uid : ∀ token uid,
    after.store.field (sessionKey token) "uid" = some uid →
      world.store.field (sessionKey token) "uid" = some uid

variable {world after : RedisWorld}

theorem command_of_effect {outcome : CommandOutcome}
    (heffect : world.effect (.redis (.command command)) outcome =
      some after) :
    after = { world with store := world.store.execute command } ∧
        (outcome.reply = none ∨
          outcome.reply = some (world.store.reply command)) ∨
      after = world ∧ outcome.executed = false ∧
        (outcome.reply = none ∨ outcome.reply = some .other) := by
  simp only [RedisWorld.effect] at heffect
  split at heffect
  · split at heffect <;> cases heffect
    rename_i hreply
    exact .inl ⟨rfl, hreply⟩
  · rename_i hlost
    split at heffect <;> cases heffect
    rename_i hreply
    exact .inr ⟨rfl, by simpa using hlost, hreply⟩

theorem recedes_of_quiet {call : LoginCall} {answer : call.Answer}
    (hquiet : TokenPhase.Quiet call)
    (heffect : world.effect call answer = some after) :
    world.Recedes after := by
  cases call with
  | redis call =>
      cases call with
      | command command =>
          rcases command_of_effect heffect with ⟨rfl, _⟩ | ⟨rfl, _⟩
          · exact ⟨rfl, fun token uid huid => uid_execute hquiet huid⟩
          · exact ⟨rfl, fun _ _ huid => huid⟩
      | _ =>
          cases heffect
          exact ⟨rfl, fun _ _ huid => huid⟩
  | repository call =>
      cases call with
      | generateToken => exact hquiet.elim
      | _ =>
          cases heffect
          exact ⟨rfl, fun _ _ huid => huid⟩

theorem quiet_hmget (key : String) (names : List String) :
    TokenPhase.Quiet (.redis (.command (.hmget key names))) := trivial

theorem recedes_of_disturb {event : RedisEvent}
    (hdisturb : world.disturb event = some after) :
    world.Recedes after := by
  cases event with
  | advance millis =>
      cases hdisturb
      exact ⟨rfl, fun _ _ huid => ExpiringStore.field_advance huid⟩
  | expire key =>
      cases hdisturb
      refine ⟨rfl, fun token uid huid => ?_⟩
      have hdelete : TokenPhase.Quiet (.redis (.command (.del key))) :=
        trivial
      exact uid_execute hdelete huid

theorem draw_of_effect
    (heffect : world.effect (.repository .generateToken) token =
      some after) :
    (token ∉ world.drawn ∧ NulFree token) ∧
      after = { world with drawn := token :: world.drawn } := by
  simp only [RedisWorld.effect] at heffect
  split at heffect <;> cases heffect
  rename_i hfresh
  rw [not_or, not_not] at hfresh
  exact ⟨hfresh, rfl⟩

theorem uid_of_seen {outcome : CommandOutcome}
    (heffect : world.effect (.redis (.command
      (.hmget (sessionKey token) ["uid", "node_id"]))) outcome = some after)
    (hseen : (readSession token outcome.reply).isSome) :
    ∃ uid, world.store.field (sessionKey token) "uid" = some uid := by
  obtain ⟨session, hsession⟩ := Option.isSome_iff_exists.mp hseen
  rcases command_of_effect heffect with ⟨_, hreply | hreply⟩ |
    ⟨_, _, hreply | hreply⟩ <;> rw [hreply] at hsession
  · cases hsession
  · obtain ⟨uid, huid, _⟩ := uid_of_readSession hsession
    exact ⟨uid, huid⟩
  · cases hsession
  · cases hsession

/-- What one call does to the world and to the phase of its thread. -/
inductive TokenStep (world : RedisWorld) (phase : TokenPhase) :
    RedisWorld → TokenPhase → Prop
  | keep {after : RedisWorld} (hrecedes : world.Recedes after) :
      TokenStep world phase after phase
  | draw (token : String) (hfresh : token ∉ world.drawn) :
      TokenStep world phase
        { world with drawn := token :: world.drawn } (.drawn token)
  | write {after : RedisWorld} (token : String)
      (hphase : phase = .drawn token) (hdrawn : after.drawn = world.drawn)
      (huid : ∀ other uid, other ≠ token →
        after.store.field (sessionKey other) "uid" = some uid →
          world.store.field (sessionKey other) "uid" = some uid) :
      TokenStep world phase after (.written token)
  | see {after : RedisWorld} (token uid : String)
      (hrecedes : world.Recedes after)
      (huid : world.store.field (sessionKey token) "uid" = some uid) :
      TokenStep world phase after (.seen token)
  | refuse {after : RedisWorld} (hrecedes : world.Recedes after) :
      TokenStep world phase after .refused

theorem tokenStep_of_advances {phase phase' : TokenPhase}
    {call : LoginCall} {answer : call.Answer}
    (hadvances : TokenPhase.Advances phase call answer phase')
    (heffect : world.effect call answer = some after) :
    TokenStep world phase after phase' := by
  cases hadvances with
  | draw token =>
      obtain ⟨⟨hfresh, hnul⟩, rfl⟩ := draw_of_effect heffect
      rw [hnul.cstr]
      exact .draw token hfresh
  | write token assigned outcome =>
      rcases command_of_effect heffect with ⟨rfl, _⟩ | ⟨rfl, _⟩
      · refine .write token rfl rfl ?_
        intro other uid hother huid
        have hne : sessionKey other ≠ sessionKey token := by
          simpa using hother
        rw [ExpiringStore.field_eq_of_live
          (ExpiringStore.live_execute_of_ne hne)] at huid
        exact huid
      · exact .write token rfl rfl fun _ _ _ huid => huid
  | see token outcome hseen =>
      obtain ⟨uid, huid⟩ := uid_of_seen heffect hseen
      exact .see token uid (recedes_of_quiet (quiet_hmget ..) heffect) huid
  | refuse token outcome =>
      exact .refuse (recedes_of_quiet (quiet_hmget ..) heffect)
  | quiet phase call answer hquiet =>
      exact .keep (recedes_of_quiet hquiet heffect)

theorem TokenStep.mem_drawn {phase phase' : TokenPhase}
    (hstep : TokenStep world phase after phase')
    (htoken : token ∈ world.drawn) : token ∈ after.drawn := by
  cases hstep with
  | keep hrecedes => rwa [hrecedes.drawn]
  | draw other hfresh => exact List.mem_cons_of_mem other htoken
  | write other hphase hdrawn huid => rwa [hdrawn]
  | see other uid hrecedes huid => rwa [hrecedes.drawn]
  | refuse hrecedes => rwa [hrecedes.drawn]

/-- A token that is known is not drawn again. -/
theorem TokenStep.drawn_of_mem {phase phase' : TokenPhase}
    (hstep : TokenStep world phase after phase')
    (htoken : token ∈ world.drawn) (hphase : phase' = .drawn token) :
    phase = .drawn token := by
  cases hstep with
  | keep hrecedes => exact hphase
  | draw other hfresh =>
      cases hphase
      exact (hfresh htoken).elim
  | write | see | refuse => cases hphase

/-- A user's name that was not there is written by the token's own login. -/
theorem TokenStep.written_of_uid {phase phase' : TokenPhase}
    (hstep : TokenStep world phase after phase')
    (hbefore : ¬ ∃ old,
      world.store.field (sessionKey token) "uid" = some old)
    (hafter : after.store.field (sessionKey token) "uid" = some uid) :
    phase = .drawn token ∧ phase' = .written token := by
  cases hstep with
  | keep hrecedes =>
      exact (hbefore ⟨uid, hrecedes.uid token uid hafter⟩).elim
  | draw other hfresh => exact (hbefore ⟨uid, hafter⟩).elim
  | write other hphase hdrawn huid =>
      by_cases heq : token = other
      · subst heq
        exact ⟨hphase, rfl⟩
      · exact (hbefore ⟨uid, huid token uid heq hafter⟩).elim
  | see other old hrecedes huid =>
      exact (hbefore ⟨uid, hrecedes.uid token uid hafter⟩).elim
  | refuse hrecedes =>
      exact (hbefore ⟨uid, hrecedes.uid token uid hafter⟩).elim

theorem TokenStep.seen_cases {phase phase' : TokenPhase}
    (hstep : TokenStep world phase after phase')
    (hseen : phase' = .seen token) :
    phase = .seen token ∨
      ∃ uid, world.store.field (sessionKey token) "uid" = some uid := by
  cases hstep with
  | keep hrecedes => exact .inl hseen
  | see other uid hrecedes huid =>
      cases hseen
      exact .inr ⟨uid, huid⟩
  | draw | write | refuse => cases hseen

end Store

/-! ## Phases of many threads -/

section Phases

variable {world after : RedisWorld} {phases : List TokenPhase}
  {phase next : TokenPhase} {index : Nat} {token : String}

/-- The thread has drawn the token. -/
def TokenPhase.Owns (phase : TokenPhase) (token : String) : Prop :=
  phase = .drawn token ∨ phase = .written token

/-- A thread that has neither drawn nor found a token yet. -/
def TokenPhase.Idle (phase : TokenPhase) : Prop :=
  ∀ token, ¬ phase.Owns token ∧ phase ≠ .seen token

/-- The token is known, and no thread is still to write its session. -/
def Spent (world : RedisWorld) (phases : List TokenPhase)
    (token : String) : Prop :=
  token ∈ world.drawn ∧ .drawn token ∉ phases

structure TokensKept (world : RedisWorld) (phases : List TokenPhase) :
    Prop where
  known : ∀ phase ∈ phases, ∀ token, phase.Owns token →
    token ∈ world.drawn
  single : ∀ (i j : Nat) (first second : TokenPhase) (token : String),
    phases[i]? = some first → phases[j]? = some second →
      first.Owns token → second.Owns token → i = j
  stored : ∀ token uid,
    world.store.field (sessionKey token) "uid" = some uid →
      Spent world phases token
  seen : ∀ token, .seen token ∈ phases → Spent world phases token

theorem Spent.exec (hspent : Spent world phases token)
    (hphase : phases[index]? = some phase)
    (htoken : TokenStep world phase after next) :
    Spent after (phases.set index next) token := by
  refine ⟨htoken.mem_drawn hspent.1, ?_⟩
  intro hdrawn
  rcases List.mem_or_eq_of_mem_set hdrawn with hold | heq
  · exact hspent.2 hold
  · have hbefore : phase = .drawn token :=
      htoken.drawn_of_mem hspent.1 heq.symm
    exact hspent.2 (hbefore ▸ List.mem_of_getElem? hphase)

theorem Spent.recedes (hspent : Spent world phases token)
    (hrecedes : world.Recedes after) : Spent after phases token :=
  ⟨hrecedes.drawn ▸ hspent.1, hspent.2⟩

theorem Spent.append (hspent : Spent world phases token)
    (hidle : phase.Idle) : Spent world (phases ++ [phase]) token := by
  refine ⟨hspent.1, ?_⟩
  intro hdrawn
  rcases List.mem_append.mp hdrawn with hold | hnew
  · exact hspent.2 hold
  · exact (hidle token).1 (.inl (List.mem_singleton.mp hnew).symm)

theorem Spent.eraseIdx (hspent : Spent world phases token) (index : Nat) :
    Spent world (phases.eraseIdx index) token :=
  ⟨hspent.1, fun hdrawn => hspent.2 (List.mem_of_mem_eraseIdx hdrawn)⟩

theorem TokenPhase.Owns.of_step (howns : next.Owns token)
    (hstep : TokenStep world phase after next) :
    phase.Owns token ∨ token ∉ world.drawn ∧ token ∈ after.drawn := by
  cases hstep with
  | keep hrecedes => exact .inl howns
  | draw drew hfresh =>
      rcases howns with heq | heq <;> cases heq
      exact .inr ⟨hfresh, List.mem_cons_self⟩
  | write written hbefore hdrawn huid =>
      rcases howns with heq | heq <;> cases heq
      exact .inl (.inl hbefore)
  | see | refuse => rcases howns with heq | heq <;> cases heq

theorem TokensKept.exec (hphases : TokensKept world phases)
    (hphase : phases[index]? = some phase)
    (htoken : TokenStep world phase after next) :
    TokensKept after (phases.set index next) := by
  have hmem := List.mem_of_getElem? hphase
  have hspent (token : String) (hspent : Spent world phases token) :
      Spent after (phases.set index next) token :=
    hspent.exec hphase htoken
  have howner (each : TokenPhase) (token : String) (i : Nat)
      (heach : phases[i]? = some each) (hi : i ≠ index)
      (hnext : next.Owns token) : ¬ each.Owns token := by
    intro howns
    rcases hnext.of_step htoken with hold | ⟨hfresh, _⟩
    · exact hi (hphases.single i index each phase token heach hphase howns
        hold)
    · exact hfresh (hphases.known each (List.mem_of_getElem? heach) token
        howns)
  constructor
  · intro each heach token howns
    rcases List.mem_or_eq_of_mem_set heach with hold | rfl
    · exact htoken.mem_drawn (hphases.known each hold token howns)
    · rcases howns.of_step htoken with hold | ⟨_, hnew⟩
      · exact htoken.mem_drawn (hphases.known phase hmem token hold)
      · exact hnew
  · intro i j first second token hfirst hsecond howns₁ howns₂
    rcases getElem?_set_cases hfirst with ⟨rfl, rfl⟩ | ⟨hi, hold₁⟩ <;>
      rcases getElem?_set_cases hsecond with ⟨rfl, rfl⟩ | ⟨hj, hold₂⟩
    · rfl
    · exact (howner second token j hold₂ hj howns₁ howns₂).elim
    · exact (howner first token i hold₁ hi howns₂ howns₁).elim
    · exact hphases.single i j first second token hold₁ hold₂ howns₁ howns₂
  · intro token uid huid
    by_cases hbefore : ∃ old,
        world.store.field (sessionKey token) "uid" = some old
    · obtain ⟨old, hold⟩ := hbefore
      exact hspent token (hphases.stored token old hold)
    · obtain ⟨hbefore, hafter⟩ := htoken.written_of_uid hbefore huid
      refine ⟨htoken.mem_drawn
        (hphases.known phase hmem token (.inl hbefore)), ?_⟩
      intro hdrawn
      obtain ⟨i, hi⟩ := List.mem_iff_getElem?.mp hdrawn
      rcases getElem?_set_cases hi with ⟨_, heq⟩ | ⟨hne, hold⟩
      · rw [hafter] at heq
        cases heq
      · exact howner (.drawn token) token i hold hne (.inr hafter) (.inl rfl)
  · intro token hseen
    rcases List.mem_or_eq_of_mem_set hseen with hold | heq
    · exact hspent token (hphases.seen token hold)
    · rcases htoken.seen_cases heq.symm with hold | ⟨uid, huid⟩
      · exact hspent token (hphases.seen token (hold ▸ hmem))
      · exact hspent token (hphases.stored token uid huid)

theorem TokensKept.recedes (hphases : TokensKept world phases)
    (hrecedes : world.Recedes after) : TokensKept after phases := by
  constructor
  · intro phase hphase token howns
    rw [hrecedes.drawn]
    exact hphases.known phase hphase token howns
  · exact hphases.single
  · intro token uid huid
    exact (hphases.stored token uid
      (hrecedes.uid token uid huid)).recedes hrecedes
  · intro token hseen
    exact (hphases.seen token hseen).recedes hrecedes

theorem TokensKept.append (hphases : TokensKept world phases)
    (hidle : phase.Idle) : TokensKept world (phases ++ [phase]) := by
  have hindex (i : Nat) (each : TokenPhase) (token : String)
      (heach : (phases ++ [phase])[i]? = some each)
      (howns : each.Owns token) : phases[i]? = some each := by
    rw [List.getElem?_append] at heach
    split at heach
    · exact heach
    · have hnew := List.mem_of_getElem? heach
      rw [List.mem_singleton.mp hnew] at howns
      exact ((hidle token).1 howns).elim
  constructor
  · intro each heach token howns
    rcases List.mem_append.mp heach with hold | hnew
    · exact hphases.known each hold token howns
    · rw [List.mem_singleton.mp hnew] at howns
      exact ((hidle token).1 howns).elim
  · intro i j first second token hfirst hsecond howns₁ howns₂
    exact hphases.single i j first second token
      (hindex i first token hfirst howns₁)
      (hindex j second token hsecond howns₂) howns₁ howns₂
  · intro token uid huid
    exact (hphases.stored token uid huid).append hidle
  · intro token hseen
    rcases List.mem_append.mp hseen with hold | hnew
    · exact (hphases.seen token hold).append hidle
    · exact ((hidle token).2 (List.mem_singleton.mp hnew).symm).elim

theorem TokensKept.eraseIdx (hphases : TokensKept world phases)
    (index : Nat) : TokensKept world (phases.eraseIdx index) := by
  constructor
  · intro phase hphase
    exact hphases.known phase (List.mem_of_mem_eraseIdx hphase)
  · intro i j first second token hfirst hsecond howns₁ howns₂
    rw [List.getElem?_eraseIdx] at hfirst hsecond
    split at hfirst <;> split at hsecond
    · exact hphases.single i j first second token hfirst hsecond howns₁
        howns₂
    · have heq := hphases.single i (j + 1) first second token hfirst hsecond
        howns₁ howns₂
      omega
    · have heq := hphases.single (i + 1) j first second token hfirst hsecond
        howns₁ howns₂
      omega
    · have heq := hphases.single (i + 1) (j + 1) first second token hfirst
        hsecond howns₁ howns₂
      omega
  · intro token uid huid
    exact (hphases.stored token uid huid).eraseIdx index
  · intro token hseen
    exact (hphases.seen token (List.mem_of_mem_eraseIdx hseen)).eraseIdx
      index

/-- A token whose own thread has got past its writing is spent. -/
theorem TokensKept.spent_of_written (hphases : TokensKept world phases)
    (hwritten : .written token ∈ phases) : Spent world phases token := by
  refine ⟨hphases.known _ hwritten token (.inr rfl), ?_⟩
  intro hdrawn
  obtain ⟨i, hi⟩ := List.mem_iff_getElem?.mp hwritten
  obtain ⟨j, hj⟩ := List.mem_iff_getElem?.mp hdrawn
  have hij : i = j :=
    hphases.single i j _ _ token hi hj (.inr rfl) (.inl rfl)
  subst hij
  rw [hi] at hj
  cases hj

/-- A spent token without a session never gets one again. -/
theorem Spent.uid_of_step (hspent : Spent world phases token)
    (hphase : phases[index]? = some phase)
    (htoken : TokenStep world phase after next)
    (huid : world.store.field (sessionKey token) "uid" = none) :
    after.store.field (sessionKey token) "uid" = none := by
  by_contra hsome
  obtain ⟨uid, hsome⟩ := Option.ne_none_iff_exists'.mp hsome
  have hnone : ¬ ∃ old,
      world.store.field (sessionKey token) "uid" = some old := by
    rw [huid]
    simp
  have hdrawn := (htoken.written_of_uid hnone hsome).1
  exact hspent.2 (hdrawn ▸ List.mem_of_getElem? hphase)

theorem RedisWorld.Recedes.uid_none (hrecedes : world.Recedes after)
    (huid : world.store.field (sessionKey token) "uid" = none) :
    after.store.field (sessionKey token) "uid" = none := by
  by_contra hsome
  obtain ⟨uid, hsome⟩ := Option.ne_none_iff_exists'.mp hsome
  rw [hrecedes.uid token uid hsome] at huid
  cases huid

end Phases

end MuduoChat
