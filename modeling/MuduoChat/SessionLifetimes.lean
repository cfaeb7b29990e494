import MuduoChat.TokenRevocation

/-!
# How long sessions live

`createSession` writes a session and then gives its key a time to live.  No
other command takes the user or the deadline away from a key; but a login by
token writes the node of the session it has found, and the key may have gone
in between.  That writing brings the key back with neither user nor deadline.

As long as every such update still finds its key, all sessions are owned and
bounded once the service comes to rest.
-/

namespace MuduoChat

def isSessionKey (key : String) : Bool :=
  "session:".toList.isPrefixOf key.toList

theorem isSessionKey_sessionKey (token : String) :
    isSessionKey (sessionKey token) = true := by
  simp [isSessionKey, sessionKey]

theorem isSessionKey_onlineKey (uid : String) :
    isSessionKey (onlineKey uid) = false := by
  simp [isSessionKey, onlineKey, List.isPrefixOf]

theorem isSessionKey_userRoute : isSessionKey userRoute = false := by
  decide

/-! ## Between writing a session and limiting it -/

namespace SessionDeadline

/-- The key a thread has written a session to and not yet limited. -/
def advance (owed : Option String) :
    (call : LoginCall) → call.Answer → Option (Option String)
  | .redis (.command (.hmset key assigned)), _ =>
      if "uid" ∈ assigned.map Prod.fst then
        if owed = none ∧ (assigned.map Prod.fst).Nodup then some (some key)
        else none
      else some owed
  | .redis (.command (.expire key seconds)), _ =>
      if owed = some key ∧ 0 < seconds then some none else none
  | .redis (.command (.set key _)), _ | .redis (.command (.hset key _ _)), _
  | .redis (.command (.hdel key _)), _ =>
      if isSessionKey key then none else some owed
  | _, _ => some owed

def Settled (_op : LoginOp) (owed : Option String) (_reply : LoginReply) :
    Prop :=
  owed = none

theorem obeys_createSession (uid token nodeId : String) :
    Prog.Obeys advance (fun owed _ => owed = none) none
      (overRedis (RedisSessionRepo.createSession uid token nodeId
        (7 * 24 * 3600))) := by
  intro conn
  refine ⟨none, rfl, ?_⟩
  cases conn with
  | false => exact rfl
  | true =>
      intro now
      refine ⟨none, rfl, ?_⟩
      intro written
      refine ⟨some (cstr (sessionKey token)), by simp [advance], ?_⟩
      intro limited
      refine ⟨none, by simp [advance], ?_⟩
      intro online
      refine ⟨none, by simp [advance, isSessionKey_onlineKey], ?_⟩
      intro route
      exact ⟨none, by simp [advance, isSessionKey_userRoute], rfl⟩

theorem obeys_login (uid passwd nodeId : String) :
    Prog.Obeys advance (Settled (LoginOp.login uid passwd nodeId)) none
      (LoginOp.login uid passwd nodeId).program := by
  intro verified
  refine ⟨none, rfl, ?_⟩
  cases verified with
  | false => exact rfl
  | true =>
      intro userInfo
      refine ⟨none, rfl, ?_⟩
      cases userInfo with
      | none => exact rfl
      | some userInfo =>
          intro token
          refine ⟨none, rfl, ?_⟩
          apply (obeys_createSession uid token nodeId).bind
          rintro owed sessionOk rfl
          cases sessionOk with
          | false => exact rfl
          | true =>
              intro friends
              refine ⟨none, rfl, ?_⟩
              intro requests
              refine ⟨none, rfl, ?_⟩
              intro messages
              exact ⟨none, rfl, rfl⟩

theorem obeys_loginWithToken (token nodeId : String) :
    Prog.Obeys advance (Settled (LoginOp.loginWithToken token nodeId)) none
      (LoginOp.loginWithToken token nodeId).program := by
  have hlookup : Prog.Obeys advance (fun owed _ => owed = none) none
      (overRedis (RedisSessionRepo.getSessionByToken token)) := by
    intro conn
    refine ⟨none, rfl, ?_⟩
    cases conn with
    | false => exact rfl
    | true => exact fun outcome => ⟨none, rfl, rfl⟩
  have hupdate : Prog.Obeys advance (fun owed _ => owed = none) none
      (overRedis (RedisSessionRepo.updateSessionNode token nodeId)) := by
    intro conn
    refine ⟨none, rfl, ?_⟩
    cases conn with
    | false => exact rfl
    | true => exact fun outcome => ⟨none, by simp [advance], rfl⟩
  apply hlookup.bind
  rintro owed session rfl
  cases session with
  | none => exact rfl
  | some session =>
      apply hupdate.bind
      rintro owed updated rfl
      intro userInfo
      refine ⟨none, rfl, ?_⟩
      cases userInfo with
      | none => exact rfl
      | some userInfo =>
          intro friends
          refine ⟨none, rfl, ?_⟩
          intro requests
          refine ⟨none, rfl, ?_⟩
          intro messages
          exact ⟨none, rfl, rfl⟩

theorem obeys_logout (uid token : String) :
    Prog.Obeys advance (Settled (LoginOp.logout uid token)) none
      (LoginOp.logout uid token).program := by
  have hrevoke : Prog.Obeys advance (fun owed _ => owed = none) none
      (overRedis (RedisSessionRepo.revokeSession token)) := by
    intro conn
    refine ⟨none, rfl, ?_⟩
    cases conn with
    | false => exact rfl
    | true => exact fun outcome => ⟨none, rfl, rfl⟩
  have hrevokeAll : Prog.Obeys advance (fun owed _ => owed = none) none
      (overRedis (RedisSessionRepo.revokeAllSessions uid)) := by
    intro conn
    refine ⟨none, rfl, ?_⟩
    cases conn with
    | false => exact rfl
    | true =>
        intro found
        refine ⟨none, rfl, ?_⟩
        intro online
        refine ⟨none, rfl, ?_⟩
        intro route
        exact ⟨none, by simp [advance, isSessionKey_userRoute], rfl⟩
  apply hrevoke.bind
  rintro owed revoked rfl
  apply hrevokeAll.bind
  rintro owed revoked rfl
  exact rfl

theorem obeys_program (op : LoginOp) :
    Prog.Obeys advance (Settled op) none op.program := by
  cases op with
  | login uid passwd nodeId => exact obeys_login uid passwd nodeId
  | loginWithToken token nodeId => exact obeys_loginWithToken token nodeId
  | logout uid token => exact obeys_logout uid token

end SessionDeadline

/-! ## The sessions in the store -/

section Store

variable {store : RedisStore} {token : String} {command : RedisCommand}

def SessionExists (store : RedisStore) (token : String) : Prop :=
  (store.live (sessionKey token)).isSome

def HasUser (store : RedisStore) (token : String) : Prop :=
  (store.field (sessionKey token) "uid").isSome

def HasDeadline (store : RedisStore) (token : String) : Prop :=
  (store.deadline (sessionKey token)).isSome

/-- Every session has a user and, unless a thread still owes it, a
deadline. -/
def SessionsLimited (store : RedisStore) (owing : String → Prop) : Prop :=
  ∀ token, SessionExists store token →
    HasUser store token ∧
      (HasDeadline store token ∨ owing (sessionKey token))

/-- A writing that does not name the user finds its key. -/
def UpdateFinds (store : RedisStore) : RedisCommand → Prop
  | .hmset key assigned =>
      "uid" ∈ assigned.map Prod.fst ∨ (store.live key).isSome
  | _ => True

theorem SessionsLimited.mono {owing wider : String → Prop}
    (hstore : SessionsLimited store owing)
    (hwider : ∀ key, owing key → wider key) :
    SessionsLimited store wider := by
  intro token hexists
  obtain ⟨huser, hdeadline⟩ := hstore token hexists
  exact ⟨huser, hdeadline.imp_right (hwider _)⟩

/-- Whatever holds of a session is read from its live entry. -/
theorem limited_of_live {after : RedisStore} {owing : Prop}
    (hlive : after.live (sessionKey token) = store.live (sessionKey token))
    (hstore : HasUser store token ∧ (HasDeadline store token ∨ owing)) :
    HasUser after token ∧ (HasDeadline after token ∨ owing) := by
  unfold HasUser HasDeadline
  rw [ExpiringStore.field_eq_of_live hlive,
    ExpiringStore.deadline_eq_of_live hlive]
  exact hstore

theorem SessionsLimited.recedes {after : RedisStore} {owing : String → Prop}
    (hstore : SessionsLimited store owing)
    (hlive : ∀ key entry, after.live key = some entry →
      store.live key = some entry) : SessionsLimited after owing := by
  intro token hexists
  obtain ⟨entry, hentry⟩ := Option.isSome_iff_exists.mp hexists
  have hold := hlive _ _ hentry
  have hbefore : SessionExists store token := by simp [SessionExists, hold]
  exact limited_of_live (hentry.trans hold.symm) (hstore token hbefore)

theorem SessionsLimited.text {owing : String → Prop}
    (hstore : SessionsLimited store owing) (token : String) :
    store.text (sessionKey token) = none := by
  cases hlive : store.live (sessionKey token) with
  | none => simp [ExpiringStore.text, ExpiringStore.value, hlive]
  | some entry =>
      have hexists : SessionExists store token := by
        simp [SessionExists, hlive]
      obtain ⟨uid, huid⟩ :=
        Option.isSome_iff_exists.mp (hstore token hexists).1
      exact ExpiringStore.text_of_field huid

theorem hasUser_write {assigned : List (String × String)}
    (htext : store.text (sessionKey token) = none)
    (hnamed : "uid" ∈ assigned.map Prod.fst)
    (hdistinct : (assigned.map Prod.fst).Nodup) :
    HasUser (store.setHash (sessionKey token) assigned) token := by
  obtain ⟨⟨name, uid⟩, hentry, rfl⟩ := List.mem_map.mp hnamed
  have hwritten := ExpiringStore.field_setHash_of_mem htext hdistinct hentry
  unfold HasUser
  rw [hwritten]
  rfl

theorem limited_update {assigned : List (String × String)} {owing : Prop}
    (hunnamed : "uid" ∉ assigned.map Prod.fst)
    (hstore : HasUser store token ∧ (HasDeadline store token ∨ owing)) :
    HasUser (store.setHash (sessionKey token) assigned) token ∧
      (HasDeadline (store.setHash (sessionKey token) assigned) token ∨
        owing) := by
  unfold HasUser HasDeadline
  rw [ExpiringStore.field_setHash_of_not_mem hunnamed,
    ExpiringStore.deadline_setHash]
  exact hstore

theorem sessionExists_expire {seconds : Int} (hseconds : 0 < seconds) :
    SessionExists (store.expire (sessionKey token) seconds) token ↔
      SessionExists store token := by
  unfold SessionExists
  rw [ExpiringStore.live_expire hseconds, Option.isSome_map]

theorem limited_expire {seconds : Int} (hseconds : 0 < seconds)
    (hexists : SessionExists store token) (huser : HasUser store token) :
    HasUser (store.expire (sessionKey token) seconds) token ∧
      HasDeadline (store.expire (sessionKey token) seconds) token := by
  unfold HasUser HasDeadline
  rw [ExpiringStore.field_expire hseconds,
    ExpiringStore.deadline_expire hseconds, Option.isSome_map]
  exact ⟨huser, hexists⟩

theorem owed_of_ne {owed after : Option String} {outcome : CommandOutcome}
    {key : String}
    (hadvance : SessionDeadline.advance owed (.redis (.command command))
      outcome = some after)
    (hkey : key ≠ command.key) (howed : owed = some key) :
    after = some key := by
  cases command with
  | hmset other assigned =>
      simp only [SessionDeadline.advance, howed] at hadvance
      split at hadvance <;> simp_all
  | expire other seconds =>
      simp only [SessionDeadline.advance, howed] at hadvance
      split at hadvance
      · rename_i hsame
        exact (hkey (Option.some.inj hsame.1)).elim
      · cases hadvance
  | set other data | hset other name data | hdel other name =>
      simp only [SessionDeadline.advance] at hadvance
      split at hadvance <;> cases hadvance
      exact howed
  | _ =>
      cases hadvance
      exact howed

theorem SessionsLimited.execute {owing : String → Prop}
    {owed after : Option String} {outcome : CommandOutcome}
    (hstore : SessionsLimited store fun key => owed = some key ∨ owing key)
    (hadvance : SessionDeadline.advance owed (.redis (.command command))
      outcome = some after)
    (hfinds : UpdateFinds store command) :
    SessionsLimited (store.execute command)
      fun key => after = some key ∨ owing key := by
  intro token hexists
  by_cases hkey : sessionKey token = command.key
  · cases command with
    | hmset key assigned =>
        have hsame : key = sessionKey token := hkey.symm
        subst hsame
        simp only [SessionDeadline.advance] at hadvance
        split at hadvance
        · rename_i hnamed
          split at hadvance <;> cases hadvance
          rename_i hfresh
          exact ⟨hasUser_write (hstore.text token) hnamed hfresh.2,
            .inr (.inl rfl)⟩
        · rename_i hunnamed
          cases hadvance
          exact limited_update hunnamed
            (hstore token (hfinds.resolve_left hunnamed))
    | expire key seconds =>
        have hsame : key = sessionKey token := hkey.symm
        subst hsame
        simp only [SessionDeadline.advance] at hadvance
        split at hadvance <;> cases hadvance
        rename_i howed
        have hbefore := (sessionExists_expire howed.2).mp hexists
        have hlimited := limited_expire howed.2 hbefore
          (hstore token hbefore).1
        exact ⟨hlimited.1, .inl hlimited.2⟩
    | set key data | hset key name data | hdel key name =>
        have hsame : key = sessionKey token := hkey.symm
        subst hsame
        simp [SessionDeadline.advance, isSessionKey_sessionKey] at hadvance
    | del key =>
        have hsame : key = sessionKey token := hkey.symm
        subst hsame
        have hgone : (store.delete (sessionKey token)).live
            (sessionKey token) = none := ExpiringStore.live_put_none
        have hstill : ((store.delete (sessionKey token)).live
            (sessionKey token)).isSome := hexists
        rw [hgone] at hstill
        cases hstill
    | hmget key names | get key =>
        cases hadvance
        exact hstore token hexists
  · have hlive := @ExpiringStore.live_execute_of_ne _ _ _ _ _ store _ _ hkey
    have hbefore : SessionExists store token := by
      unfold SessionExists
      rw [← hlive]
      exact hexists
    have hlimited := limited_of_live hlive (hstore token hbefore)
    refine ⟨hlimited.1, hlimited.2.imp_right ?_⟩
    rintro (howed | hother)
    · exact .inl (owed_of_ne hadvance hkey howed)
    · exact .inr hother

end Store

/-! ## Runs -/

section Runs

variable {state next : LoginState} {move : LoginMove}

/-- What every thread owes, and that nothing else is missing. -/
def LifetimesKept (state : LoginState) : Prop :=
  ∃ owed : List (Option String),
    ThreadSystem.InPhases SessionDeadline.advance SessionDeadline.Settled
      (fun _ => none) state owed ∧
    SessionsLimited state.world.store fun key => some key ∈ owed

/-- The server executes every command and answers it. -/
def Answered : LoginMove → Prop
  | .exec _ (.redis (.command _)) outcome =>
      outcome.executed = true ∧ outcome.reply.isSome
  | _ => True

/-- An update of the node of a session finds the key of the session. -/
def FindsSession (state : LoginState) : LoginMove → Prop
  | .exec _ (.redis (.command command)) _ =>
      UpdateFinds state.world.store command
  | _ => True

theorem SessionsLimited.effect {world after : RedisWorld}
    {owing : String → Prop} {owed owed' : Option String} {index : Nat}
    {call : LoginCall} {answer : call.Answer}
    (hstore : SessionsLimited world.store fun key =>
      owed = some key ∨ owing key)
    (hadvance : SessionDeadline.advance owed call answer = some owed')
    (heffect : world.effect call answer = some after)
    (hanswered : Answered (.exec index call answer))
    (hfinds : ∀ command, call = .redis (.command command) →
      UpdateFinds world.store command) :
    SessionsLimited after.store fun key => owed' = some key ∨ owing key := by
  cases call with
  | redis call =>
      cases call with
      | command command =>
          rcases command_of_effect heffect with ⟨rfl, _⟩ | ⟨_, hlost, _⟩
          · exact hstore.execute hadvance (hfinds command rfl)
          · rw [hanswered.1] at hlost
            cases hlost
      | _ =>
          cases heffect
          cases hadvance
          exact hstore
  | repository call =>
      cases hadvance
      cases call with
      | generateToken =>
          obtain ⟨_, rfl⟩ := draw_of_effect heffect
          exact hstore
      | _ =>
          cases heffect
          exact hstore

theorem SessionsLimited.exec {world after : RedisWorld}
    {owed : List (Option String)} {before next : Option String} {index : Nat}
    {call : LoginCall} {answer : call.Answer}
    (hstore : SessionsLimited world.store fun key => some key ∈ owed)
    (hbefore : owed[index]? = some before)
    (hadvance : SessionDeadline.advance before call answer = some next)
    (heffect : world.effect call answer = some after)
    (hanswered : Answered (.exec index call answer))
    (hfinds : ∀ command, call = .redis (.command command) →
      UpdateFinds world.store command) :
    SessionsLimited after.store fun key =>
      some key ∈ owed.set index next := by
  have hsplit : SessionsLimited world.store fun key =>
      before = some key ∨
        ∃ i : Nat, i ≠ index ∧ owed[i]? = some (some key) := by
    refine hstore.mono ?_
    intro key hkey
    obtain ⟨i, hi⟩ := List.mem_iff_getElem?.mp hkey
    by_cases hindex : i = index
    · rw [hindex, hbefore] at hi
      exact .inl (Option.some.inj hi)
    · exact .inr ⟨i, hindex, hi⟩
  refine (hsplit.effect hadvance heffect hanswered hfinds).mono ?_
  have hlt : index < owed.length :=
    (List.getElem?_eq_some_iff.mp hbefore).1
  rintro key (rfl | ⟨i, hindex, hi⟩)
  · exact List.mem_set hlt _
  · rw [← List.getElem?_set_ne (Ne.symm hindex)] at hi
    exact List.mem_of_getElem? hi

theorem SessionsLimited.disturb {world after : RedisWorld}
    {owing : String → Prop} {event : RedisEvent}
    (hstore : SessionsLimited world.store owing)
    (hdisturb : world.disturb event = some after) :
    SessionsLimited after.store owing := by
  apply hstore.recedes
  cases event with
  | advance millis =>
      cases hdisturb
      exact fun key entry hlive => ExpiringStore.live_advance hlive
  | expire gone =>
      cases hdisturb
      intro key entry hlive
      by_cases hkey : key = gone
      · subst hkey
        have hgone := hlive.symm.trans ExpiringStore.live_put_none
        cases hgone
      · exact (ExpiringStore.live_put_of_ne hkey none).symm.trans hlive

theorem LifetimesKept.step (hstate : LifetimesKept state)
    (hstep : loginSystem.step state move = some next)
    (hanswered : Answered move) (hfinds : FindsSession state move) :
    LifetimesKept next := by
  obtain ⟨owed, hphases, hstore⟩ := hstate
  obtain ⟨after, hnext, hmove⟩ :=
    hphases.step SessionDeadline.obeys_program hstep
  refine ⟨after, hnext, ?_⟩
  generalize next.world = world at hmove
  cases hmove with
  | enter op =>
      exact hstore.mono fun key hkey => List.mem_append_left _ hkey
  | exec hphase hadvance heffect =>
      refine hstore.exec hphase hadvance heffect hanswered ?_
      rintro command rfl
      exact hfinds
  | disturb hdisturb => exact hstore.disturb hdisturb

theorem LifetimesKept.atRest (hstate : LifetimesKept state)
    (hquiet : state.Quiescent) (token : String)
    (hexists : SessionExists state.world.store token) :
    HasUser state.world.store token ∧
      HasDeadline state.world.store token := by
  obtain ⟨owed, hphases, hstore⟩ := hstate
  obtain ⟨huser, hdeadline⟩ := hstore token hexists
  refine ⟨huser, hdeadline.resolve_right ?_⟩
  intro howed
  obtain ⟨op, reply, hsettled⟩ := hphases.quiescent hquiet howed
  cases hsettled

/-- Once the service is at rest, every session key has a user and a
deadline. -/
def SessionsBounded (state : LoginState) : Prop :=
  state.Quiescent → ∀ token, SessionExists state.world.store token →
    HasUser state.world.store token ∧ HasDeadline state.world.store token

theorem lifetimesKept_start : LifetimesKept { world := {} } := by
  refine ⟨[], .nil, ?_⟩
  intro token hexists
  simp [SessionExists, ExpiringStore.live] at hexists

/-- In every run without failing commands in which each update of a session's
node finds the key of the session, session keys are bounded and owned. -/
theorem sessions_bounded_of_updates {moves : List LoginMove}
    (hanswered : ∀ move ∈ moves, Answered move)
    (hfinds : Runs.EachStep loginSystem.step FindsSession { world := {} }
      moves) :
    Runs.Always loginSystem.step SessionsBounded { world := {} } moves := by
  have hok : Runs.EachStep loginSystem.step
      (fun state move => Answered move ∧ FindsSession state move)
      { world := {} } moves := by
    intro before move state next hinit hrun hstep
    have hmove : move ∈ moves := hinit.subset (by simp)
    exact ⟨hanswered move hmove,
      hfinds before move state next hinit hrun hstep⟩
  have hkept : Runs.Always loginSystem.step LifetimesKept { world := {} }
      moves := by
    refine Runs.always_of_eachStep lifetimesKept_start ?_ hok
    intro state move next hstep hstate hmove
    exact hstate.step hstep hmove.1 hmove.2
  intro before state hinit hrun hquiet token hexists
  exact (hkept before state hinit hrun).atRest hquiet token hexists

def answered (reply : StoreReply String) : CommandOutcome := ⟨true, some reply⟩

/-- A login by the token `t` that updates the node in time. -/
def timelyUpdate : List LoginMove :=
  [.enter (.loginWithToken "t" "node-2"),
    .exec 1 (.redis .getConnection) true,
    .exec 1 (.redis (.command
      (.hmget (sessionKey "t") ["uid", "node_id"])))
      (answered (.array [some "ann", some "node-1"])),
    .exec 1 (.redis .getConnection) true,
    .exec 1 (.redis (.command
      (.hmset (sessionKey "t") [("node_id", "node-2")]))) done,
    .exec 1 (.repository (.getUserInfo "ann")) (none : Option UserInfo)]

theorem sessions_bounded_timelyUpdate : ∃ state,
    Runs.runFrom loginSystem.step { world := {} }
        (loginMoves ++ timelyUpdate) = some state ∧
      SessionExists state.world.store "t" ∧
      HasUser state.world.store "t" ∧ HasDeadline state.world.store "t" := by
  have hanswered : ∀ move ∈ loginMoves ++ timelyUpdate, Answered move := by
    simp [loginMoves, timelyUpdate, Answered, done, answered]
  have hfinds : Runs.EachStep loginSystem.step FindsSession { world := {} }
      (loginMoves ++ timelyUpdate) := by
    repeat
      refine Runs.EachStep.cons rfl
        (by first | exact trivial | exact .inl (by decide) | exact .inr rfl)
        ?_
    exact Runs.eachStep_nil
  have hrun : ∃ state, Runs.runFrom loginSystem.step { world := {} }
      (loginMoves ++ timelyUpdate) = some state ∧ state.Quiescent ∧
        SessionExists state.world.store "t" := by
    refine ⟨_, rfl, ?_, rfl⟩
    intro thread hthread
    rcases hthread with _ | ⟨_, _ | ⟨_, hnone⟩⟩
    · exact ⟨_, rfl⟩
    · exact ⟨_, rfl⟩
    · cases hnone
  obtain ⟨state, hrun, hquiet, hexists⟩ := hrun
  exact ⟨state, hrun, hexists, sessions_bounded_of_updates hanswered hfinds
    _ state (List.prefix_refl _) hrun hquiet "t" hexists⟩

/-- The rest of the two threads of `overlapMoves`. -/
def lateRest : List LoginMove :=
  [.exec 1 (.repository (.getUserInfo "ann")) (none : Option UserInfo),
    .exec 2 (.redis .getConnection) true,
    .exec 2 (.redis (.command (.get (onlineKey "ann")))) done,
    .exec 2 (.redis (.command (.del (onlineKey "ann")))) done,
    .exec 2 (.redis (.command (.hdel userRoute "ann"))) done]

/-- The session is deleted between the lookup and the update of a login by
token. -/
def lateMoves : List LoginMove :=
  loginMoves ++ overlapMoves ++
    [.exec 2 (.redis (.command (.del (sessionKey "t")))) done] ++
    lateUpdate ++ lateRest

theorem sessions_bounded_fails_lateUpdate :
    (∀ move ∈ lateMoves, Answered move) ∧
      ¬ Runs.Always loginSystem.step SessionsBounded { world := {} }
        lateMoves := by
  refine ⟨?_, ?_⟩
  · simp [lateMoves, loginMoves, overlapMoves, lateUpdate, lateRest,
      Answered, done]
  · have hrun : ∃ state,
        Runs.runFrom loginSystem.step { world := {} } lateMoves =
            some state ∧ state.Quiescent ∧
          SessionExists state.world.store "t" ∧
          ¬ HasUser state.world.store "t" := by
      refine ⟨_, rfl, ?_, rfl, by rintro ⟨⟩⟩
      intro thread hthread
      rcases hthread with _ | ⟨_, _ | ⟨_, _ | ⟨_, hnone⟩⟩⟩
      · exact ⟨_, rfl⟩
      · exact ⟨_, rfl⟩
      · exact ⟨_, rfl⟩
      · cases hnone
    obtain ⟨state, hrun, hquiet, hexists, hnouser⟩ := hrun
    intro halways
    exact hnouser (halways _ state (List.prefix_refl _) hrun hquiet "t"
      hexists).1

end Runs

end MuduoChat
