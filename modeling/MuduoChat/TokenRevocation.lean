import MuduoChat.TokenPhases

/-!
# Revoked tokens

A token that has been handed out and then deleted is refused from then on,
whatever else runs beside: the thread that drew it has written its session
already, and nobody else ever will.
-/

namespace MuduoChat

open RedisSessionRepo (readSession)

/-! ## Threads and tokens -/

section Threads

variable {state next : LoginState} {move : LoginMove} {token : String}

def tokenPhase (thread : LoginThread) : TokenPhase :=
  (Prog.track TokenPhase.advance (TokenPhase.start thread.op)
    thread.log).getD .unused

theorem track_tokenPhase {thread : LoginThread}
    (hthread : loginSystem.Faithful thread) :
    Prog.track TokenPhase.advance (TokenPhase.start thread.op) thread.log =
        some (tokenPhase thread) ∧
      Prog.Obeys TokenPhase.advance TokenPhase.Returns (tokenPhase thread)
        thread.prog :=
  hthread.obeys_getD (TokenPhase.obeys_program thread.op) .unused

theorem tokenPhase_advances {thread : LoginThread} {call : LoginCall}
    {rest : call.Answer → LoginProg LoginReply}
    (hthread : loginSystem.Faithful thread)
    (hprog : thread.prog = .call call rest) (answer : call.Answer) :
    TokenPhase.Advances (tokenPhase thread) call answer
      (tokenPhase (thread.advance call answer (rest answer))) := by
  obtain ⟨htrack, hobeys⟩ := track_tokenPhase hthread
  rw [hprog] at hobeys
  exact TokenPhase.advances_of_advance
    (hobeys.advance_eq htrack .unused answer)

def tokenPhases (state : LoginState) : List TokenPhase :=
  state.threads.map tokenPhase

structure LoginsKept (state : LoginState) : Prop where
  faithful : ∀ thread ∈ state.threads, loginSystem.Faithful thread
  tokens : TokensKept state.world (tokenPhases state)

theorem tokenStep_of_exec {index : Nat} {call : LoginCall}
    {answer : call.Answer} {thread : LoginThread} {world : RedisWorld}
    {rest : call.Answer → LoginProg LoginReply}
    (hstate : LoginsKept state)
    (hthread : state.threads[index]? = some thread)
    (hprog : thread.prog = .call call rest)
    (heffect : state.world.effect call answer = some world) :
    TokenStep state.world (tokenPhase thread) world
      (tokenPhase (thread.advance call answer (rest answer))) :=
  tokenStep_of_advances
    (tokenPhase_advances
      (hstate.faithful _ (List.mem_of_getElem? hthread)) hprog answer)
    heffect

theorem getElem?_tokenPhases {index : Nat} {thread : LoginThread}
    (hthread : state.threads[index]? = some thread) :
    (tokenPhases state)[index]? = some (tokenPhase thread) := by
  rw [tokenPhases, List.getElem?_map, hthread]
  rfl

theorem idle_begin (op : LoginOp) :
    (tokenPhase (loginSystem.begin op)).Idle := by
  intro token
  cases op <;> simp [tokenPhase, ThreadSystem.begin, Prog.track,
    TokenPhase.start, TokenPhase.Owns]

/-- What a step does to the phases of the threads. -/
theorem LoginsKept.step (hstate : LoginsKept state)
    (hstep : loginSystem.step state move = some next) :
    LoginsKept next ∧
      (∀ token, Spent state.world (tokenPhases state) token →
        Spent next.world (tokenPhases next) token ∧
          (state.world.store.field (sessionKey token) "uid" = none →
            next.world.store.field (sessionKey token) "uid" = none)) := by
  have hfaithful :=
    ThreadSystem.faithful_step hstep hstate.faithful
  cases ThreadSystem.stepped_of_step hstep with
  | enter op =>
      have hphases : tokenPhases { state with
          threads := state.threads ++ [loginSystem.begin op] } =
            tokenPhases state ++ [tokenPhase (loginSystem.begin op)] :=
        List.map_append
      refine ⟨⟨hfaithful, ?_⟩, fun token hspent => ⟨?_, id⟩⟩
      · rw [hphases]
        exact hstate.tokens.append (idle_begin op)
      · rw [hphases]
        exact hspent.append (idle_begin op)
  | @exec index call answer thread world rest hthread hprog heffect =>
      have htoken := tokenStep_of_exec hstate hthread hprog heffect
      have hphase := getElem?_tokenPhases hthread
      have hphases (trace : List (Nat × Sigma LoginCall.Answer)) :
          tokenPhases ⟨world, state.threads.set index
            (thread.advance call answer (rest answer)), trace⟩ =
              (tokenPhases state).set index
                (tokenPhase (thread.advance call answer (rest answer))) :=
        List.map_set
      refine ⟨⟨hfaithful, ?_⟩, fun token hspent => ⟨?_, ?_⟩⟩
      · rw [hphases]
        exact hstate.tokens.exec hphase htoken
      · rw [hphases]
        exact hspent.exec hphase htoken
      · exact hspent.uid_of_step hphase htoken
  | disturb hdisturb =>
      have hrecedes := recedes_of_disturb hdisturb
      refine ⟨⟨hfaithful, hstate.tokens.recedes hrecedes⟩, ?_⟩
      intro token hspent
      exact ⟨hspent.recedes hrecedes, hrecedes.uid_none⟩

end Threads

/-! ## Revocation -/

section Revocation

variable {state next : LoginState} {move : LoginMove} {token : String}

/-- A world at the start of a run: the sessions it has belong to tokens that
were drawn before. -/
structure SeededWorld where
  world : RedisWorld
  known : ∀ token uid,
    world.store.field (sessionKey token) "uid" = some uid →
      token ∈ world.drawn

/-- Whenever `getSessionByToken` runs on this world, it finds nothing. -/
def Refuses (world : RedisWorld) (token : String) : Prop :=
  Prog.Meets RedisWorld.effect (fun _ session => session = none) world
    (overRedis (RedisSessionRepo.getSessionByToken token))

theorem refuses_of_uid {world : RedisWorld}
    (huid : world.store.field (sessionKey (cstr token)) "uid" = none) :
    Refuses world token := by
  intro conn after hconn
  cases hconn
  cases conn with
  | false => exact rfl
  | true =>
      intro outcome after hlookup
      by_contra hsession
      have hseen : (readSession (cstr token) outcome.reply).isSome := by
        rw [isSome_readSession (cstr token) token]
        cases hread : readSession token outcome.reply with
        | none => exact (hsession hread).elim
        | some session => rfl
      rw [cstr_sessionKey] at hlookup
      obtain ⟨uid, hfound⟩ := uid_of_seen hlookup hseen
      rw [huid] at hfound
      cases hfound

/-- Some login has succeeded and returned the token. -/
def Returned (state : LoginState) (token : String) : Prop :=
  ∃ thread ∈ state.threads, ∃ result : LoginResult,
    thread.prog = .ret (.login result) ∧ result.success = true ∧
      result.token = token

theorem SeededWorld.tokensKept (start : SeededWorld) :
    TokensKept start.world [] := by
  constructor
  · simp
  · simp
  · intro token uid huid
    exact ⟨start.known token uid huid, by simp⟩
  · simp

theorem LoginsKept.spent_of_returned (hstate : LoginsKept state)
    (hreturned : Returned state token) :
    Spent state.world (tokenPhases state) (cstr token) := by
  obtain ⟨thread, hthread, result, hprog, hsuccess, rfl⟩ := hreturned
  obtain ⟨_, hobeys⟩ := track_tokenPhase (hstate.faithful thread hthread)
  have hmem : tokenPhase thread ∈ tokenPhases state :=
    List.mem_map_of_mem hthread
  rw [hprog] at hobeys
  rcases hobeys hsuccess with hwritten | hseen
  · exact hstate.tokens.spent_of_written (hwritten ▸ hmem)
  · exact hstate.tokens.seen _ (hseen ▸ hmem)

/-- The token is out of use for good. -/
structure Revoked (state : LoginState) (token : String) : Prop where
  kept : LoginsKept state
  spent : Spent state.world (tokenPhases state) token
  uid : state.world.store.field (sessionKey token) "uid" = none

theorem Revoked.step (hstate : Revoked state token)
    (hstep : loginSystem.step state move = some next) :
    Revoked next token := by
  obtain ⟨hkept, htokens⟩ := hstate.kept.step hstep
  obtain ⟨hspent, huid⟩ := htokens token hstate.spent
  exact ⟨hkept, hspent, huid hstate.uid⟩

/-- In every interleaving of logins, logins by token and logouts, command by
command and with keys expiring at any time: once a token that a completed
login returned has been deleted, no lookup ever finds it again. -/
theorem revoked_token_refused {start : SeededWorld}
    {before after : List LoginMove} {middle revoked final : LoginState}
    {index : Nat} {outcome : CommandOutcome}
    (hbefore : Runs.runFrom loginSystem.step { world := start.world } before =
      some middle)
    (hreturned : Returned middle token)
    (hdelete : loginSystem.step middle
      (.exec index (.redis (.command (.del (cstr (sessionKey token)))))
        outcome) = some revoked)
    (hexecuted : outcome.executed = true)
    (hafter : Runs.runFrom loginSystem.step revoked after = some final) :
    Refuses final.world token := by
  have hmiddle : LoginsKept middle :=
    Runs.invariant_of_run ⟨by simp, start.tokensKept⟩
      (fun _ _ _ hstep hstate => (hstate.step hstep).1) hbefore
  have huid :
      revoked.world.store.field (sessionKey (cstr token)) "uid" = none := by
    rw [cstr_sessionKey] at hdelete
    cases ThreadSystem.stepped_of_step hdelete with
    | exec hthread hprog heffect =>
        rcases command_of_effect heffect with ⟨rfl, _⟩ | ⟨_, hlost, _⟩
        · exact ExpiringStore.field_delete
        · rw [hexecuted] at hlost
          cases hlost
  obtain ⟨hkept, htokens⟩ := hmiddle.step hdelete
  have hspent := hmiddle.spent_of_returned hreturned
  have hrevoked : Revoked revoked (cstr token) :=
    ⟨hkept, (htokens (cstr token) hspent).1, huid⟩
  have hkeep : ∀ state move next, loginSystem.step state move = some next →
      Revoked state (cstr token) → Revoked next (cstr token) := by
    intro state move next hstep hstate
    exact hstate.step hstep
  have hfinal : Revoked final (cstr token) :=
    @Runs.invariant_of_run _ _ _ (Revoked · (cstr token)) _ _ _ hrevoked
      hkeep hafter
  exact refuses_of_uid hfinal.uid

def userAnn : UserInfo := { uid := "ann" }

def done : CommandOutcome := ⟨true, some .other⟩

/-- A login that gets the token `t`. -/
def loginMoves : List LoginMove :=
  [.enter (.login "ann" "secret" "node-1"),
    .exec 0 (.repository (.verifyUser "ann" "secret")) true,
    .exec 0 (.repository (.getUserInfo "ann")) (some userAnn),
    .exec 0 (.repository .generateToken) "t",
    .exec 0 (.redis .getConnection) true, .exec 0 (.redis .time) (0 : Int),
    .exec 0 (.redis (.command (.hmset (sessionKey "t")
      [("uid", "ann"), ("node_id", "node-1"), ("login_time", "0")]))) done,
    .exec 0 (.redis (.command (.expire (sessionKey "t") 604800))) done,
    .exec 0 (.redis (.command (.set (onlineKey "ann") "node-1"))) done,
    .exec 0 (.redis (.command (.hset userRoute "ann" "node-1"))) done,
    .exec 0 (.repository (.getFriendList "ann")) ([] : List UserInfo),
    .exec 0 (.repository (.getPendingRequests "ann")) ([] : List String),
    .exec 0 (.repository (.getUndeliveredMessages "ann"))
      ([] : List MessageInfo)]

/-- A login by the same token, up to its lookup, and the start of a
logout. -/
def overlapMoves : List LoginMove :=
  [.enter (.loginWithToken "t" "node-2"), .enter (.logout "ann" "t"),
    .exec 1 (.redis .getConnection) true,
    .exec 1 (.redis (.command
      (.hmget (sessionKey "t") ["uid", "node_id"])))
      ⟨true, some (.array [some "ann", some "node-1"])⟩,
    .exec 2 (.redis .getConnection) true]

def lateUpdate : List LoginMove :=
  [.exec 1 (.redis .getConnection) true,
    .exec 1 (.redis (.command
      (.hmset (sessionKey "t") [("node_id", "node-2")]))) done]

def emptySeed : SeededWorld where
  world := {}
  known := by
    intro token uid huid
    simp [ExpiringStore.field, ExpiringStore.value,
      ExpiringStore.live] at huid

/-- The login by token writes its node after the session was deleted; the
key is there again, and still no session is found. -/
theorem revoked_token_refused_lateUpdate : ∃ final : LoginState,
    final.world.store.field (sessionKey "t") "node_id" = some "node-2" ∧
      Refuses final.world "t" := by
  have hrun : ∃ middle revoked final,
      Runs.runFrom loginSystem.step { world := emptySeed.world }
          (loginMoves ++ overlapMoves) = some middle ∧
        Returned middle "t" ∧
        loginSystem.step middle
          (.exec 2 (.redis (.command (.del (sessionKey "t")))) done) =
            some revoked ∧
        Runs.runFrom loginSystem.step revoked lateUpdate = some final ∧
        final.world.store.field (sessionKey "t") "node_id" =
          some "node-2" :=
    ⟨_, _, _, rfl, ⟨_, .head _, _, rfl, rfl, rfl⟩, rfl, rfl, rfl⟩
  obtain ⟨middle, revoked, final, hbefore, hreturned, hdelete, hafter,
    hnode⟩ := hrun
  exact ⟨final, hnode, revoked_token_refused hbefore hreturned hdelete rfl
    hafter⟩

end Revocation

end MuduoChat
