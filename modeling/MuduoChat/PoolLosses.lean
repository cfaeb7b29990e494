import MuduoChat.PoolRuns

/-!
# Connections lost from the pool

A stale connection whose replacement fails is gone, and so is the one that
`verifyUser` closes before its second attempt.  Nothing fills the pool up
again.  The idle connections, the held places and the losses always make up
what `init` has put in, so that after as many losses as there were
connections every method waits in vain, however well the database does by
then.
-/

namespace MuduoChat

namespace Holding

instance : DecidablePred Forfeits
  | .deactivate | .mysqlClose _ .verifyUser => isTrue trivial
  | .mysqlClose _ .createConnection | .mysqlClose _ .getConnection
  | .mysqlClose _ .destructor | .waitIdle | .release _ | .adopt _
  | .mysqlInit | .realConnect _ | .createTable .. | .ping _
  | .query .. => isFalse id

/-- Who has no connection can do nothing but wait for one. -/
theorem waits_of_free {call : PoolCall} {answer : call.Answer}
    {next : Holding} (hadvance : advance free call answer = some next) :
    ∃ taken, (⟨call, answer⟩ : Sigma PoolCall.Answer) =
      ⟨.waitIdle, taken⟩ := by
  have hunused (conn : Option Handle) : free.uses conn = none := by
    cases conn <;> rfl
  cases call with
  | waitIdle => exact ⟨answer, rfl⟩
  | realConnect conn | createTable conn | ping conn | query conn =>
      exact absurd ((hunused conn).symm.trans hadvance) (by simp)
  | _ => cases hadvance

end Holding

open Holding

variable {state next : PoolState RepositoryMethod}
  {move : PoolMove RepositoryMethod} {size : ℕ}

/-- The places given up so far. -/
def lostPlaces (state : PoolState RepositoryMethod) : ℕ :=
  state.trace.countP fun entry => Forfeits entry.2.1

theorem lostPlaces_exec (state : PoolState RepositoryMethod)
    (world : MySQLPool) (threads : List (PoolThread RepositoryMethod))
    (index : ℕ) (entry : Sigma PoolCall.Answer) :
    lostPlaces ⟨world, threads, (index, entry) :: state.trace⟩ =
      lostPlaces state + if Forfeits entry.1 then 1 else 0 := by
  simp [lostPlaces, List.countP_cons]

structure Ledger (size : ℕ) (state : PoolState RepositoryMethod) :
    Prop where
  faithful : ∀ thread ∈ state.threads,
    (poolSystem RepositoryMethod.program).Faithful thread
  total : state.world.idle.length + heldPlaces state + lostPlaces state =
    size

/-- A place that is given up is booked as lost by the same step. -/
theorem Ledger.step
    (hstep : (poolSystem RepositoryMethod.program).step state move =
      some next)
    (hstate : Ledger size state) : Ledger size next := by
  refine ⟨ThreadSystem.faithful_step hstep hstate.faithful, ?_⟩
  have htotal := hstate.total
  cases ThreadSystem.stepped_of_step hstep with
  | enter op =>
      have hheld : heldPlaces { state with threads := state.threads ++
          [(poolSystem RepositoryMethod.program).begin op] } =
            heldPlaces state := by
        simp only [heldPlaces, List.map_append, List.sum_append]
        rfl
      rw [hheld]
      exact htotal
  | @exec index call answer thread world rest hthread hprog heffect =>
      have hold := hstate.faithful _ (List.mem_of_getElem? hthread)
      have hadvances :=
        phase_advances keepsProtocol_method hold hprog answer
      have hheld := heldPlaces_exec hthread
        (thread.advance call answer (rest answer)) world
        ((index, ⟨call, answer⟩) :: state.trace)
      have htrace := lostPlaces_exec state world (state.threads.set index
        (thread.advance call answer (rest answer))) index ⟨call, answer⟩
      by_cases hforfeits : Forfeits call
      · have hidle := slots_of_forfeits hadvances heffect hforfeits
        rw [if_pos hforfeits] at htrace
        dsimp only
        omega
      · obtain ⟨hidle, _⟩ := slots_of_not_forfeits (ofMethod_phaseOf hold)
          hadvances heffect hforfeits
        rw [if_neg hforfeits] at htrace
        dsimp only
        omega
  | disturb hdisturb => exact Empty.elim ‹Empty›

/-- When all is lost, nobody has a connection and none is idle. -/
theorem Ledger.drained (hstate : Ledger size state)
    (hlost : lostPlaces state = size) :
    state.world.idle = [] ∧ ∀ thread ∈ state.threads,
      phaseOf methodStart thread = free := by
  have htotal := hstate.total
  refine ⟨List.length_eq_zero_iff.mp (by omega), ?_⟩
  intro thread hthread
  have hheld : heldPlaces state = 0 := by omega
  have hslots : (phaseOf methodStart thread).slots = 0 :=
    List.sum_eq_zero_iff_forall_eq_nat.mp hheld _
      (List.mem_map_of_mem hthread)
  have hmethod := ofMethod_phaseOf (hstate.faithful thread hthread)
  cases hphase : phaseOf methodStart thread with
  | free => rfl
  | holding | reconnecting => simp [hphase, slots] at hslots
  | filling | filled => simp [hphase, OfMethod] at hmethod

/-- If the step uses the pool or the client library at all, then it is a
`getConnection` that gets nothing. -/
def WaitsInVain : PoolMove RepositoryMethod → Prop
  | .exec _ call answer =>
      (⟨call, answer⟩ : Sigma PoolCall.Answer) = ⟨.waitIdle, none⟩
  | _ => True

theorem Ledger.waitsInVain (hstate : Ledger size state)
    (hlost : lostPlaces state = size)
    (hstep : (poolSystem RepositoryMethod.program).step state move =
      some next) :
    WaitsInVain move ∧ lostPlaces next = size := by
  obtain ⟨hidle, hfree⟩ := hstate.drained hlost
  cases ThreadSystem.stepped_of_step hstep with
  | enter op => exact ⟨trivial, hlost⟩
  | @exec index call answer thread world rest hthread hprog heffect =>
      have hmem := List.mem_of_getElem? hthread
      obtain ⟨htrack, hobeys⟩ :=
        track_phaseOf keepsProtocol_method (hstate.faithful _ hmem)
      rw [hprog] at hobeys
      have hadvance :=
        hobeys.advance_eq htrack (methodStart thread.op) answer
      rw [hfree thread hmem] at hadvance
      obtain ⟨taken, hcall⟩ := waits_of_free hadvance
      cases hcall
      cases taken with
      | none =>
          have htrace := lostPlaces_exec state world
            (state.threads.set index
              (thread.advance .waitIdle none (rest none)))
            index ⟨.waitIdle, none⟩
          exact ⟨rfl, htrace.trans hlost⟩
      | some conn =>
          have hhead := (idle_of_waitIdle heffect).1
          rw [hidle] at hhead
          cases hhead
  | disturb hdisturb => exact ⟨trivial, hlost⟩

theorem Ledger.waitInVain {later : List (PoolMove RepositoryMethod)}
    {after : PoolState RepositoryMethod} (hstate : Ledger size state)
    (hlost : lostPlaces state = size)
    (hrun : Runs.runFrom (poolSystem RepositoryMethod.program).step state
      later = some after) :
    ∀ move ∈ later, WaitsInVain move := by
  induction later generalizing state with
  | nil => simp
  | cons move later ih =>
      obtain ⟨next, hstep, hrest⟩ := Option.bind_eq_some_iff.mp hrun
      obtain ⟨hwaits, hnext⟩ := hstate.waitsInVain hlost hstep
      exact List.forall_mem_cons.mpr
        ⟨hwaits, ih (hstate.step hstep) hnext hrest⟩

/-- The places lost so far are missing from the pool, neither more nor fewer,
and once all are lost no statement is ever sent again. -/
theorem losses_are_final {poolSize : Int} {hardwareConcurrency : ℕ}
    {pool : MySQLPool}
    (hpool : MySQLPool.Initialized poolSize hardwareConcurrency pool)
    {moves : List (PoolMove RepositoryMethod)}
    (hrun : Runs.runFrom (poolSystem RepositoryMethod.program).step
      { world := pool } moves = some state) :
    state.world.idle.length + heldPlaces state + lostPlaces state =
        MySQLPool.sizeOf poolSize hardwareConcurrency ∧
      (lostPlaces state = MySQLPool.sizeOf poolSize hardwareConcurrency →
        ∀ later after, Runs.runFrom (poolSystem RepositoryMethod.program).step
            state later = some after →
          ∀ move ∈ later, WaitsInVain move) := by
  obtain ⟨hfilled, hlength⟩ := hpool.filled
  have hstart : Ledger (MySQLPool.sizeOf poolSize hardwareConcurrency)
      { world := pool } := by
    refine ⟨by simp, ?_⟩
    simp [heldPlaces, lostPlaces, hfilled.idle, hlength]
  have hstate := Runs.invariant_of_run hstart
    (fun _ _ _ hstep hstate => hstate.step hstep) hrun
  exact ⟨hstate.total, fun hlost _ _ hlater =>
    hstate.waitInVain hlost hlater⟩

/-- The only connection is lost; from then on everybody waits in vain. -/
theorem losses_are_final_failedReconnect : ∃ state,
    Runs.runFrom (poolSystem RepositoryMethod.program).step
        { world := MySQLPool.single } failedReconnect = some state ∧
      ∀ later after, Runs.runFrom (poolSystem RepositoryMethod.program).step
          state later = some after →
        ∀ move ∈ later, WaitsInVain move := by
  obtain ⟨state, hrun, hlost⟩ : ∃ state,
      Runs.runFrom (poolSystem RepositoryMethod.program).step
          { world := MySQLPool.single } failedReconnect = some state ∧
        lostPlaces state = 1 :=
    ⟨_, rfl, rfl⟩
  exact ⟨state, hrun,
    (losses_are_final MySQLPool.initialized_single hrun).2 hlost⟩

end MuduoChat
