import MuduoChat.PoolOwnership
import Mathlib.Algebra.GroupWithZero.Nat

/-!
# Runs of the connection pool

Results about every interleaving of the threads over one pool, whatever the
client library answers.  No handle is ever idle twice, held twice, or idle
and held, and none of these handles is closed.  The pool keeps its capacity
in precisely the runs in which no thread gives up a place; a run in which no
connection is replaced or closed ends with the destructor closing what is
open.
-/

namespace MuduoChat

open Holding (free holding reconnecting filling filled Advances Transfers)

/-! ## Phases of the threads -/

abbrev PoolThread (Op : Type) := Thread Op PoolCall PoolCall.Answer Unit

section Phases

variable {Op : Type}

def phaseOf (start : Op → Holding) (thread : PoolThread Op) : Holding :=
  (Prog.track Holding.advance (start thread.op) thread.log).getD
    (start thread.op)

def KeepsProtocol (start : Op → Holding) (program : Op → PoolProg Unit) :
    Prop :=
  ∀ op, Prog.Obeys Holding.advance (fun after _ => after = start op)
    (start op) (program op)

variable {start : Op → Holding} {program : Op → PoolProg Unit}
  {thread : PoolThread Op}

theorem track_phaseOf (hprogram : KeepsProtocol start program)
    (hthread : (poolSystem program).Faithful thread) :
    Prog.track Holding.advance (start thread.op) thread.log =
        some (phaseOf start thread) ∧
      Prog.Obeys Holding.advance (fun after _ => after = start thread.op)
        (phaseOf start thread) thread.prog :=
  hthread.obeys_getD (hprogram thread.op) (start thread.op)

theorem phase_advances (hprogram : KeepsProtocol start program)
    (hthread : (poolSystem program).Faithful thread) {call : PoolCall}
    {next : call.Answer → PoolProg Unit}
    (hprog : thread.prog = .call call next) (answer : call.Answer) :
    Advances (phaseOf start thread) call answer
      (phaseOf start (thread.advance call answer (next answer))) := by
  obtain ⟨htrack, hobeys⟩ := track_phaseOf hprogram hthread
  rw [hprog] at hobeys
  exact Holding.advances_of_advance
    (hobeys.advance_eq htrack (start thread.op) answer)

theorem phase_of_returned (hprogram : KeepsProtocol start program)
    (hthread : (poolSystem program).Faithful thread)
    (hprog : thread.prog = .ret ()) :
    phaseOf start thread = start thread.op := by
  obtain ⟨_, hobeys⟩ := track_phaseOf hprogram hthread
  rw [hprog] at hobeys
  exact hobeys

end Phases

def methodStart (_ : RepositoryMethod) : Holding := free

def opStart : PoolOp → Holding
  | .init .. => filling
  | .method _ => free

theorem keepsProtocol_method :
    KeepsProtocol methodStart RepositoryMethod.program :=
  Holding.obeys_method

theorem keepsProtocol_op : KeepsProtocol opStart PoolOp.program := by
  intro op
  cases op with
  | init poolSize hardwareConcurrency =>
      exact (Holding.obeys_fill _).bind fun after _ hafter => hafter
  | method called => exact Holding.obeys_method called

/-! ## Exclusive use -/

section Exclusive

variable {Op : Type} {start : Op → Holding} {program : Op → PoolProg Unit}
  {state next : PoolState Op} {move : PoolMove Op}

def heldHandles (start : Op → Holding) (state : PoolState Op) :
    List Handle :=
  state.threads.flatMap fun thread => (phaseOf start thread).handles

/-- Every handle that is idle or held is so in one place, and is open. -/
structure Exclusive (start : Op → Holding) (state : PoolState Op) :
    Prop where
  distinct : (state.world.idle ++ heldHandles start state).Nodup
  opened : ∀ conn ∈ state.world.idle ++ heldHandles start state,
    conn ∈ state.world.opened

def owned (start : Op → Holding) (state : PoolState Op) : Multiset Handle :=
  state.world.idle + (state.threads.map fun thread =>
    ((phaseOf start thread).handles : Multiset Handle)).sum

theorem coe_flatMap {T : Type} (threads : List T) (held : T → List Handle) :
    ((threads.flatMap held : List Handle) : Multiset Handle) =
      (threads.map fun thread => (held thread : Multiset Handle)).sum := by
  induction threads with
  | nil => rfl
  | cons first rest ih =>
      rw [List.flatMap_cons, ← Multiset.coe_add, ih, List.map_cons,
        List.sum_cons]

theorem coe_owned (start : Op → Holding) (state : PoolState Op) :
    ((state.world.idle ++ heldHandles start state : List Handle) :
      Multiset Handle) = owned start state := by
  rw [← Multiset.coe_add, heldHandles, coe_flatMap]
  rfl

theorem exclusive_iff : Exclusive start state ↔
    (owned start state).Nodup ∧
      ∀ conn ∈ owned start state, conn ∈ state.world.opened := by
  rw [← coe_owned]
  constructor
  · intro hstate
    exact ⟨hstate.distinct, hstate.opened⟩
  · rintro ⟨hdistinct, hopened⟩
    exact ⟨hdistinct, hopened⟩

theorem owned_exec (start : Op → Holding) {index : Nat} {thread : PoolThread Op}
    (hthread : state.threads[index]? = some thread)
    (other : PoolThread Op) (world : MySQLPool)
    (trace : List (Nat × Sigma PoolCall.Answer)) :
    owned start ⟨world, state.threads.set index other, trace⟩ +
        (state.world.idle + (phaseOf start thread).handles) =
      owned start state + (world.idle + (phaseOf start other).handles) := by
  have hsum := sum_map_set (fun thread : PoolThread Op =>
    ((phaseOf start thread).handles : Multiset Handle)) hthread other
  simp only [owned]
  rw [add_add_add_comm, hsum, add_comm (world.idle : Multiset Handle),
    add_add_add_comm]

theorem Exclusive.exec {index : Nat} {thread other : PoolThread Op}
    {world : MySQLPool} {trace : List (Nat × Sigma PoolCall.Answer)}
    (hstate : Exclusive start state)
    (hthread : state.threads[index]? = some thread)
    (htransfers : Transfers state.world (phaseOf start thread) world
      (phaseOf start other)) :
    Exclusive start ⟨world, state.threads.set index other, trace⟩ := by
  rw [exclusive_iff] at hstate ⊢
  obtain ⟨hdistinct, hopened⟩ := hstate
  have howned := owned_exec start hthread other world trace
  generalize owned start ⟨world, state.threads.set index other, trace⟩ =
    after at howned ⊢
  cases htransfers with
  | keep hsame hhandles =>
      rw [hhandles] at howned
      have hafter : after = owned start state := add_right_cancel howned
      rw [hafter]
      exact ⟨hdistinct, fun conn hconn => hsame ▸ hopened conn hconn⟩
  | fresh conn hfresh hphase hnext =>
      have hafter : after = conn ::ₘ owned start state := by
        rw [hphase, hnext, Multiset.coe_nil, add_zero, Multiset.coe_singleton,
          add_comm (state.world.idle : Multiset Handle), ← add_assoc]
          at howned
        rw [add_right_cancel howned, add_comm, Multiset.singleton_add]
      have hnew : conn ∉ owned start state := by
        intro hconn
        exact hfresh (hopened conn hconn)
      rw [hafter]
      refine ⟨Multiset.nodup_cons.mpr ⟨hnew, hdistinct⟩, ?_⟩
      intro other hother
      rcases Multiset.mem_cons.mp hother with rfl | hold
      · exact Finset.mem_insert_self _ _
      · exact Finset.mem_insert_of_mem (hopened other hold)
  | close conn hphase hnext =>
      have hbefore : owned start state = conn ::ₘ after := by
        rw [hphase, hnext, Multiset.coe_nil, add_zero, Multiset.coe_singleton,
          add_comm (state.world.idle : Multiset Handle), ← add_assoc]
          at howned
        rw [← add_right_cancel howned, add_comm, Multiset.singleton_add]
      rw [hbefore] at hdistinct hopened
      obtain ⟨hnot, hrest⟩ := Multiset.nodup_cons.mp hdistinct
      refine ⟨hrest, ?_⟩
      intro other hother
      have hne : other ≠ conn := by
        rintro rfl
        exact hnot hother
      exact Finset.mem_erase.mpr
        ⟨hne, hopened other (Multiset.mem_cons_of_mem hother)⟩

theorem Exclusive.step (hprogram : KeepsProtocol start program)
    (hempty : ∀ op, (start op).handles = [])
    (hstep : (poolSystem program).step state move = some next)
    (hfaithful : ∀ thread ∈ state.threads,
      (poolSystem program).Faithful thread)
    (hstate : Exclusive start state) : Exclusive start next := by
  cases ThreadSystem.stepped_of_step hstep with
  | enter op =>
      have hnone : (phaseOf start ((poolSystem program).begin op)).handles =
          [] := hempty op
      rw [exclusive_iff] at hstate ⊢
      simpa [owned, hnone] using hstate
  | exec hthread hprog heffect =>
      have hadvances := phase_advances hprogram
        (hfaithful _ (List.mem_of_getElem? hthread)) hprog
      exact hstate.exec hthread
        (Holding.transfers_of_advances (hadvances _) heffect)
  | disturb hdisturb => exact Empty.elim ‹Empty›

structure Supervised (start : Op → Holding) (program : Op → PoolProg Unit)
    (state : PoolState Op) : Prop where
  faithful : ∀ thread ∈ state.threads, (poolSystem program).Faithful thread
  exclusive : Exclusive start state

/-- In every interleaving of repository methods and runs of `init`, and for
all answers of the client library, the handles in `idle_` and those held by
running threads are pairwise distinct and open. -/
theorem handles_exclusive {moves : List (PoolMove PoolOp)}
    {state : PoolState PoolOp}
    (hrun : Runs.runFrom (poolSystem PoolOp.program).step { world := {} }
      moves = some state) :
    Exclusive opStart state := by
  have hempty (op : PoolOp) : (opStart op).handles = [] := by
    cases op <;> rfl
  have hnone : Exclusive opStart { world := {} } := by
    constructor <;> simp [heldHandles]
  have hstart : Supervised opStart PoolOp.program { world := {} } :=
    ⟨by simp, hnone⟩
  have hkeep : ∀ state move next,
      (poolSystem PoolOp.program).step state move = some next →
        Supervised opStart PoolOp.program state →
          Supervised opStart PoolOp.program next := by
    intro state move next hstep hstate
    exact ⟨ThreadSystem.faithful_step hstep hstate.faithful,
      hstate.exclusive.step keepsProtocol_op hempty hstep hstate.faithful⟩
  exact (Runs.invariant_of_run hstart hkeep hrun).exclusive

def firstUse : List (PoolMove PoolOp) :=
  [.enter (.init 1 0), .exec 0 .mysqlInit (some 1),
    .exec 0 (.realConnect (some 1)) true,
    .exec 0 (.createTable (some 1) "users") true,
    .exec 0 (.createTable (some 1) "friendships") true,
    .exec 0 (.createTable (some 1) "rooms") true,
    .exec 0 (.createTable (some 1) "room_members") true,
    .exec 0 (.createTable (some 1) "messages") true,
    .exec 0 (.createTable (some 1) "offline_messages") true,
    .exec 0 (.createTable (some 1) "sessions") true, .exec 0 (.adopt 1) (),
    .enter (.method (.userExists "ann")), .exec 1 .waitIdle (some 1)]

theorem handles_exclusive_firstUse :
    ∃ state, Runs.runFrom (poolSystem PoolOp.program).step { world := {} }
        firstUse = some state ∧
      heldHandles opStart state = [1] ∧ Exclusive opStart state := by
  have hrun : ∃ state, Runs.runFrom (poolSystem PoolOp.program).step
      { world := {} } firstUse = some state ∧
        heldHandles opStart state = [1] := ⟨_, rfl, rfl⟩
  obtain ⟨state, hstate, hheld⟩ := hrun
  exact ⟨state, hstate, hheld, handles_exclusive hstate⟩

end Exclusive

/-! ## The pool after `init` -/

namespace MySQLPool

structure Filled (pool : MySQLPool) : Prop where
  idle : pool.idle = pool.conns
  active : pool.activeConns = 0
  distinct : pool.conns.Nodup
  opened : pool.opened = pool.conns.toFinset

theorem meets_createTables (pool : MySQLPool) (conn : Option Handle)
    (names : List String) :
    Prog.Meets effect (fun after _ => after = pool) pool
      (createTables conn names) := by
  induction names with
  | nil => exact rfl
  | cons name rest ih =>
      intro ok after heffect
      cases heffect
      cases ok with
      | false => exact rfl
      | true => exact ih

/-- `createConnection` leaves the pool as it was, up to the new handle. -/
theorem meets_createConnection (pool : MySQLPool) :
    Prog.Meets effect
      (fun after conn => (conn = none → after = pool) ∧
        ∀ fresh, conn = some fresh → fresh ∉ pool.opened ∧
          after = { pool with opened := insert fresh pool.opened })
      pool createConnection := by
  intro conn opened hinit
  cases conn with
  | none =>
      cases hinit
      exact ⟨fun _ => rfl, fun fresh hfresh => nomatch hfresh⟩
  | some conn =>
      obtain ⟨hfresh, rfl⟩ := Holding.opened_of_mysqlInit hinit
      have hclosed : { pool with
          opened := (insert conn pool.opened).erase conn } = pool := by
        rw [Finset.erase_insert hfresh]
      intro connected after heffect
      cases heffect
      cases connected with
      | false =>
          intro answer after heffect
          cases heffect
          exact ⟨fun _ => hclosed, fun fresh hfresh => nomatch hfresh⟩
      | true =>
          apply (meets_createTables _ (some conn) _).bind
          intro after ready hafter
          subst hafter
          cases ready with
          | false =>
              intro answer after heffect
              cases heffect
              exact ⟨fun _ => hclosed, fun fresh hfresh => nomatch hfresh⟩
          | true =>
              refine ⟨(nomatch ·), fun fresh hsome => ?_⟩
              cases hsome
              exact ⟨hfresh, rfl⟩

theorem Filled.adopt {pool : MySQLPool} {conn : Handle}
    (hpool : pool.Filled) (hfresh : conn ∉ pool.opened) :
    Filled { pool with
      opened := insert conn pool.opened
      conns := pool.conns ++ [conn]
      idle := pool.idle ++ [conn] } := by
  have hnew : conn ∉ pool.conns := by
    intro hconn
    rw [hpool.opened] at hfresh
    exact hfresh (List.mem_toFinset.mpr hconn)
  constructor
  · simp only [hpool.idle]
  · exact hpool.active
  · exact List.nodup_append.mpr ⟨hpool.distinct, by simp, by
      rintro other hother _ hconn rfl
      rw [List.mem_singleton] at hconn
      exact hnew (hconn ▸ hother)⟩
  · ext other
    rw [Finset.mem_insert, hpool.opened, List.mem_toFinset,
      List.mem_toFinset, List.mem_append, List.mem_singleton, or_comm]

theorem meets_fill (count : Nat) (pool : MySQLPool) (hpool : pool.Filled) :
    Prog.Meets effect
      (fun after ok => after.Filled ∧
        (ok = true → after.conns.length = pool.conns.length + count))
      pool (fill count) := by
  induction count generalizing pool with
  | zero => exact ⟨hpool, fun _ => rfl⟩
  | succ count ih =>
      apply (meets_createConnection pool).bind
      rintro after conn ⟨hnone, hsome⟩
      cases conn with
      | none =>
          rw [hnone rfl]
          exact ⟨hpool, fun hfalse => nomatch hfalse⟩
      | some conn =>
          obtain ⟨hfresh, rfl⟩ := hsome conn rfl
          intro answer after heffect
          cases heffect
          have hrest := ih _ (hpool.adopt hfresh)
          simp only [List.length_append, List.length_singleton,
            Nat.add_assoc, Nat.add_comm 1] at hrest
          exact hrest

theorem Initialized.filled {poolSize : Int} {hardwareConcurrency : Nat}
    {pool : MySQLPool}
    (hpool : Initialized poolSize hardwareConcurrency pool) :
    pool.Filled ∧
      pool.conns.length = sizeOf poolSize hardwareConcurrency := by
  obtain ⟨log, hreaches, htrack⟩ := hpool
  have hempty : Filled {} := by
    constructor <;> simp
  obtain ⟨hfilled, hlength⟩ :=
    (meets_fill _ {} hempty).returns hreaches htrack
  exact ⟨hfilled, by simpa using hlength rfl⟩

/-- A pool of one connection. -/
def single : MySQLPool :=
  { conns := [1], idle := [1], opened := {1} }

def singleLog : List (Sigma PoolCall.Answer) :=
  [⟨.mysqlInit, some 1⟩, ⟨.realConnect (some 1), true⟩,
    ⟨.createTable (some 1) "users", true⟩,
    ⟨.createTable (some 1) "friendships", true⟩,
    ⟨.createTable (some 1) "rooms", true⟩,
    ⟨.createTable (some 1) "room_members", true⟩,
    ⟨.createTable (some 1) "messages", true⟩,
    ⟨.createTable (some 1) "offline_messages", true⟩,
    ⟨.createTable (some 1) "sessions", true⟩, ⟨.adopt 1, ()⟩]

theorem initialized_single : Initialized 1 0 single := by
  refine ⟨singleLog, ?_, rfl⟩
  unfold singleLog
  repeat' constructor

end MySQLPool

/-! ## Capacity -/

section Capacity

variable {state next : PoolState RepositoryMethod}
  {move : PoolMove RepositoryMethod} {size : Nat}

def heldPlaces (state : PoolState RepositoryMethod) : Nat :=
  (state.threads.map fun thread =>
    (phaseOf methodStart thread).slots).sum

/-- No connection is lost: those that are idle and those whose place is held
by a running method make up the pool, `activeConns_` counts the latter, and
with no method running all are idle. -/
structure Balanced (size : Nat) (state : PoolState RepositoryMethod) :
    Prop where
  capacity : state.world.idle.length + heldPlaces state = size
  active : state.world.activeConns = heldPlaces state
  atRest : (∀ thread ∈ state.threads, thread.prog = .ret ()) →
    state.world.idle.length = size

/-- The step gives up no place of the pool: it is not the end of a failed
reconnection, and not the `mysql_close` before `verifyUser`'s second
attempt. -/
def KeepsPlace : PoolMove RepositoryMethod → Prop
  | .exec _ call _ => ¬ Holding.Forfeits call
  | _ => True

theorem heldPlaces_exec {index : Nat} {thread : PoolThread RepositoryMethod}
    (hthread : state.threads[index]? = some thread)
    (other : PoolThread RepositoryMethod) (world : MySQLPool)
    (trace : List (Nat × Sigma PoolCall.Answer)) :
    heldPlaces ⟨world, state.threads.set index other, trace⟩ +
        (phaseOf methodStart thread).slots =
      heldPlaces state + (phaseOf methodStart other).slots :=
  sum_map_set (fun thread : PoolThread RepositoryMethod =>
    (phaseOf methodStart thread).slots) hthread other

theorem ofMethod_phaseOf {thread : PoolThread RepositoryMethod}
    (hthread : (poolSystem RepositoryMethod.program).Faithful thread) :
    (phaseOf methodStart thread).OfMethod := by
  obtain ⟨htrack, _⟩ := track_phaseOf keepsProtocol_method hthread
  have hkeep : ∀ phase (call : PoolCall) (answer : call.Answer) after,
      Holding.advance phase call answer = some after →
        phase.OfMethod → after.OfMethod := by
    intro phase call answer after hadvance hphase
    exact hphase.advances (Holding.advances_of_advance hadvance)
  exact Prog.track_invariant hkeep htrack trivial

theorem heldPlaces_atRest
    (hfaithful : ∀ thread ∈ state.threads,
      (poolSystem RepositoryMethod.program).Faithful thread)
    (hreturned : ∀ thread ∈ state.threads, thread.prog = .ret ()) :
    heldPlaces state = 0 := by
  unfold heldPlaces
  apply List.sum_eq_zero
  intro slots hslots
  obtain ⟨thread, hthread, rfl⟩ := List.mem_map.mp hslots
  rw [phase_of_returned keepsProtocol_method (hfaithful thread hthread)
    (hreturned thread hthread)]
  rfl

structure Accounts (size : Nat) (state : PoolState RepositoryMethod) :
    Prop where
  faithful : ∀ thread ∈ state.threads,
    (poolSystem RepositoryMethod.program).Faithful thread
  balanced : Balanced size state

theorem balanced_of_counts
    (hfaithful : ∀ thread ∈ state.threads,
      (poolSystem RepositoryMethod.program).Faithful thread)
    (hcapacity : state.world.idle.length + heldPlaces state = size)
    (hactive : state.world.activeConns = heldPlaces state) :
    Balanced size state := by
  refine ⟨hcapacity, hactive, ?_⟩
  intro hreturned
  rw [heldPlaces_atRest hfaithful hreturned] at hcapacity
  exact hcapacity

theorem Accounts.step
    (hstep : (poolSystem RepositoryMethod.program).step state move =
      some next)
    (hstate : Accounts size state) (hkeeps : KeepsPlace move) :
    Accounts size next := by
  have hfaithful := ThreadSystem.faithful_step hstep hstate.faithful
  refine ⟨hfaithful, ?_⟩
  have hcapacity := hstate.balanced.capacity
  have hactive := hstate.balanced.active
  cases ThreadSystem.stepped_of_step hstep with
  | enter op =>
      have hsame : heldPlaces { state with threads := state.threads ++
          [(poolSystem RepositoryMethod.program).begin op] } =
            heldPlaces state := by
        simp only [heldPlaces, List.map_append, List.sum_append]
        rfl
      apply balanced_of_counts hfaithful
      · rw [hsame]
        exact hcapacity
      · rw [hsame]
        exact hactive
  | @exec index call answer thread world rest hthread hprog heffect =>
      have hold := hstate.faithful _ (List.mem_of_getElem? hthread)
      have hadvances :=
        phase_advances keepsProtocol_method hold hprog answer
      obtain ⟨hidle, hcount⟩ := Holding.slots_of_not_forfeits
        (ofMethod_phaseOf hold) hadvances heffect hkeeps
      have hheld := heldPlaces_exec hthread
        (thread.advance call answer (rest answer)) world
        ((index, ⟨call, answer⟩) :: state.trace)
      apply balanced_of_counts hfaithful
      · dsimp only
        omega
      · dsimp only
        omega
  | disturb hdisturb => exact Empty.elim ‹Empty›

theorem Accounts.keepsPlace
    (hstep : (poolSystem RepositoryMethod.program).step state move =
      some next)
    (hstate : Accounts size state) (hnext : Balanced size next) :
    KeepsPlace move := by
  cases ThreadSystem.stepped_of_step hstep with
  | enter op => trivial
  | @exec index call answer thread world rest hthread hprog heffect =>
      intro hforfeits
      have hold := hstate.faithful _ (List.mem_of_getElem? hthread)
      have hadvances :=
        phase_advances keepsProtocol_method hold hprog answer
      have hidle :=
        Holding.slots_of_forfeits hadvances heffect hforfeits
      have hheld := heldPlaces_exec hthread
        (thread.advance call answer (rest answer)) world
        ((index, ⟨call, answer⟩) :: state.trace)
      have hbefore := hstate.balanced.capacity
      have hafter := hnext.capacity
      simp only at hafter
      omega
  | disturb hdisturb => trivial

/-- After `init` the pool keeps all its connections along a run exactly when
no step of the run gives up a place. -/
theorem capacity_kept_iff {poolSize : Int} {hardwareConcurrency : Nat}
    {pool : MySQLPool}
    (hpool : MySQLPool.Initialized poolSize hardwareConcurrency pool)
    (moves : List (PoolMove RepositoryMethod)) :
    Runs.Always (poolSystem RepositoryMethod.program).step
        (Balanced (MySQLPool.sizeOf poolSize hardwareConcurrency))
        { world := pool } moves ↔
      Runs.EachStep (poolSystem RepositoryMethod.program).step
        (fun _ move => KeepsPlace move) { world := pool } moves := by
  obtain ⟨hfilled, hlength⟩ := hpool.filled
  have hstart : Accounts
      (MySQLPool.sizeOf poolSize hardwareConcurrency) { world := pool } := by
    refine ⟨by simp, balanced_of_counts (by simp) ?_ ?_⟩
    · simp [heldPlaces, hfilled.idle, hlength]
    · simp [heldPlaces, hfilled.active]
  exact Runs.always_iff_eachStep_of_inv hstart
    (fun _ hstate => hstate.balanced)
    (fun _ _ _ hstep hstate hkeeps => hstate.step hstep hkeeps)
    (fun _ _ _ hstep hstate hnext => hstate.keepsPlace hstep hnext) moves

/-- A query over the only connection. -/
def goodQuery : List (PoolMove RepositoryMethod) :=
  [.enter (.userExists "ann"), .exec 0 .waitIdle (some 1),
    .exec 0 (.ping (some 1)) true,
    .exec 0 (.query (some 1) (.selectUid "ann")) (some (some ["ann"])),
    .exec 0 (.release 1) ()]

theorem capacity_kept_goodQuery :
    MySQLPool.Initialized 1 0 MySQLPool.single ∧
      Runs.Always (poolSystem RepositoryMethod.program).step (Balanced 1)
        { world := MySQLPool.single } goodQuery := by
  refine ⟨MySQLPool.initialized_single, ?_⟩
  apply (capacity_kept_iff MySQLPool.initialized_single goodQuery).mpr
  apply Runs.eachStep_of_forall
  intro move hmove state
  simp only [goodQuery, List.mem_cons, List.not_mem_nil, or_false] at hmove
  rcases hmove with rfl | rfl | rfl | rfl | rfl <;>
    simp [KeepsPlace, Holding.Forfeits]

/-- The connection has gone stale and the server cannot be reached. -/
def failedReconnect : List (PoolMove RepositoryMethod) :=
  [.enter (.userExists "ann"), .exec 0 .waitIdle (some 1),
    .exec 0 (.ping (some 1)) false,
    .exec 0 (.mysqlClose (some 1) .getConnection) (),
    .exec 0 .mysqlInit (some 1), .exec 0 (.realConnect (some 1)) false,
    .exec 0 (.mysqlClose (some 1) .createConnection) (),
    .exec 0 .deactivate ()]

theorem capacity_lost_failedReconnect :
    MySQLPool.Initialized 1 0 MySQLPool.single ∧
      ¬ Runs.Always (poolSystem RepositoryMethod.program).step (Balanced 1)
        { world := MySQLPool.single } failedReconnect := by
  refine ⟨MySQLPool.initialized_single, ?_⟩
  intro halways
  have hlast := halways failedReconnect _ (List.prefix_refl _) rfl
  exact absurd hlast.capacity (by decide)

end Capacity

/-! ## The destructor -/

section Destructor

variable {state next : PoolState RepositoryMethod}
  {move : PoolMove RepositoryMethod}

def closedHandles (log : List (Sigma PoolCall.Answer)) : List Handle :=
  log.flatMap fun entry =>
    match entry.1 with
    | .mysqlClose conn _ => conn.toList
    | _ => []

/-- Once every held connection has been given back, the destructor calls
`mysql_close` once on each open handle and on no other. -/
def ClosesOpenOnce (state : PoolState RepositoryMethod) : Prop :=
  heldHandles methodStart state = [] →
    ∀ log, Prog.Reaches (MySQLPool.destructor state.world.conns) log
      (.ret ()) → ∀ conn, (closedHandles log).count conn =
        if conn ∈ state.world.opened then 1 else 0

/-- The step closes no connection: neither one that does not answer the
ping, nor the one `verifyUser` gives up before its second attempt. -/
def ClosesNothing : PoolMove RepositoryMethod → Prop
  | .exec _ (.mysqlClose ..) _ => False
  | _ => True

theorem closedHandles_destructor {conns : List Handle}
    {log : List (Sigma PoolCall.Answer)}
    (hreaches : Prog.Reaches (MySQLPool.destructor conns) log (.ret ())) :
    closedHandles log = conns := by
  induction conns generalizing log with
  | nil =>
      cases hreaches
      rfl
  | cons conn rest ih =>
      cases hreaches with
      | step hrest => exact congrArg (List.cons conn) (ih hrest)

/-- While no connection is closed, each thread has none or one of those
`init` has made. -/
structure Unbroken (state : PoolState RepositoryMethod) : Prop where
  faithful : ∀ thread ∈ state.threads,
    (poolSystem RepositoryMethod.program).Faithful thread
  connected : ∀ thread ∈ state.threads,
    phaseOf methodStart thread ≠ reconnecting
  owned : owned methodStart state = state.world.conns
  distinct : state.world.conns.Nodup
  opened : state.world.opened = state.world.conns.toFinset

theorem connected_of_advances {phase after : Holding} {call : PoolCall}
    {answer : call.Answer} {index : Nat} {pool world : MySQLPool}
    (hmethod : phase.OfMethod) (hphase : phase ≠ reconnecting)
    (hcloses : ClosesNothing (.exec index call answer))
    (hadvances : Advances phase call answer after)
    (heffect : pool.effect call answer = some world) :
    after ≠ reconnecting ∧ world.opened = pool.opened := by
  cases hadvances with
  | closeStale | closeUnready | closeRetry => exact hcloses.elim
  | noHandle | reopen | giveUp => exact (hphase rfl).elim
  | fillNone | fillOpen | fillClose | adopt => exact hmethod.elim
  | timeout =>
      rw [Holding.eq_of_timeout heffect]
      exact ⟨hphase, rfl⟩
  | take conn =>
      rw [(Holding.idle_of_waitIdle heffect).2]
      exact ⟨by simp, rfl⟩
  | giveBack =>
      cases heffect
      exact ⟨by simp, rfl⟩
  | connect | table | ping | query =>
      cases heffect
      exact ⟨hphase, rfl⟩

theorem Unbroken.mem_opened (hstate : Unbroken state) {conn : Handle}
    (hconn : conn ∈ MuduoChat.owned methodStart state) :
    conn ∈ state.world.opened := by
  rw [hstate.opened, List.mem_toFinset]
  rw [hstate.owned] at hconn
  exact hconn

theorem handles_mem_owned {thread : PoolThread RepositoryMethod}
    (hthread : thread ∈ state.threads) {conn : Handle}
    (hconn : conn ∈ (phaseOf methodStart thread).handles) :
    conn ∈ owned methodStart state := by
  rw [← coe_owned]
  have hheld : conn ∈ heldHandles methodStart state :=
    List.mem_flatMap.mpr ⟨thread, hthread, hconn⟩
  exact List.mem_append_right _ hheld

theorem Unbroken.owned_exec (hstate : Unbroken state) {index : Nat}
    {thread other : PoolThread RepositoryMethod} {world : MySQLPool}
    (trace : List (Nat × Sigma PoolCall.Answer))
    (hthread : state.threads[index]? = some thread)
    (htransfers : Transfers state.world (phaseOf methodStart thread) world
      (phaseOf methodStart other))
    (hopened : world.opened = state.world.opened) :
    MuduoChat.owned methodStart
        ⟨world, state.threads.set index other, trace⟩ =
      state.world.conns := by
  have hmem := List.mem_of_getElem? hthread
  cases htransfers with
  | keep hsame hhandles =>
      have howned :=
        MuduoChat.owned_exec methodStart hthread other world trace
      rw [hhandles] at howned
      rw [add_right_cancel howned]
      exact hstate.owned
  | fresh conn hfresh hphase hnext =>
      have hconn : conn ∈ state.world.opened := by
        rw [← hopened]
        exact Finset.mem_insert_self conn _
      exact (hfresh hconn).elim
  | close conn hphase hnext =>
      have hheld : conn ∈ (phaseOf methodStart thread).handles := by
        rw [hphase]
        exact List.mem_singleton_self conn
      have hconn : conn ∈ state.world.opened :=
        hstate.mem_opened (handles_mem_owned hmem hheld)
      rw [← hopened] at hconn
      exact (Finset.notMem_erase conn _ hconn).elim

theorem Unbroken.step
    (hstep : (poolSystem RepositoryMethod.program).step state move =
      some next)
    (hstate : Unbroken state) (hcloses : ClosesNothing move) :
    Unbroken next := by
  have hfaithful := ThreadSystem.faithful_step hstep hstate.faithful
  cases ThreadSystem.stepped_of_step hstep with
  | enter op =>
      refine ⟨hfaithful, ?_, ?_, hstate.distinct, hstate.opened⟩
      · intro thread hthread
        rcases List.mem_append.mp hthread with hold | hnew
        · exact hstate.connected thread hold
        · rw [List.mem_singleton.mp hnew]
          simp [phaseOf, ThreadSystem.begin, Prog.track, methodStart]
      · have hnone : (phaseOf methodStart
            ((poolSystem RepositoryMethod.program).begin op)).handles =
              [] := rfl
        have howned := hstate.owned
        simp only [MuduoChat.owned] at howned ⊢
        simpa [hnone] using howned
  | @exec index call answer thread world rest hthread hprog heffect =>
      have hmem := List.mem_of_getElem? hthread
      have hold := hstate.faithful _ hmem
      have hmethod := ofMethod_phaseOf hold
      have hadvances :=
        phase_advances keepsProtocol_method hold hprog answer
      have hconns := Holding.conns_of_advances hmethod hadvances heffect
      obtain ⟨hafter, hopened⟩ := connected_of_advances hmethod
        (hstate.connected _ hmem) hcloses hadvances heffect
      have howned := hstate.owned_exec
        ((index, ⟨call, answer⟩) :: state.trace) hthread
        (Holding.transfers_of_advances hadvances heffect) hopened
      constructor
      · exact hfaithful
      · intro other hother
        rcases List.mem_or_eq_of_mem_set hother with hin | rfl
        · exact hstate.connected other hin
        · exact hafter
      · rw [howned]
        exact congrArg _ hconns.symm
      · rw [hconns]
        exact hstate.distinct
      · rw [hconns, hopened]
        exact hstate.opened
  | disturb hdisturb => exact Empty.elim ‹Empty›

theorem Unbroken.closesOpenOnce (hstate : Unbroken state) :
    ClosesOpenOnce state := by
  intro _ log hreaches conn
  rw [closedHandles_destructor hreaches, hstate.opened,
    hstate.distinct.count]
  simp

/-- In a run in which no connection is closed, the destructor closes every
open handle exactly once as soon as nothing is held. -/
theorem destructor_closes_open_once {poolSize : Int}
    {hardwareConcurrency : Nat} {pool : MySQLPool}
    (hpool : MySQLPool.Initialized poolSize hardwareConcurrency pool)
    {moves : List (PoolMove RepositoryMethod)}
    (hcloses : Runs.EachStep (poolSystem RepositoryMethod.program).step
      (fun _ move => ClosesNothing move) { world := pool } moves) :
    Runs.Always (poolSystem RepositoryMethod.program).step ClosesOpenOnce
      { world := pool } moves := by
  obtain ⟨hfilled, _⟩ := hpool.filled
  have hstart : Unbroken { world := pool } := by
    refine ⟨by simp, by simp, ?_, hfilled.distinct, hfilled.opened⟩
    simp [MuduoChat.owned, hfilled.idle]
  have halways := Runs.always_of_eachStep hstart
    (fun _ _ _ hstep hstate hnothing => hstate.step hstep hnothing) hcloses
  intro before state hbefore hrun
  exact (halways before state hbefore hrun).closesOpenOnce

theorem destructor_after_goodQuery :
    MySQLPool.Initialized 1 0 MySQLPool.single ∧
      Runs.Always (poolSystem RepositoryMethod.program).step ClosesOpenOnce
        { world := MySQLPool.single } goodQuery := by
  refine ⟨MySQLPool.initialized_single,
    destructor_closes_open_once MySQLPool.initialized_single ?_⟩
  apply Runs.eachStep_of_forall
  intro move hmove state
  simp only [goodQuery, List.mem_cons, List.not_mem_nil, or_false] at hmove
  rcases hmove with rfl | rfl | rfl | rfl | rfl <;> simp [ClosesNothing]

/-- The stale connection is replaced by one with another address. -/
def replacedConnection : List (PoolMove RepositoryMethod) :=
  [.enter (.userExists "ann"), .exec 0 .waitIdle (some 1),
    .exec 0 (.ping (some 1)) false,
    .exec 0 (.mysqlClose (some 1) .getConnection) (),
    .exec 0 .mysqlInit (some 2), .exec 0 (.realConnect (some 2)) true,
    .exec 0 (.createTable (some 2) "users") true,
    .exec 0 (.createTable (some 2) "friendships") true,
    .exec 0 (.createTable (some 2) "rooms") true,
    .exec 0 (.createTable (some 2) "room_members") true,
    .exec 0 (.createTable (some 2) "messages") true,
    .exec 0 (.createTable (some 2) "offline_messages") true,
    .exec 0 (.createTable (some 2) "sessions") true,
    .exec 0 (.query (some 2) (.selectUid "ann")) (some (some ["ann"])),
    .exec 0 (.release 2) ()]

theorem destructor_fails_replacedConnection :
    MySQLPool.Initialized 1 0 MySQLPool.single ∧
      ¬ Runs.Always (poolSystem RepositoryMethod.program).step
        ClosesOpenOnce { world := MySQLPool.single }
        replacedConnection := by
  refine ⟨MySQLPool.initialized_single, ?_⟩
  intro halways
  have hlast := halways replacedConnection _ (List.prefix_refl _) rfl
  have hcount := hlast rfl
    [⟨.mysqlClose (some 1) .destructor, ()⟩] (.step (.refl _)) 1
  exact absurd hcount (by decide)

end Destructor

end MuduoChat
