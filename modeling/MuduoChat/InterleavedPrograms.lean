import MuduoChat.CallPrograms
import MuduoChat.LabelledRuns
import Mathlib.Algebra.BigOperators.Group.List.Basic
import Mathlib.Data.List.Forall2

/-!
# Interleaved programs

Any number of threads run programs over one shared world.  A thread is
started with an operation, and from then on a step of the system is one call
of one thread together with the answer it gets; the world decides which
answers are possible.  The world may also change by itself.

A program may be required to keep to a protocol: a partial automaton reads
its calls and answers, and `Obeys` says that the automaton never gets stuck
on the program, whatever the answers are.  Along every interleaving each
thread then stays in step with its own automaton.
-/

namespace MuduoChat

namespace Prog

/-! ## Protocols -/

section Protocol

variable {Call : Type} {Answer : Call → Type} {α β Phase : Type}

/-- No answers lead the program to a call its phase forbids, and when it
returns, `post` holds of its phase and its value. -/
def Obeys (advance : Phase → (call : Call) → Answer call → Option Phase)
    (post : Phase → α → Prop) : Phase → Prog Call Answer α → Prop
  | phase, .ret value => post phase value
  | phase, .call request next =>
      ∀ answer, ∃ after, advance phase request answer = some after ∧
        Obeys advance post after (next answer)

def track (advance : Phase → (call : Call) → Answer call → Option Phase) :
    Phase → List (Sigma Answer) → Option Phase
  | phase, [] => some phase
  | phase, entry :: log =>
      (advance phase entry.1 entry.2).bind fun after =>
        track advance after log

variable {advance : Phase → (call : Call) → Answer call → Option Phase}
  {post : Phase → α → Prop} {phase : Phase}

@[simp] theorem obeys_ret {value : α} :
    Obeys advance post phase (.ret value : Prog Call Answer α) ↔
      post phase value := Iff.rfl

@[simp] theorem obeys_call {request : Call}
    {next : Answer request → Prog Call Answer α} :
    Obeys advance post phase (.call request next) ↔
      ∀ answer, ∃ after, advance phase request answer = some after ∧
        Obeys advance post after (next answer) := Iff.rfl

theorem Obeys.mono {final : Phase → α → Prop} {prog : Prog Call Answer α}
    (hprog : Obeys advance post phase prog)
    (hpost : ∀ after value, post after value → final after value) :
    Obeys advance final phase prog := by
  induction prog generalizing phase with
  | ret value => exact hpost phase value hprog
  | call request rest ih =>
      intro answer
      obtain ⟨after, hadvance, hrest⟩ := hprog answer
      exact ⟨after, hadvance, ih answer hrest⟩

theorem Obeys.bind {next : α → Prog Call Answer β} {final : Phase → β → Prop}
    {prog : Prog Call Answer α} (hprog : Obeys advance post phase prog)
    (hnext : ∀ after value, post after value →
      Obeys advance final after (next value)) :
    Obeys advance final phase (prog >>= next) := by
  induction prog generalizing phase with
  | ret value => exact hnext phase value hprog
  | call request rest ih =>
      intro answer
      obtain ⟨after, hadvance, hrest⟩ := hprog answer
      exact ⟨after, hadvance, ih answer hrest⟩

theorem track_append (first second : List (Sigma Answer)) :
    track advance phase (first ++ second) =
      (track advance phase first).bind fun after =>
        track advance after second := by
  induction first generalizing phase with
  | nil => rfl
  | cons entry log ih =>
      simp only [List.cons_append, track]
      cases advance phase entry.1 entry.2 with
      | none => rfl
      | some after => exact ih

theorem track_snoc {log : List (Sigma Answer)} {after : Phase}
    (htrack : track advance phase log = some after) (call : Call)
    (answer : Answer call) :
    track advance phase (log ++ [⟨call, answer⟩]) =
      advance after call answer := by
  rw [track_append, htrack]
  simp [track]

/-- The phase after one more call, with any value for the logs that the
automaton does not follow. -/
theorem Obeys.advance_eq {log : List (Sigma Answer)} {after : Phase}
    {call : Call} {next : Answer call → Prog Call Answer α}
    (hobeys : Obeys advance post after (.call call next))
    (htrack : track advance phase log = some after) (default : Phase)
    (answer : Answer call) :
    advance after call answer =
      some ((track advance phase (log ++ [⟨call, answer⟩])).getD
        default) := by
  obtain ⟨later, hadvance, -⟩ := hobeys answer
  rw [track_snoc htrack, hadvance]
  rfl

theorem track_invariant {inv : Phase → Prop}
    (hkeep : ∀ phase call answer after,
      advance phase call answer = some after → inv phase → inv after)
    {log : List (Sigma Answer)} {after : Phase}
    (htrack : track advance phase log = some after) (hphase : inv phase) :
    inv after := by
  induction log generalizing phase with
  | nil =>
      cases htrack
      exact hphase
  | cons entry log ih =>
      obtain ⟨middle, hadvance, hrest⟩ :=
        Option.bind_eq_some_iff.mp htrack
      exact ih hrest (hkeep phase entry.1 entry.2 middle hadvance hphase)

theorem Obeys.reaches {prog rest : Prog Call Answer α}
    {log : List (Sigma Answer)} (hprog : Obeys advance post phase prog)
    (hreaches : Reaches prog log rest) :
    ∃ after, track advance phase log = some after ∧
      Obeys advance post after rest := by
  induction hreaches generalizing phase with
  | refl prog => exact ⟨phase, rfl, hprog⟩
  | step _ ih =>
      obtain ⟨middle, hadvance, hmiddle⟩ := hprog _
      obtain ⟨after, htrack, hrest⟩ := ih hmiddle
      refine ⟨after, ?_, hrest⟩
      simp only [track, hadvance, Option.bind_some]
      exact htrack

end Protocol

/-! ## Programs that run alone -/

section Alone

variable {Call World : Type} {Answer : Call → Type} {α β : Type}

/-- Whenever the program, run alone, returns, `post` holds of the world it
leaves and of its value. -/
def Meets (effect : World → (call : Call) → Answer call → Option World)
    (post : World → α → Prop) : World → Prog Call Answer α → Prop
  | world, .ret value => post world value
  | world, .call request next =>
      ∀ answer after, effect world request answer = some after →
        Meets effect post after (next answer)

variable {effect : World → (call : Call) → Answer call → Option World}
  {post : World → α → Prop} {world : World} {prog : Prog Call Answer α}

theorem Meets.bind {next : α → Prog Call Answer β} {final : World → β → Prop}
    (hprog : Meets effect post world prog)
    (hnext : ∀ after value, post after value →
      Meets effect final after (next value)) :
    Meets effect final world (prog >>= next) := by
  induction prog generalizing world with
  | ret value => exact hnext world value hprog
  | call request rest ih =>
      intro answer after heffect
      exact ih answer (hprog answer after heffect)

theorem Meets.returns {log : List (Sigma Answer)} {value : α}
    {after : World} (hprog : Meets effect post world prog)
    (hreaches : Reaches prog log (.ret value))
    (htrack : track effect world log = some after) : post after value := by
  generalize hrest : (.ret value : Prog Call Answer α) = rest at hreaches
  induction hreaches generalizing world with
  | refl prog =>
      subst hrest
      cases htrack
      exact hprog
  | step _ ih =>
      obtain ⟨middle, heffect, htrack⟩ := Option.bind_eq_some_iff.mp htrack
      exact ih (hprog _ middle heffect) htrack hrest

end Alone

end Prog

/-! ## Lists in step -/

section Lists

variable {T S : Type} {R : T → S → Prop} {threads : List T} {phases : List S}
  {index : Nat}

theorem forall₂_getElem? (hall : List.Forall₂ R threads phases) {thread : T}
    (hthread : threads[index]? = some thread) :
    ∃ phase, phases[index]? = some phase ∧ R thread phase := by
  induction hall generalizing index with
  | nil => simp at hthread
  | cons hfirst hrest ih =>
      cases index with
      | zero =>
          cases hthread
          exact ⟨_, rfl, hfirst⟩
      | succ index => exact ih hthread

theorem forall₂_set (hall : List.Forall₂ R threads phases) {thread : T}
    {phase : S} (hrelated : R thread phase) :
    List.Forall₂ R (threads.set index thread) (phases.set index phase) := by
  induction hall generalizing index with
  | nil => exact .nil
  | cons hfirst hrest ih =>
      cases index with
      | zero => exact .cons hrelated hrest
      | succ index => exact .cons hfirst ih

theorem getElem?_set_cases {thread each : T} {i : Nat}
    (heach : (threads.set index thread)[i]? = some each) :
    i = index ∧ each = thread ∨ i ≠ index ∧ threads[i]? = some each := by
  by_cases hindex : i = index
  · subst hindex
    have hself : (threads.set i thread)[i]? = some each := heach
    rw [List.getElem?_set] at hself
    simp only [if_true] at hself
    split at hself
    · cases hself
      exact .inl ⟨rfl, rfl⟩
    · cases hself
  · rw [List.getElem?_set_ne (Ne.symm hindex)] at heach
    exact .inr ⟨hindex, heach⟩

/-- A list around one of its places. -/
theorem exists_around_getElem? {item : T}
    (hitem : threads[index]? = some item) :
    ∃ before after, threads = before ++ item :: after ∧
      (∀ other, threads.set index other = before ++ other :: after) ∧
        threads.eraseIdx index = before ++ after := by
  induction threads generalizing index with
  | nil => simp at hitem
  | cons first rest ih =>
      cases index with
      | zero =>
          cases hitem
          exact ⟨[], rest, rfl, fun _ => rfl, rfl⟩
      | succ index =>
          obtain ⟨before, after, hrest, hset, herase⟩ := ih hitem
          refine ⟨first :: before, after, ?_, ?_, ?_⟩
          · rw [hrest]
            rfl
          · intro other
            rw [List.set_cons_succ, hset]
            rfl
          · rw [List.eraseIdx_cons_succ, herase]
            rfl

end Lists

/-! ## Threads -/

structure Thread (Op Call : Type) (Answer : Call → Type) (α : Type) where
  op : Op
  log : List (Sigma Answer) := []
  prog : Prog Call Answer α

/-- The world, every thread ever started, and the calls made so far with the
thread that made them, newest first. -/
structure Interleaving (World Op Call : Type) (Answer : Call → Type)
    (α : Type) where
  world : World
  threads : List (Thread Op Call Answer α) := []
  trace : List (Nat × Sigma Answer) := []

/-- Every thread has returned. -/
def Interleaving.Quiescent {World Op Call : Type} {Answer : Call → Type}
    {α : Type} (state : Interleaving World Op Call Answer α) : Prop :=
  ∀ thread ∈ state.threads, ∃ value, thread.prog = .ret value

structure ThreadSystem (World Op Env Call : Type) (Answer : Call → Type)
    (α : Type) where
  program : Op → Prog Call Answer α
  effect : World → (call : Call) → Answer call → Option World
  disturb : World → Env → Option World

inductive Move (Op Env Call : Type) (Answer : Call → Type) where
  | enter (op : Op)
  | exec (index : Nat) (call : Call) (answer : Answer call)
  | disturb (event : Env)

namespace Thread

variable {Op Call : Type} {Answer : Call → Type} {α : Type}

def advance (thread : Thread Op Call Answer α) (call : Call)
    (answer : Answer call) (prog : Prog Call Answer α) :
    Thread Op Call Answer α :=
  { thread with log := thread.log ++ [⟨call, answer⟩], prog := prog }

end Thread

namespace ThreadSystem

variable {World Op Env Call : Type} {Answer : Call → Type} {α : Type}

def begin (system : ThreadSystem World Op Env Call Answer α) (op : Op) :
    Thread Op Call Answer α :=
  { op := op, prog := system.program op }

section Faithful

variable {system : ThreadSystem World Op Env Call Answer α}

/-- Every thread is where its log has led the program of its operation. -/
def Faithful (system : ThreadSystem World Op Env Call Answer α)
    (thread : Thread Op Call Answer α) : Prop :=
  Prog.Reaches (system.program thread.op) thread.log thread.prog

theorem Faithful.begin (op : Op) : system.Faithful (system.begin op) :=
  .refl _

theorem Faithful.advance {thread : Thread Op Call Answer α} {call : Call}
    {rest : Answer call → Prog Call Answer α}
    (hthread : system.Faithful thread) (hprog : thread.prog = .call call rest)
    (answer : Answer call) :
    system.Faithful (thread.advance call answer (rest answer)) := by
  have hreaches : Prog.Reaches (system.program thread.op) thread.log
      (.call call rest) := hprog ▸ hthread
  exact hreaches.snoc answer

theorem Faithful.obeys {Phase : Type}
    {advance : Phase → (call : Call) → Answer call → Option Phase}
    {post : Phase → α → Prop} {phase : Phase}
    {thread : Thread Op Call Answer α} (hthread : system.Faithful thread)
    (hobeys : Prog.Obeys advance post phase (system.program thread.op)) :
    ∃ after, Prog.track advance phase thread.log = some after ∧
      Prog.Obeys advance post after thread.prog :=
  hobeys.reaches hthread

/-- The same for a phase read off the log. -/
theorem Faithful.obeys_getD {Phase : Type}
    {advance : Phase → (call : Call) → Answer call → Option Phase}
    {post : Phase → α → Prop} {phase : Phase}
    {thread : Thread Op Call Answer α} (hthread : system.Faithful thread)
    (hobeys : Prog.Obeys advance post phase (system.program thread.op))
    (default : Phase) :
    Prog.track advance phase thread.log =
        some ((Prog.track advance phase thread.log).getD default) ∧
      Prog.Obeys advance post
        ((Prog.track advance phase thread.log).getD default)
        thread.prog := by
  obtain ⟨after, htrack, hrest⟩ := hthread.obeys hobeys
  rw [htrack]
  exact ⟨rfl, hrest⟩

end Faithful

/-! ## Threads in step with an automaton -/

section InPhase

variable {Phase : Type}
  {advance : Phase → (call : Call) → Answer call → Option Phase}
  {post : Op → Phase → α → Prop} {start : Op → Phase}
  {thread : Thread Op Call Answer α} {phase : Phase}

/-- The automaton has followed the thread's calls into this phase, and will
follow what is left of its program. -/
def InPhase (advance : Phase → (call : Call) → Answer call → Option Phase)
    (post : Op → Phase → α → Prop) (start : Op → Phase)
    (thread : Thread Op Call Answer α) (phase : Phase) : Prop :=
  Prog.track advance (start thread.op) thread.log = some phase ∧
    Prog.Obeys advance (post thread.op) phase thread.prog

theorem InPhase.begin {system : ThreadSystem World Op Env Call Answer α}
    (hobeys : ∀ op,
      Prog.Obeys advance (post op) (start op) (system.program op))
    (op : Op) : InPhase advance post start (system.begin op) (start op) :=
  ⟨rfl, hobeys op⟩

theorem InPhase.exec {call : Call}
    {next : Answer call → Prog Call Answer α}
    (hphase : InPhase advance post start thread phase)
    (hprog : thread.prog = .call call next) (answer : Answer call) :
    ∃ after, advance phase call answer = some after ∧
      InPhase advance post start
        (thread.advance call answer (next answer)) after := by
  obtain ⟨htrack, hobeys⟩ := hphase
  rw [hprog] at hobeys
  obtain ⟨after, hadvance, hrest⟩ := hobeys answer
  refine ⟨after, hadvance, ?_, hrest⟩
  show Prog.track advance (start thread.op)
    (thread.log ++ [⟨call, answer⟩]) = some after
  rw [Prog.track_snoc htrack, hadvance]

theorem InPhase.returned {value : α}
    (hphase : InPhase advance post start thread phase)
    (hprog : thread.prog = .ret value) : post thread.op phase value := by
  have hobeys := hphase.2
  rw [hprog] at hobeys
  exact hobeys

end InPhase

/-! ## Steps -/

variable [DecidableEq Call]

def step (system : ThreadSystem World Op Env Call Answer α)
    (state : Interleaving World Op Call Answer α) :
    Move Op Env Call Answer → Option (Interleaving World Op Call Answer α)
  | .enter op =>
      some { state with threads := state.threads ++ [system.begin op] }
  | .exec index call answer => do
      let thread ← state.threads[index]?
      let prog ← thread.prog.resume call answer
      let world ← system.effect state.world call answer
      return {
        world := world
        threads := state.threads.set index (thread.advance call answer prog)
        trace := (index, ⟨call, answer⟩) :: state.trace }
  | .disturb event => do
      let world ← system.disturb state.world event
      return { state with world := world }

/-- What a step can do. -/
inductive Stepped (system : ThreadSystem World Op Env Call Answer α)
    (state : Interleaving World Op Call Answer α) :
    Move Op Env Call Answer → Interleaving World Op Call Answer α → Prop
  | enter (op : Op) :
      Stepped system state (.enter op)
        { state with threads := state.threads ++ [system.begin op] }
  | exec {index : Nat} {call : Call} {answer : Answer call}
      {thread : Thread Op Call Answer α} {world : World}
      {next : Answer call → Prog Call Answer α}
      (hthread : state.threads[index]? = some thread)
      (hprog : thread.prog = .call call next)
      (heffect : system.effect state.world call answer = some world) :
      Stepped system state (.exec index call answer)
        { world := world
          threads := state.threads.set index
            (thread.advance call answer (next answer))
          trace := (index, ⟨call, answer⟩) :: state.trace }
  | disturb {event : Env} {world : World}
      (hdisturb : system.disturb state.world event = some world) :
      Stepped system state (.disturb event) { state with world := world }

variable {system : ThreadSystem World Op Env Call Answer α}
  {state next : Interleaving World Op Call Answer α}
  {move : Move Op Env Call Answer}

theorem stepped_of_step (hstep : system.step state move = some next) :
    Stepped system state move next := by
  cases move with
  | enter op =>
      cases hstep
      exact .enter op
  | exec index call answer =>
      simp only [step, Option.bind_eq_bind, Option.bind_eq_some_iff,
        Option.pure_def, Option.some.injEq] at hstep
      obtain ⟨thread, hthread, prog, hresume, world, heffect, rfl⟩ := hstep
      obtain ⟨rest, hprog, rfl⟩ := Prog.resume_eq_some hresume
      exact .exec hthread hprog heffect
  | disturb event =>
      simp only [step, Option.bind_eq_bind, Option.bind_eq_some_iff,
        Option.pure_def, Option.some.injEq] at hstep
      obtain ⟨world, hdisturb, rfl⟩ := hstep
      exact .disturb hdisturb

/-! ## Facts about each thread -/

/-- What holds of every thread when it starts, and is kept by its own calls,
holds of all threads. -/
theorem forall_threads {good : Thread Op Call Answer α → Prop}
    (hbegin : ∀ op, good (system.begin op))
    (hkeep : ∀ thread call next, good thread →
      thread.prog = .call call next →
        ∀ answer, good (thread.advance call answer (next answer)))
    (hstep : system.step state move = some next)
    (hgood : ∀ thread ∈ state.threads, good thread) :
    ∀ thread ∈ next.threads, good thread := by
  cases stepped_of_step hstep with
  | enter op =>
      intro thread hthread
      rcases List.mem_append.mp hthread with hold | hnew
      · exact hgood thread hold
      · rw [List.mem_singleton.mp hnew]
        exact hbegin op
  | exec hthread hprog heffect =>
      intro other hother
      rcases List.mem_or_eq_of_mem_set hother with hold | rfl
      · exact hgood other hold
      · exact hkeep _ _ _ (hgood _ (List.mem_of_getElem? hthread)) hprog _
  | disturb hdisturb => exact hgood

theorem faithful_step (hstep : system.step state move = some next)
    (hstate : ∀ thread ∈ state.threads, system.Faithful thread) :
    ∀ thread ∈ next.threads, system.Faithful thread :=
  forall_threads Faithful.begin
    (fun _ _ _ hthread hprog answer => hthread.advance hprog answer)
    hstep hstate

/-! ## The phases of all threads -/

section Phases

variable {Phase : Type}
  {advance : Phase → (call : Call) → Answer call → Option Phase}
  {post : Op → Phase → α → Prop} {start : Op → Phase}

/-- What a step does to the world and to the phases of the threads. -/
inductive PhaseStep (system : ThreadSystem World Op Env Call Answer α)
    (advance : Phase → (call : Call) → Answer call → Option Phase)
    (start : Op → Phase) (world : World) (phases : List Phase) :
    Move Op Env Call Answer → World → List Phase → Prop
  | enter (op : Op) :
      PhaseStep system advance start world phases (.enter op) world
        (phases ++ [start op])
  | exec {index : Nat} {call : Call} {answer : Answer call}
      {phase next : Phase} {after : World}
      (hphase : phases[index]? = some phase)
      (hadvance : advance phase call answer = some next)
      (heffect : system.effect world call answer = some after) :
      PhaseStep system advance start world phases (.exec index call answer)
        after (phases.set index next)
  | disturb {event : Env} {after : World}
      (hdisturb : system.disturb world event = some after) :
      PhaseStep system advance start world phases (.disturb event) after
        phases

def InPhases (advance : Phase → (call : Call) → Answer call → Option Phase)
    (post : Op → Phase → α → Prop) (start : Op → Phase)
    (state : Interleaving World Op Call Answer α) (phases : List Phase) :
    Prop :=
  List.Forall₂ (InPhase advance post start) state.threads phases

theorem InPhases.step {phases : List Phase}
    (hobeys : ∀ op,
      Prog.Obeys advance (post op) (start op) (system.program op))
    (hphases : InPhases advance post start state phases)
    (hstep : system.step state move = some next) :
    ∃ after, InPhases advance post start next after ∧
      PhaseStep system advance start state.world phases move next.world
        after := by
  cases stepped_of_step hstep with
  | enter op =>
      refine ⟨phases ++ [start op], ?_, .enter op⟩
      exact List.rel_append hphases (.cons (InPhase.begin hobeys op) .nil)
  | @exec index call answer thread world rest hthread hprog heffect =>
      obtain ⟨phase, hphase, hin⟩ := forall₂_getElem? hphases hthread
      obtain ⟨after, hadvance, hafter⟩ := hin.exec hprog answer
      exact ⟨phases.set index after, forall₂_set hphases hafter,
        .exec hphase hadvance heffect⟩
  | disturb hdisturb => exact ⟨phases, hphases, .disturb hdisturb⟩

omit [DecidableEq Call] in
theorem InPhases.returned {phases : List Phase} {index : Nat}
    {thread : Thread Op Call Answer α} {value : α}
    (hphases : InPhases advance post start state phases)
    (hthread : state.threads[index]? = some thread)
    (hprog : thread.prog = .ret value) :
    ∃ phase, phases[index]? = some phase ∧ post thread.op phase value := by
  obtain ⟨phase, hphase, hin⟩ := forall₂_getElem? hphases hthread
  exact ⟨phase, hphase, hin.returned hprog⟩

omit [DecidableEq Call] in
/-- At rest, every phase belongs to a thread that has returned. -/
theorem InPhases.quiescent {phases : List Phase} {phase : Phase}
    (hphases : InPhases advance post start state phases)
    (hquiet : state.Quiescent) (hphase : phase ∈ phases) :
    ∃ op value, post op phase value := by
  obtain ⟨index, hindex⟩ := List.mem_iff_getElem?.mp hphase
  obtain ⟨thread, hthread, hin⟩ := forall₂_getElem?
    (List.Forall₂.flip (R := fun phase thread =>
      InPhase advance post start thread phase) hphases) hindex
  obtain ⟨value, hprog⟩ := hquiet thread (List.mem_of_getElem? hthread)
  exact ⟨thread.op, value, hin.returned hprog⟩

end Phases

end ThreadSystem

/-! ## Sums over the threads -/

section Sums

variable {T M : Type} [AddCommMonoid M]

theorem sum_map_set (weight : T → M) {threads : List T} {index : Nat}
    {thread : T}
    (hthread : threads[index]? = some thread) (other : T) :
    ((threads.set index other).map weight).sum + weight thread =
      (threads.map weight).sum + weight other := by
  induction threads generalizing index with
  | nil => simp at hthread
  | cons first rest ih =>
      cases index with
      | zero =>
          simp only [List.getElem?_cons_zero, Option.some.injEq] at hthread
          subst hthread
          simp only [List.set_cons_zero, List.map_cons, List.sum_cons]
          rw [add_right_comm, add_comm (weight other)]
          exact add_right_comm _ _ _
      | succ index =>
          have hrest : rest[index]? = some thread := by
            simpa using hthread
          simp only [List.set_cons_succ, List.map_cons, List.sum_cons,
            add_assoc, ih hrest]

end Sums

end MuduoChat
