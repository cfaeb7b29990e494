import MuduoChat.LabelledRuns
import Mathlib.Data.List.Induction
import Mathlib.Data.List.Nodup
import Mathlib.Data.List.TakeWhile
import Mathlib.Logic.Function.Basic

/-!
# The thread pool

`ThreadPool` of `thread_pool.h` with any number of workers.  What happens
under its mutex is one action: `enqueue`, one turn of a worker's loop, and the
setting of `stop_` in the destructor.  Between its turns a worker waits for
the condition variable, from which it may be woken at any time and for no
reason, or runs the task it has taken.

Two logs that no worker reads record which worker took which task, and which
task it has run to its end.
-/

namespace MuduoChat

structure ThreadPool (Task : Type*) where
  tasks : List Task
  stop : Bool

namespace ThreadPool

variable {Task : Type*}

/-- The number of workers that the constructor starts. -/
def workerCount (size hardwareConcurrency : BitVec 32) : ℕ :=
  if size.toInt ≤ 0 then
    if hardwareConcurrency.toInt ≤ 0 then 4 else hardwareConcurrency.toNat
  else size.toNat

theorem workerCount_pos (size hardwareConcurrency : BitVec 32) :
    0 < workerCount size hardwareConcurrency := by
  have hpos : ∀ count : BitVec 32, ¬ count.toInt ≤ 0 → 0 < count.toNat := by
    intro count hcount
    rw [BitVec.toInt_eq_toNat_cond] at hcount
    split at hcount <;> omega
  unfold workerCount
  split
  · split
    · decide
    · exact hpos _ ‹_›
  · exact hpos _ ‹_›

def empty : ThreadPool Task :=
  ⟨[], false⟩

def enqueue (pool : ThreadPool Task) (task : Task) : ThreadPool Task :=
  { pool with tasks := pool.tasks ++ [task] }

/-- What a worker does after it has held the mutex. -/
inductive Turn (Task : Type*) where
  | wait
  | leave
  | run (task : Task)

/-- One evaluation of the wait condition, and what follows it under the
mutex. -/
def turn (pool : ThreadPool Task) : Turn Task × ThreadPool Task :=
  if hwait : !(pool.stop || !pool.tasks.isEmpty) then (.wait, pool)
  else if hleave : pool.stop && pool.tasks.isEmpty then (.leave, pool)
  else
    have hfront : pool.tasks ≠ [] := by
      intro hempty
      rw [hempty] at hwait hleave
      cases hstop : pool.stop <;> simp [hstop] at hwait hleave
    (.run (pool.tasks.head hfront), { pool with tasks := pool.tasks.tail })

theorem turn_eq (tasks : List Task) (stop : Bool) :
    turn ⟨tasks, stop⟩ =
      match tasks, stop with
      | [], false => (.wait, ⟨[], false⟩)
      | [], true => (.leave, ⟨[], true⟩)
      | task :: rest, stop => (.run task, ⟨rest, stop⟩) := by
  cases tasks with
  | nil => cases stop <;> rfl
  | cons task rest => cases stop <;> rfl

/-! ## The pool and its workers -/

inductive Worker (Task : Type*) where
  | ready
  | waiting
  | running (task : Task)
  | returned
  deriving DecidableEq

/-- The task a worker has taken and not run to its end. -/
def Worker.current : Worker Task → List Task
  | .running task => [task]
  | _ => []

structure State (Task : Type*) (workers : ℕ) where
  pool : ThreadPool Task
  worker : Fin workers → Worker Task
  taken : List (Fin workers × Task)
  finished : List (Fin workers × Task)

inductive Action (Task : Type*) (workers : ℕ) where
  | enqueue (task : Task)
  | turn (index : Fin workers)
  | wake (index : Fin workers)
  | finish (index : Fin workers)
  | stop

variable {workers : ℕ}

namespace State

def initial (workers : ℕ) : State Task workers :=
  ⟨empty, fun _ => .ready, [], []⟩

def setWorker (state : State Task workers) (index : Fin workers)
    (worker : Worker Task) : State Task workers :=
  { state with worker := Function.update state.worker index worker }

/-- The tasks of one worker in a log. -/
def tasksOf (log : List (Fin workers × Task)) (index : Fin workers) :
    List Task :=
  (log.filter fun entry => entry.1 = index).map Prod.snd

@[simp] theorem tasksOf_append (first second : List (Fin workers × Task))
    (index : Fin workers) :
    tasksOf (first ++ second) index =
      tasksOf first index ++ tasksOf second index := by
  simp [tasksOf]

@[simp] theorem tasksOf_singleton (index other : Fin workers) (task : Task) :
    tasksOf [(index, task)] other = if index = other then [task] else [] := by
  unfold tasksOf
  by_cases hindex : index = other <;> simp [hindex]

theorem tasksOf_concat_self (log : List (Fin workers × Task))
    (index : Fin workers) (task : Task) :
    tasksOf (log ++ [(index, task)]) index = tasksOf log index ++ [task] := by
  rw [tasksOf_append, tasksOf_singleton, if_pos rfl]

theorem tasksOf_concat_of_ne {index other : Fin workers}
    (hother : other ≠ index) (log : List (Fin workers × Task)) (task : Task) :
    tasksOf (log ++ [(index, task)]) other = tasksOf log other := by
  rw [tasksOf_append, tasksOf_singleton, if_neg (Ne.symm hother),
    List.append_nil]

@[simp] theorem setWorker_self (state : State Task workers)
    (index : Fin workers) (worker : Worker Task) :
    (state.setWorker index worker).worker index = worker := by
  simp [setWorker]

theorem setWorker_of_ne {index other : Fin workers} (hother : other ≠ index)
    (state : State Task workers) (worker : Worker Task) :
    (state.setWorker index worker).worker other = state.worker other := by
  simp [setWorker, hother]

end State

/-- A worker has its turn only when it is neither waiting nor running a task,
and the destructor is run once. -/
def step (state : State Task workers) :
    Action Task workers → Option (State Task workers)
  | .enqueue task => some { state with pool := state.pool.enqueue task }
  | .turn index =>
      match state.worker index with
      | .ready =>
          match state.pool.turn with
          | (.wait, _) => some (state.setWorker index .waiting)
          | (.leave, _) => some (state.setWorker index .returned)
          | (.run task, pool) =>
              some { state.setWorker index (.running task) with
                pool := pool, taken := state.taken ++ [(index, task)] }
      | _ => none
  | .wake index =>
      match state.worker index with
      | .waiting => some (state.setWorker index .ready)
      | _ => none
  | .finish index =>
      match state.worker index with
      | .running task =>
          some { state.setWorker index .ready with
            finished := state.finished ++ [(index, task)] }
      | _ => none
  | .stop =>
      if state.pool.stop then none
      else some { state with pool := { state.pool with stop := true } }

/-- What a step can do. -/
inductive Steps (state : State Task workers) :
    Action Task workers → State Task workers → Prop where
  | enqueue (task : Task) :
      Steps state (.enqueue task)
        { state with pool := state.pool.enqueue task }
  | wait (index : Fin workers) (hready : state.worker index = .ready) :
      Steps state (.turn index) (state.setWorker index .waiting)
  | leave (index : Fin workers) (hready : state.worker index = .ready)
      (hstop : state.pool.stop = true) (hempty : state.pool.tasks = []) :
      Steps state (.turn index) (state.setWorker index .returned)
  | take (index : Fin workers) (hready : state.worker index = .ready)
      (task : Task) (rest : List Task)
      (htasks : state.pool.tasks = task :: rest) :
      Steps state (.turn index)
        { state.setWorker index (.running task) with
          pool := { state.pool with tasks := rest }
          taken := state.taken ++ [(index, task)] }
  | wake (index : Fin workers) (hwaiting : state.worker index = .waiting) :
      Steps state (.wake index) (state.setWorker index .ready)
  | finish (index : Fin workers) (task : Task)
      (hrunning : state.worker index = .running task) :
      Steps state (.finish index)
        { state.setWorker index .ready with
          finished := state.finished ++ [(index, task)] }
  | stop (hrunning : state.pool.stop = false) :
      Steps state .stop
        { state with pool := { state.pool with stop := true } }

theorem step_cases {state next : State Task workers}
    {action : Action Task workers} (hstep : step state action = some next) :
    Steps state action next := by
  cases action with
  | enqueue task =>
      cases hstep
      exact .enqueue task
  | turn index =>
      simp only [step] at hstep
      split at hstep
      · rename_i hready
        obtain ⟨⟨tasks, stop⟩, worker, taken, finished⟩ := state
        rw [turn_eq] at hstep
        cases tasks with
        | nil =>
            cases stop with
            | false =>
                cases hstep
                exact .wait index hready
            | true =>
                cases hstep
                exact .leave index hready rfl rfl
        | cons task rest =>
            cases hstep
            exact .take index hready task rest rfl
      · cases hstep
  | wake index =>
      simp only [step] at hstep
      split at hstep
      · cases hstep
        exact .wake index ‹_›
      · cases hstep
  | finish index =>
      simp only [step] at hstep
      split at hstep
      · cases hstep
        exact .finish index _ ‹_›
      · cases hstep
  | stop =>
      simp only [step] at hstep
      split_ifs at hstep with hstop
      cases hstep
      exact .stop (by simpa using hstop)

/-! ## The tasks of a run -/

namespace Action

def task? : Action Task workers → Option Task
  | enqueue task => some task
  | _ => none

def isStop : Action Task workers → Bool
  | stop => true
  | _ => false

end Action

def enqueuedTasks (actions : List (Action Task workers)) : List Task :=
  actions.filterMap Action.task?

/-- The tasks that were enqueued before the destructor set `stop_`. -/
def acceptedTasks (actions : List (Action Task workers)) : List Task :=
  enqueuedTasks (actions.takeWhile fun action => !action.isStop)

section Tasks

variable {actions : List (Action Task workers)} {action : Action Task workers}

theorem enqueuedTasks_concat :
    enqueuedTasks (actions ++ [action]) =
      enqueuedTasks actions ++ action.task?.toList := by
  rw [enqueuedTasks, List.filterMap_append, enqueuedTasks]
  cases action <;> rfl

theorem acceptedTasks_prefix (actions : List (Action Task workers)) :
    acceptedTasks actions <+: enqueuedTasks actions :=
  (List.takeWhile_prefix _).filterMap _

/-- After the destructor nothing is accepted. -/
theorem acceptedTasks_concat_of_stopped
    (hstopped : actions.any Action.isStop = true) :
    acceptedTasks (actions ++ [action]) = acceptedTasks actions := by
  have hlength : (actions.takeWhile fun action => !action.isStop).length ≠
      actions.length := by
    intro hlength
    obtain ⟨other, hmem, hstop⟩ := List.any_eq_true.mp hstopped
    have hall : (actions.takeWhile fun action => !action.isStop) = actions :=
      (List.takeWhile_prefix _).eq_of_length hlength
    rw [← hall] at hmem
    have hrunning := List.mem_takeWhile_imp hmem
    rw [hstop] at hrunning
    cases hrunning
  rw [acceptedTasks, List.takeWhile_append, if_neg hlength, acceptedTasks]

end Tasks

/-! ## What a run keeps -/

/-- The tasks taken and those in the queue are the tasks enqueued, in their
order; a worker that has returned has seen the queue empty after the
destructor; a worker has run what it took, except for its current task. -/
structure Accounted (actions : List (Action Task workers))
    (state : State Task workers) : Prop where
  order : state.taken.map Prod.snd ++ state.pool.tasks =
    enqueuedTasks actions
  stopped : state.pool.stop = actions.any Action.isStop
  returned : ∀ index, state.worker index = .returned →
    state.pool.stop = true ∧
      acceptedTasks actions <+: state.taken.map Prod.snd
  runs : ∀ index, State.tasksOf state.taken index =
    State.tasksOf state.finished index ++ (state.worker index).current

theorem accounted_initial (workers : ℕ) :
    Accounted [] (State.initial workers : State Task workers) := by
  constructor
  · rfl
  · rfl
  · intro index hreturned
    cases hreturned
  · intro index
    rfl

section Step

variable {actions : List (Action Task workers)} {action : Action Task workers}
  {state next : State Task workers}

theorem Accounted.order_step (haccounted : Accounted actions state)
    (hstep : Steps state action next) :
    next.taken.map Prod.snd ++ next.pool.tasks =
      enqueuedTasks (actions ++ [action]) := by
  have horder := haccounted.order
  rw [enqueuedTasks_concat, ← horder]
  cases hstep with
  | enqueue task => simp [enqueue, Action.task?]
  | take index hready task rest htasks => simp [Action.task?, htasks]
  | wait | leave | wake | finish | stop =>
      simp [Action.task?, State.setWorker]

theorem Accounted.stopped_step (haccounted : Accounted actions state)
    (hstep : Steps state action next) :
    next.pool.stop = (actions ++ [action]).any Action.isStop := by
  have hstopped := haccounted.stopped
  rw [List.any_append, ← hstopped]
  cases hstep with
  | stop hrunning => simp [Action.isStop]
  | enqueue | wait | leave | take | wake | finish =>
      simp [Action.isStop, State.setWorker, enqueue]

/-- Whoever has returned before a step has seen the destructor, and nothing is
accepted any more. -/
theorem Accounted.returned_before (haccounted : Accounted actions state)
    {index : Fin workers} (hreturned : state.worker index = .returned) :
    state.pool.stop = true ∧ acceptedTasks (actions ++ [action]) <+:
      state.taken.map Prod.snd := by
  obtain ⟨hstop, haccepted⟩ := haccounted.returned index hreturned
  have hstopped := haccounted.stopped
  rw [hstop] at hstopped
  rw [acceptedTasks_concat_of_stopped hstopped.symm]
  exact ⟨hstop, haccepted⟩

theorem State.setWorker_returned {index other : Fin workers}
    {worker : Worker Task}
    (hreturned : (state.setWorker index worker).worker other = .returned) :
    worker = .returned ∨ state.worker other = .returned := by
  by_cases hsame : other = index
  · subst hsame
    exact .inl ((state.setWorker_self other worker).symm.trans hreturned)
  · rw [State.setWorker_of_ne hsame] at hreturned
    exact .inr hreturned

theorem Accounted.returned_step (haccounted : Accounted actions state)
    (hstep : Steps state action next) (index : Fin workers)
    (hreturned : next.worker index = .returned) :
    next.pool.stop = true ∧
      acceptedTasks (actions ++ [action]) <+: next.taken.map Prod.snd := by
  have horder := haccounted.order_step hstep
  cases hstep with
  | leave other hready hstop hempty =>
      refine ⟨hstop, ?_⟩
      have htaken : state.taken.map Prod.snd =
          enqueuedTasks (actions ++ [.turn other]) := by
        simpa [State.setWorker, hempty] using horder
      exact htaken ▸ acceptedTasks_prefix _
  | enqueue task => exact haccounted.returned_before hreturned
  | take other hready task rest htasks =>
      have hbefore : state.worker index = .returned :=
        (State.setWorker_returned hreturned).resolve_left (by simp)
      obtain ⟨hstop, haccepted⟩ : state.pool.stop = true ∧
          acceptedTasks (actions ++ [.turn other]) <+:
            state.taken.map Prod.snd := haccounted.returned_before hbefore
      refine ⟨hstop, haccepted.trans ?_⟩
      rw [List.map_append]
      exact List.prefix_append _ _
  | wait other | wake other | finish other =>
      have hbefore : state.worker index = .returned :=
        (State.setWorker_returned hreturned).resolve_left (by simp)
      exact haccounted.returned_before hbefore
  | stop hrunning =>
      have hstop := (haccounted.returned index hreturned).1
      rw [hrunning] at hstop
      cases hstop

/-- Only the worker that moves changes its tasks. -/
theorem Accounted.runs_step (haccounted : Accounted actions state)
    (hstep : Steps state action next) (index : Fin workers) :
    State.tasksOf next.taken index =
      State.tasksOf next.finished index ++ (next.worker index).current := by
  have hruns := haccounted.runs index
  cases hstep with
  | enqueue | stop => exact hruns
  | take other hready task rest htasks =>
      by_cases hsame : index = other
      · subst hsame
        rw [hready] at hruns
        simp only [State.tasksOf_concat_self, State.setWorker_self, hruns]
        simp [Worker.current, State.setWorker]
      · simp only [State.tasksOf_concat_of_ne hsame,
          State.setWorker_of_ne hsame, hruns]
        rfl
  | finish other task hrunning =>
      by_cases hsame : index = other
      · subst hsame
        rw [hrunning] at hruns
        simp only [State.tasksOf_concat_self, State.setWorker_self]
        simp [Worker.current, State.setWorker, hruns]
      · simp only [State.tasksOf_concat_of_ne hsame,
          State.setWorker_of_ne hsame]
        exact hruns
  | wait other hidle | leave other hidle | wake other hidle =>
      by_cases hsame : index = other
      · subst hsame
        rw [hidle] at hruns
        simp only [State.setWorker_self]
        exact hruns
      · simp only [State.setWorker_of_ne hsame]
        exact hruns

theorem Accounted.step (haccounted : Accounted actions state)
    (hstep : Steps state action next) :
    Accounted (actions ++ [action]) next :=
  ⟨haccounted.order_step hstep, haccounted.stopped_step hstep,
    haccounted.returned_step hstep, haccounted.runs_step hstep⟩

end Step

theorem accounted_of_run {actions : List (Action Task workers)}
    {state : State Task workers}
    (hrun : Runs.runFrom step (State.initial workers) actions = some state) :
    Accounted actions state := by
  induction actions using List.reverseRecOn generalizing state with
  | nil =>
      cases hrun
      exact accounted_initial workers
  | append_singleton actions action ih =>
      obtain ⟨before, hbefore, hstep⟩ := Runs.runFrom_concat_eq_some hrun
      exact (ih hbefore).step (step_cases hstep)

/-- Tasks are taken in the order in which they were enqueued, distinct tasks
by one worker each, and the worker runs what it takes; when all workers have
returned, whatever was enqueued before the destructor has been taken and run. -/
theorem tasks_run_once (hworkers : 0 < workers)
    {actions : List (Action Task workers)} {state : State Task workers}
    (hrun : Runs.runFrom step (State.initial workers) actions = some state) :
    state.taken.map Prod.snd ++ state.pool.tasks = enqueuedTasks actions ∧
      ((enqueuedTasks actions).Nodup → (state.taken.map Prod.snd).Nodup ∧
        ∀ first second task, (first, task) ∈ state.taken →
          (second, task) ∈ state.taken → first = second) ∧
      (∀ index, State.tasksOf state.taken index =
        State.tasksOf state.finished index ++
          (state.worker index).current) ∧
      ((∀ index, state.worker index = .returned) →
        acceptedTasks actions <+: state.taken.map Prod.snd ∧
          ∀ index, State.tasksOf state.taken index =
            State.tasksOf state.finished index) := by
  have haccounted := accounted_of_run hrun
  refine ⟨haccounted.order, ?_, haccounted.runs, ?_⟩
  · intro hdistinct
    have htaken : (state.taken.map Prod.snd).Nodup := by
      rw [← haccounted.order] at hdistinct
      exact hdistinct.of_append_left
    refine ⟨htaken, ?_⟩
    intro first second task hfirst hsecond
    have hsame := List.inj_on_of_nodup_map htaken hfirst hsecond rfl
    exact congrArg Prod.fst hsame
  · intro hreturned
    refine ⟨(haccounted.returned ⟨0, hworkers⟩ (hreturned _)).2, ?_⟩
    intro index
    have hruns := haccounted.runs index
    rw [hreturned index] at hruns
    exact hruns.trans (List.append_nil _)

/-- Two workers: one waits for the first task, the other finds the queue empty
after the destructor. -/
theorem tasks_run_once_two :
    ∃ state, Runs.runFrom step (State.initial 2 : State ℕ 2)
      [.turn 0, .enqueue 7, .enqueue 8, .wake 0, .turn 0, .stop, .turn 1,
        .finish 1, .turn 1, .finish 0, .turn 0] = some state ∧
      [7, 8] <+: state.taken.map Prod.snd ∧
      State.tasksOf state.taken 1 = State.tasksOf state.finished 1 := by
  refine ⟨_, rfl, ?_⟩
  obtain ⟨haccepted, hruns⟩ := (@tasks_run_once ℕ 2 (by decide)
    [.turn 0, .enqueue 7, .enqueue 8, .wake 0, .turn 0, .stop, .turn 1,
      .finish 1, .turn 1, .finish 0, .turn 0] _ rfl).2.2.2 (by decide)
  exact ⟨haccepted, hruns 1⟩

end ThreadPool

end MuduoChat
