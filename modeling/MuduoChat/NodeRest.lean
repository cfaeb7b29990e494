import MuduoChat.ChatNodes
import MuduoChat.RestingRuns
import MuduoChat.TokenRevocation
import Mathlib.Algebra.BigOperators.Group.Finset.Basic
import Mathlib.Algebra.Order.Group.Multiset
import Mathlib.Tactic.Abel

/-!
# A node comes to rest

A queued task becomes a program, a program makes its calls one by one, the
callback it returns waits in a loop, and a callback may queue a task that
follows up.  A task that follows up returns no callback, so that this chain
has an end: whatever the answers, and in whatever order workers and loops are
scheduled, a node that receives nothing more soon has nothing more to do.

Nor does it get stuck on the way.  As long as something is queued, running or
waiting, some worker or some loop can go on.
-/

namespace MuduoChat

namespace ChatNode

/-! ## The work of a node -/

inductive Work where
  | queued (task : Task)
  | running (prog : NodeProg (Option Callback))
  | waiting (callback : Callback)

/-- What is left of an item after one step, or comes out of it. -/
inductive Lighter (config : ServerConfig) : Work → Work → Prop
  | begun (task : Task) :
      Lighter config
        (.running ((task.program config.nodeId).translate answerRepository))
        (.queued task)
  | called (call : NodeCall)
      (next : call.Answer → NodeProg (Option Callback))
      (answer : call.Answer) :
      Lighter config (.running (next answer)) (.running (.call call next))
  | returned (callback : Callback) :
      Lighter config (.waiting callback) (.running (.ret (some callback)))
  | followed (callback : Callback) (task : Task) (htask : task.IsFollowUp) :
      Lighter config (.queued task) (.waiting callback)

/-- A program that returns no callback. -/
def Silent (prog : NodeProg (Option Callback)) : Prop :=
  prog.Ensures fun _ callback => callback = none

theorem silent_of_isFollowUp {task : Task} (htask : task.IsFollowUp)
    (nodeId : String) :
    Silent ((task.program nodeId).translate answerRepository) := by
  have hsilent {α : Type} (prog : NodeProg α) :
      Silent (prog >>= fun _ => .ret none) := by
    have hprog : prog.Ensures fun _ _ => True := fun _ _ _ => trivial
    exact hprog.bind fun _ _ _ => Prog.ensures_ret.mpr rfl
  cases task with
  | getMessage recipient msgId =>
      show Silent ((repository (.getMessage msgId) >>=
        fun _ => pure none).translate answerRepository)
      rw [Prog.translate_request_bind]
      exact hsilent _
  | markMessagesDelivered uid =>
      show Silent ((repository (.markMessagesDelivered uid) >>=
        fun _ => pure none).translate answerRepository)
      rw [Prog.translate_request_bind]
      exact hsilent _
  | _ => exact htask.elim

theorem acc_running_of_silent (config : ServerConfig)
    {prog : NodeProg (Option Callback)} (hprog : Silent prog) :
    Acc (Lighter config) (.running prog) := by
  induction prog with
  | ret callback =>
      have hnone : callback = none := Prog.ensures_ret.mp hprog
      subst hnone
      constructor
      intro item hlighter
      cases hlighter
  | call request next ih =>
      constructor
      intro item hlighter
      cases hlighter with
      | called _ _ answer =>
          exact ih answer (Prog.ensures_call.mp hprog answer)

theorem acc_waiting (config : ServerConfig) (callback : Callback) :
    Acc (Lighter config) (.waiting callback) := by
  constructor
  intro item hlighter
  cases hlighter with
  | followed _ task htask =>
      constructor
      intro item hlighter
      cases hlighter with
      | begun =>
          exact acc_running_of_silent config
            (silent_of_isFollowUp htask config.nodeId)

theorem acc_running (config : ServerConfig)
    (prog : NodeProg (Option Callback)) :
    Acc (Lighter config) (.running prog) := by
  induction prog with
  | ret callback =>
      constructor
      intro item hlighter
      cases hlighter with
      | returned callback => exact acc_waiting config callback
  | call request next ih =>
      constructor
      intro item hlighter
      cases hlighter with
      | called _ _ answer => exact ih answer

theorem wellFounded_lighter (config : ServerConfig) :
    WellFounded (Lighter config) := by
  constructor
  intro item
  cases item with
  | queued task =>
      constructor
      intro item hlighter
      cases hlighter with
      | begun => exact acc_running config _
  | running prog => exact acc_running config prog
  | waiting callback => exact acc_waiting config callback

/-! ## What is pending -/

def queuedWork (queue : List PoolTask) : Multiset Work :=
  ↑(queue.map fun item => Work.queued item.task)

def runningWork (threads : List NodeThread) : Multiset Work :=
  ↑(threads.map fun thread => Work.running thread.prog)

def waitingWork (functors : List Functor) : Multiset Work :=
  ↑(functors.map fun functor => Work.waiting functor.callback)

/-- `items` is all the work of a node whose functors are in finitely many
loops. -/
def Pending (node : ChatNode) (items : Multiset Work) : Prop :=
  ∃ loops : Finset Nat,
    (∀ loop, loop ∉ loops → node.server.loops loop = []) ∧
      items = queuedWork node.server.queue + runningWork node.threads +
        ∑ loop ∈ loops, waitingWork (node.server.loops loop)

@[simp] theorem queuedWork_append (first second : List PoolTask) :
    queuedWork (first ++ second) =
      queuedWork first + queuedWork second := by
  simp [queuedWork]

@[simp] theorem queuedWork_cons (item : PoolTask) (rest : List PoolTask) :
    queuedWork (item :: rest) = {.queued item.task} + queuedWork rest := rfl

@[simp] theorem runningWork_append (first second : List NodeThread) :
    runningWork (first ++ second) =
      runningWork first + runningWork second := by
  simp [runningWork]

@[simp] theorem runningWork_cons (thread : NodeThread)
    (rest : List NodeThread) :
    runningWork (thread :: rest) =
      {.running thread.prog} + runningWork rest := rfl

@[simp] theorem waitingWork_append (first second : List Functor) :
    waitingWork (first ++ second) =
      waitingWork first + waitingWork second := by
  simp [waitingWork]

@[simp] theorem waitingWork_cons (functor : Functor)
    (rest : List Functor) :
    waitingWork (functor :: rest) =
      {.waiting functor.callback} + waitingWork rest := rfl

@[simp] theorem work_nil : queuedWork [] = 0 ∧ runningWork [] = 0 ∧
    waitingWork [] = 0 :=
  ⟨rfl, rfl, rfl⟩

/-- The work of the loops after one of them has changed. -/
theorem sum_waitingWork_update {loops : Nat → List Functor}
    {nonempty : Finset Nat}
    (hloops : ∀ loop, loop ∉ nonempty → loops loop = []) (loop : Nat)
    (functors : List Functor) :
    ∑ other ∈ insert loop nonempty,
        waitingWork (Function.update loops loop functors other) +
      waitingWork (loops loop) =
        ∑ other ∈ nonempty, waitingWork (loops other) +
          waitingWork functors := by
  have hothers : ∑ other ∈ nonempty.erase loop,
      waitingWork (Function.update loops loop functors other) =
        ∑ other ∈ nonempty.erase loop, waitingWork (loops other) := by
    apply Finset.sum_congr rfl
    intro other hother
    rw [Function.update_of_ne (Finset.ne_of_mem_erase hother)]
  have hinsert : insert loop nonempty =
      insert loop (nonempty.erase loop) := by
    ext other
    by_cases hother : other = loop <;> simp [hother]
  have hbefore : ∑ other ∈ nonempty, waitingWork (loops other) =
      waitingWork (loops loop) +
        ∑ other ∈ nonempty.erase loop, waitingWork (loops other) := by
    by_cases hloop : loop ∈ nonempty
    · exact (Finset.add_sum_erase _ _ hloop).symm
    · rw [hloops loop hloop, Finset.erase_eq_of_notMem hloop]
      simp [waitingWork]
  rw [hinsert, Finset.sum_insert (Finset.notMem_erase loop nonempty),
    hothers, hbefore, Function.update_self]
  abel

/-! ## Steps of work -/

/-- The steps a node takes by itself. -/
def Action.IsWork : Action → Prop
  | .start | .exec .. | .finish _ | .callback .. => True
  | _ => False

section Work

variable {config : ServerConfig} {node next : ChatNode}

theorem runningWork_set {threads : List NodeThread} {index : Nat}
    {thread : NodeThread} (hthread : threads[index]? = some thread)
    (other : NodeThread) :
    runningWork (threads.set index other) + {.running thread.prog} =
      runningWork threads + {.running other.prog} := by
  obtain ⟨before, after, hthreads, hset, _⟩ :=
    exists_around_getElem? hthread
  rw [hset, hthreads]
  simp only [runningWork_append, runningWork_cons]
  abel

theorem runningWork_eraseIdx {threads : List NodeThread} {index : Nat}
    {thread : NodeThread} (hthread : threads[index]? = some thread) :
    runningWork (threads.eraseIdx index) + {.running thread.prog} =
      runningWork threads := by
  obtain ⟨before, after, hthreads, _, herase⟩ :=
    exists_around_getElem? hthread
  rw [herase, hthreads]
  simp only [runningWork_append, runningWork_cons]
  abel

theorem pending_start {item : PoolTask} {rest : List PoolTask}
    {items : Multiset Work} (hpending : Pending node items)
    (hqueue : node.server.queue = item :: rest) :
    ∃ left, Pending { node with
        server := { node.server with queue := rest }
        threads := node.threads ++ [(system config).begin item] } left ∧
      Relation.CutExpand (Lighter config) left items := by
  obtain ⟨loops, hloops, rfl⟩ := hpending
  refine ⟨_, ⟨loops, hloops, rfl⟩,
    {.running ((system config).begin item).prog}, .queued item.task, ?_, ?_⟩
  · intro other hother
    rw [Multiset.mem_singleton.mp hother]
    exact .begun item.task
  · simp only [hqueue, queuedWork_cons, runningWork_append,
      runningWork_cons, work_nil, add_zero]
    abel

theorem pending_exec {index : Nat} {call : NodeCall} {answer : call.Answer}
    {thread : NodeThread} (world : NodeWorld)
    {following : call.Answer → NodeProg (Option Callback)}
    {items : Multiset Work} (hpending : Pending node items)
    (hthread : node.threads[index]? = some thread)
    (hprog : thread.prog = .call call following) :
    ∃ left, Pending { node with
        world := world
        threads := node.threads.set index
          (thread.advance call answer (following answer)) } left ∧
      Relation.CutExpand (Lighter config) left items := by
  obtain ⟨loops, hloops, rfl⟩ := hpending
  have hset := runningWork_set hthread
    (thread.advance call answer (following answer))
  rw [hprog] at hset
  refine ⟨_, ⟨loops, hloops, rfl⟩, {.running (following answer)},
    .running (.call call following), ?_, ?_⟩
  · intro other hother
    rw [Multiset.mem_singleton.mp hother]
    exact .called call following answer
  · rw [add_right_comm, add_assoc (queuedWork _), hset]
    simp only [Thread.advance]
    abel

theorem pending_finish {index : Nat} {thread : NodeThread}
    {callback : Option Callback} {items : Multiset Work}
    (hpending : Pending node items)
    (hthread : node.threads[index]? = some thread)
    (hprog : thread.prog = .ret callback) :
    ∃ left, Pending { node with
        server := node.server.queueInLoop config thread.op.request callback
        threads := node.threads.eraseIdx index
        finished := (thread.op, callback) :: node.finished } left ∧
      Relation.CutExpand (Lighter config) left items := by
  obtain ⟨loops, hloops, rfl⟩ := hpending
  have herase := runningWork_eraseIdx hthread
  rw [hprog] at herase
  cases callback with
  | none =>
      refine ⟨_, ⟨loops, hloops, rfl⟩, 0, .running (.ret none), by simp, ?_⟩
      rw [add_right_comm, add_assoc (queuedWork _), herase, add_zero]
      rfl
  | some callback =>
      have hsum := sum_waitingWork_update hloops
        (config.loopOf callback.conn)
        (node.server.loops (config.loopOf callback.conn) ++
          [⟨thread.op.request, callback⟩])
      rw [waitingWork_append, ← add_assoc, add_right_comm] at hsum
      have hwaiting := add_right_cancel hsum
      refine ⟨_, ⟨insert (config.loopOf callback.conn) loops, ?_, rfl⟩,
        {.waiting callback}, .running (.ret (some callback)), ?_, ?_⟩
      · intro loop hloop
        rw [Finset.mem_insert, not_or] at hloop
        simp only [ChatServer.queueInLoop, Function.update_of_ne hloop.1]
        exact hloops loop hloop.2
      · intro other hother
        rw [Multiset.mem_singleton.mp hother]
        exact .returned callback
      · rw [add_right_comm, add_assoc (queuedWork _), herase]
        simp only [ChatServer.queueInLoop]
        rw [hwaiting, ← add_assoc]
        rfl

theorem pending_callback {loop : Nat} (now : Nat) {functor : Functor}
    {rest : List Functor} {items : Multiset Work}
    (hpending : Pending node items)
    (hloop : node.server.loops loop = functor :: rest) :
    ∃ left, Pending (node.afterCallback loop now functor rest) left ∧
      Relation.CutExpand (Lighter config) left items := by
  obtain ⟨loops, hloops, rfl⟩ := hpending
  obtain ⟨_, hafter, tasks, hqueue, hfollow⟩ :=
    afterCallback_frame node loop now functor rest
  have hsum := sum_waitingWork_update hloops loop rest
  rw [hloop, waitingWork_cons, add_comm {_}, ← add_assoc,
    add_right_comm] at hsum
  have hwaiting := add_right_cancel hsum
  refine ⟨_, ⟨insert loop loops, ?_, rfl⟩,
    ↑(tasks.map Work.queued), .waiting functor.callback, ?_, ?_⟩
  · intro other hother
    rw [Finset.mem_insert, not_or] at hother
    rw [hafter, Function.update_of_ne hother.1]
    exact hloops other hother.2
  · intro other hother
    obtain ⟨task, htask, rfl⟩ := List.mem_map.mp (Multiset.mem_coe.mp hother)
    exact .followed functor.callback task (hfollow task htask)
  · have hqueued : queuedWork (tasks.map (PoolTask.mk functor.request)) =
        ↑(tasks.map Work.queued) := by
      rw [queuedWork, List.map_map]
      rfl
    rw [hafter, hqueue, queuedWork_append, hqueued, add_assoc, hwaiting]
    show _ + runningWork node.threads + _ = _
    abel

/-- Every step of work replaces a piece of work by lighter ones. -/
theorem pending_step {items : Multiset Work} (hpending : Pending node items)
    (hleads : Runs.Leads (step config) Action.IsWork node next) :
    ∃ left, Pending next left ∧
      Relation.CutExpand (Lighter config) left items := by
  obtain ⟨action, hwork, hstep⟩ := hleads
  cases steps_of_step hstep with
  | start item rest hqueue => exact pending_start hpending hqueue
  | exec hthread hprog heffect => exact pending_exec _ hpending hthread hprog
  | finish hthread hprog => exact pending_finish hpending hthread hprog
  | callback loop now functor rest hloop =>
      exact pending_callback now hpending hloop
  | _ => exact hwork.elim

/-! ## Nothing gets stuck -/

theorem exists_token (drawn : List String) :
    ∃ token, token ∉ drawn ∧ NulFree token := by
  have hinjective : Function.Injective fun count : ℕ =>
      String.ofList (List.replicate count 'a') := by
    intro first second hsame
    have hlength := congrArg (fun text => text.toList.length) hsame
    simpa using hlength
  obtain ⟨token, ⟨count, rfl⟩, htoken⟩ :=
    (Set.infinite_range_of_injective hinjective).exists_notMem_finset
      drawn.toFinset
  exact ⟨_, by simpa using htoken, by simp [NulFree]⟩

/-- Whatever a thread asks, some answer is possible; a statement or a command
may always fail. -/
theorem exists_effect (world : NodeWorld) (call : NodeCall) :
    ∃ answer after, world.effect call answer = some after := by
  cases call with
  | sql call =>
      cases call with
      | getConnection => exact ⟨false, world, rfl⟩
      | query statement => exact ⟨⟨false, none⟩, world, rfl⟩
      | returnConnection | closeConnection => exact ⟨(), world, rfl⟩
  | session call =>
      cases call with
      | redis call =>
          cases call with
          | getConnection => exact ⟨false, world, rfl⟩
          | time => exact ⟨(0 : Int), world, rfl⟩
          | command command => exact ⟨⟨false, none⟩, world, rfl⟩
      | repository call =>
          cases call with
          | generateToken =>
              obtain ⟨token, hfresh, hnul⟩ := exists_token world.redis.drawn
              have htoken : ¬ (token ∈ world.redis.drawn ∨
                  ¬ NulFree token) := by
                rw [not_or, not_not]
                exact ⟨hfresh, hnul⟩
              refine ⟨token, { world with redis := { world.redis with
                drawn := token :: world.redis.drawn } }, ?_⟩
              simp only [NodeWorld.effect, RedisWorld.effect, if_neg htoken]
              rfl
          | getUserInfo | getSessionByToken | getMessage | getRoomByName =>
              exact ⟨none, world, rfl⟩
          | getFriendList | getPendingRequests | getUndeliveredMessages =>
              exact ⟨[], world, rfl⟩
          | storeMessage | createRoom | time | mktime =>
              exact ⟨(0 : Int), world, rfl⟩
          | _ => exact ⟨false, world, rfl⟩

theorem exists_leads {action : Action}
    (henabled : (step config node action).isSome = true)
    (hwork : action.IsWork) :
    ∃ next, Runs.Leads (step config) Action.IsWork node next := by
  obtain ⟨next, hstep⟩ := Option.isSome_iff_exists.mp henabled
  exact ⟨next, action, hwork, hstep⟩

theorem exists_step_of_thread {thread : NodeThread}
    {rest : List NodeThread} (hthreads : node.threads = thread :: rest) :
    ∃ next, Runs.Leads (step config) Action.IsWork node next := by
  have hthread : node.threads[0]? = some thread := by simp [hthreads]
  obtain ⟨item, log, prog⟩ := thread
  cases prog with
  | ret callback =>
      have henabled : (step config node (.finish 0)).isSome = true := by
        rw [step, finishTask, hthread]
        rfl
      exact exists_leads henabled trivial
  | call call following =>
      obtain ⟨answer, world, heffect⟩ := exists_effect node.world call
      have hresume : (Prog.call call following).resume call answer =
          some (following answer) := by
        simp [Prog.resume]
      have hworld : (system config).effect node.world call answer =
          some world := heffect
      have henabled : (step config node (.exec 0 call answer)).isSome =
          true := by
        simp only [step, makeCall, hthread, Option.bind_eq_bind,
          Option.bind_some, hresume, hworld]
        rfl
      exact exists_leads henabled trivial

/-- While there is something to do, a worker or a loop can do it. -/
theorem quiescent_of_resting (hthreads : 0 < config.threads)
    (hresting : ∀ next, ¬ Runs.Leads (step config) Action.IsWork node next) :
    node.Quiescent := by
  have hidle : node.threads = [] := by
    cases hlist : node.threads with
    | nil => rfl
    | cons thread rest =>
        obtain ⟨next, hleads⟩ := exists_step_of_thread hlist
        exact (hresting next hleads).elim
  refine ⟨?_, hidle, ?_⟩
  · cases hqueue : node.server.queue with
    | nil => rfl
    | cons item rest =>
        have henabled : (step config node .start).isSome = true := by
          rw [step, startTask, hqueue, hidle]
          simp [hthreads]
        obtain ⟨next, hleads⟩ := exists_leads henabled trivial
        exact (hresting next hleads).elim
  · intro loop
    cases hloop : node.server.loops loop with
    | nil => rfl
    | cons functor rest =>
        have henabled : (step config node (.callback loop 0)).isSome =
            true := by
          rw [step, loopRound, hloop]
          rfl
        obtain ⟨next, hleads⟩ := exists_leads henabled trivial
        exact (hresting next hleads).elim

/-! ## Coming to rest -/

theorem pending_start_node (world : NodeWorld) :
    Pending { world := world } 0 :=
  ⟨∅, fun _ _ => rfl, rfl⟩

/-- What comes from outside adds to the work, but never without end. -/
theorem pending_outside {action : Action} {items : Multiset Work}
    (hpending : Pending node items)
    (hstep : step config node action = some next) :
    ∃ later, Pending next later := by
  by_cases hwork : action.IsWork
  · obtain ⟨left, hleft, _⟩ := pending_step hpending ⟨action, hwork, hstep⟩
    exact ⟨left, hleft⟩
  · obtain ⟨loops, hloops, _⟩ := hpending
    refine ⟨_, loops, ?_, rfl⟩
    cases steps_of_step hstep with
    | receive conn envelope =>
        intro loop hloop
        rw [loops_receive]
        exact hloops loop hloop
    | start | exec | finish | callback => exact (hwork trivial).elim
    | _ => exact hloops

/-- A node that receives nothing more finishes its work in any order of the
steps, and there is always an order that it can follow to the end. -/
theorem comes_to_rest (hthreads : 0 < config.threads) {world : NodeWorld}
    {actions : List Action}
    (hrun : Runs.runFrom (step config) { world := world } actions =
      some node) :
    (¬ ∃ states : ℕ → ChatNode, states 0 = node ∧ ∀ count,
        Runs.Leads (step config) Action.IsWork (states count)
          (states (count + 1))) ∧
      ∃ work final, (∀ action ∈ work, action.IsWork) ∧
        Runs.runFrom (step config) node work = some final ∧
          final.Quiescent := by
  have hpending : ∃ items, Pending node items := by
    refine @Runs.invariant_of_run _ _ _
      (fun node => ∃ items, Pending node items) _ _ _
      ⟨0, pending_start_node world⟩ ?_ hrun
    rintro state action next hstep ⟨items, hitems⟩
    exact pending_outside hitems hstep
  obtain ⟨items, hitems⟩ := hpending
  have hacc := Runs.acc_of_cutExpand (wellFounded_lighter config)
    (fun _ _ _ hpending hleads => pending_step hpending hleads) hitems
  obtain ⟨work, final, hwork, hfinal, hresting⟩ :=
    Runs.exists_rest_of_acc hacc
  exact ⟨Runs.not_leads_forever hacc, work, final, hwork, hfinal,
    quiescent_of_resting hthreads hresting⟩

/-- A node that has just received a login works it off. -/
theorem comes_to_rest_annLogin : ∃ node,
    Runs.runFrom (step twoWorkers)
        { world := ⟨annRegistered, emptySeed.world⟩ }
        (annLogin.take 2) = some node ∧
      node.threads.length = 1 ∧
      ∃ work final, (∀ action ∈ work, action.IsWork) ∧
        Runs.runFrom (step twoWorkers) node work = some final ∧
          final.Quiescent := by
  have hrun : ∃ node, Runs.runFrom (step twoWorkers)
        { world := ⟨annRegistered, emptySeed.world⟩ } (annLogin.take 2) =
      some node ∧ node.threads.length = 1 := ⟨_, rfl, rfl⟩
  obtain ⟨node, hrun, hone⟩ := hrun
  exact ⟨node, hrun, hone, (comes_to_rest (by decide) hrun).2⟩

end Work

end ChatNode

end MuduoChat
