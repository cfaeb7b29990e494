import MuduoChat.ChatNodes
import Mathlib.Data.List.Pairwise

/-!
# The order of work on a node

Tasks start in the order in which their requests arrived, and a loop runs its
callbacks in the order in which their tasks ended.  In between, the workers
are free to overtake each other.  Only if no worker takes a task while
another one runs a task that competes with it, do competing tasks end, and
their callbacks run, in the order of their requests.
-/

namespace MuduoChat

namespace ChatNode

variable {config : ServerConfig} {node next : ChatNode} {action : Action}

/-! ## Receptions -/

theorem queue_whenAuthenticated (server : ChatServer) (request : Nat)
    (conn : Conn) (task : String → Task) :
    (server.whenAuthenticated request conn task).queue = server.queue ∨
      ∃ queued, (server.whenAuthenticated request conn task).queue =
        server.queue ++ [⟨request, queued⟩] := by
  unfold ChatServer.whenAuthenticated
  split
  · exact .inr ⟨_, rfl⟩
  · exact .inl rfl

/-- An envelope leads to one task at most. -/
theorem queue_receive (server : ChatServer) (conn : Conn)
    (envelope : Envelope) :
    (server.receive conn envelope).queue = server.queue ∨
      ∃ task, (server.receive conn envelope).queue =
        server.queue ++ [⟨server.requests, task⟩] := by
  cases envelope with
  | loginReq req =>
      simp only [ChatServer.receive, ChatServer.onEnvelope,
        ChatServer.handleLogin]
      split_ifs
      · exact .inl rfl
      · exact .inr ⟨_, rfl⟩
      · exact .inl rfl
      · exact .inr ⟨_, rfl⟩
  | logoutReq req => exact .inr ⟨_, rfl⟩
  | registerReq req =>
      simp only [ChatServer.receive, ChatServer.onEnvelope,
        ChatServer.handleRegister]
      split_ifs
      · exact .inl rfl
      · exact .inr ⟨_, rfl⟩
  | heartbeat beat => exact .inl rfl
  | notSet => exact .inl rfl
  | _ =>
      exact queue_whenAuthenticated (server.arrived conn _) server.requests
        conn _

/-! ## Loops -/

/-- What a finished task has given to a loop. -/
def handedTo (config : ServerConfig) (loop : Nat)
    (entry : PoolTask × Option Callback) : Option Functor :=
  entry.2.bind fun callback =>
    if config.loopOf callback.conn = loop then
      some ⟨entry.1.request, callback⟩
    else none

def ofLoop (config : ServerConfig) (loop : Nat) (functor : Functor) : Bool :=
  decide (config.loopOf functor.callback.conn = loop)

/-- What a loop was given is what it has run and then what it has waiting. -/
def HandedOver (config : ServerConfig) (node : ChatNode) : Prop :=
  ∀ loop, node.finished.reverse.filterMap (handedTo config loop) =
    (node.ran.reverse.map RanCallback.functor).filter (ofLoop config loop) ++
      node.server.loops loop

theorem ofLoop_of_handedTo {loop : Nat} {functor : Functor}
    {entry : PoolTask × Option Callback}
    (hentry : handedTo config loop entry = some functor) :
    ofLoop config loop functor = true := by
  obtain ⟨callback, _, hfunctor⟩ := Option.bind_eq_some_iff.mp hentry
  split at hfunctor
  · rename_i hloop
    cases hfunctor
    exact decide_eq_true hloop
  · cases hfunctor

theorem HandedOver.ofLoop (hnode : HandedOver config node) {loop : Nat}
    {functor : Functor} (hfunctor : functor ∈ node.server.loops loop) :
    ofLoop config loop functor = true := by
  have hhanded : functor ∈
      node.finished.reverse.filterMap (handedTo config loop) := by
    rw [hnode loop]
    exact List.mem_append_right _ hfunctor
  obtain ⟨entry, _, hentry⟩ := List.mem_filterMap.mp hhanded
  exact ofLoop_of_handedTo hentry

theorem HandedOver.finish {index : Nat} {item : PoolTask}
    (hnode : HandedOver config node) (callback : Option Callback) :
    HandedOver config { node with
      server := node.server.queueInLoop config item.request callback
      threads := node.threads.eraseIdx index
      finished := (item, callback) :: node.finished } := by
  intro loop
  show ((item, callback) :: node.finished).reverse.filterMap
      (handedTo config loop) =
    (node.ran.reverse.map RanCallback.functor).filter
        (ChatNode.ofLoop config loop) ++
      (node.server.queueInLoop config item.request callback).loops loop
  rw [List.reverse_cons, List.filterMap_append, hnode loop,
    List.append_assoc]
  congr 1
  cases callback with
  | none => simp [handedTo, ChatServer.queueInLoop]
  | some done =>
      by_cases hloop : config.loopOf done.conn = loop
      · subst hloop
        simp [handedTo, ChatServer.queueInLoop]
      · simp [handedTo, ChatServer.queueInLoop, hloop,
          Function.update_of_ne (Ne.symm hloop)]

theorem HandedOver.callback {loop : Nat} {functor : Functor}
    {rest : List Functor} (hnode : HandedOver config node) (now : Nat)
    (hloop : node.server.loops loop = functor :: rest) :
    HandedOver config (node.afterCallback loop now functor rest) := by
  obtain ⟨_, hloops, _⟩ := afterCallback_frame node loop now functor rest
  have hmine : ChatNode.ofLoop config loop functor = true :=
    hnode.ofLoop (hloop ▸ List.mem_cons_self)
  intro other
  have hran : (node.afterCallback loop now functor rest).ran.reverse.map
      RanCallback.functor =
        node.ran.reverse.map RanCallback.functor ++ [functor] := by
    simp [afterCallback]
  rw [hloops, hran, List.filter_append, List.append_assoc]
  show node.finished.reverse.filterMap (handedTo config other) = _
  rw [hnode other]
  congr 1
  by_cases hother : other = loop
  · subst hother
    rw [Function.update_self, hloop, List.filter_singleton, hmine]
    rfl
  · have htheirs : ¬ ChatNode.ofLoop config other functor = true := by
      intro hsame
      exact hother ((of_decide_eq_true hsame).symm.trans
        (of_decide_eq_true hmine))
    rw [Function.update_of_ne hother, List.filter_singleton]
    simp [htheirs]

theorem HandedOver.step (hnode : HandedOver config node)
    (hstep : step config node action = some next) :
    HandedOver config next := by
  cases steps_of_step hstep with
  | receive conn envelope =>
      intro loop
      show _ = _ ++ (node.server.receive conn envelope).loops loop
      rw [loops_receive]
      exact hnode loop
  | finish hthread hprog => exact hnode.finish _
  | callback loop now functor rest hloop => exact hnode.callback now hloop
  | _ => exact hnode

theorem handedOver_start (config : ServerConfig) (world : NodeWorld) :
    HandedOver config { world := world } := fun _ => rfl

/-- A loop runs callbacks in the order in which their tasks ended. -/
theorem HandedOver.pairwise_ran {ordered : Functor → Functor → Prop}
    (hnode : HandedOver config node)
    (hfinished : node.finished.Pairwise fun later earlier =>
      ∀ last first, later.2 = some last → earlier.2 = some first →
        config.loopOf last.conn = config.loopOf first.conn →
          ordered ⟨earlier.1.request, first⟩ ⟨later.1.request, last⟩) :
    node.ran.Pairwise fun later earlier =>
      config.loopOf later.functor.callback.conn =
          config.loopOf earlier.functor.callback.conn →
        ordered earlier.functor later.functor := by
  rw [List.pairwise_iff_forall_sublist]
  intro later earlier hsublist hloop
  have hhanded : ((node.ran.reverse.map RanCallback.functor).filter
      (ChatNode.ofLoop config
        (config.loopOf earlier.functor.callback.conn))).Pairwise ordered := by
    have hall : (node.finished.reverse.filterMap (handedTo config
        (config.loopOf earlier.functor.callback.conn))).Pairwise
          ordered := by
      rw [List.pairwise_filterMap, List.pairwise_reverse]
      refine hfinished.imp ?_
      intro last first hordered before hbefore after hafter
      obtain ⟨begun, hbegun, hfirst⟩ := Option.bind_eq_some_iff.mp hbefore
      obtain ⟨ended, hended, hlast⟩ := Option.bind_eq_some_iff.mp hafter
      split at hfirst
      · split at hlast
        · rename_i hone htwo
          cases hfirst
          cases hlast
          exact hordered ended begun hended hbegun (htwo.trans hone.symm)
        · cases hlast
      · cases hfirst
    rw [hnode] at hall
    exact hall.sublist (List.sublist_append_left _ _)
  have hpair : [earlier.functor, later.functor].Sublist
      ((node.ran.reverse.map RanCallback.functor).filter
        (ChatNode.ofLoop config
          (config.loopOf earlier.functor.callback.conn))) := by
    have hmapped := ((hsublist.reverse.map RanCallback.functor).filter
      (ChatNode.ofLoop config
        (config.loopOf earlier.functor.callback.conn)))
    simpa [ChatNode.ofLoop, hloop] using hmapped
  exact List.pairwise_iff_forall_sublist.mp hhanded hpair

/-! ## Turns -/

/-- Of two competing tasks, the first has the older request. -/
def Ahead (competes : Task → Task → Prop) (first second : PoolTask) : Prop :=
  competes first.task second.task → first.request < second.request

/-- No worker takes a task while another one runs a task that competes with
it. -/
def TakesTurns (competes : Task → Task → Prop) (node : ChatNode) :
    Action → Prop
  | .start => ∀ item rest, node.server.queue = item :: rest →
      ∀ thread ∈ node.threads, ¬ competes thread.op.task item.task
  | _ => True

structure InTurn (competes : Task → Task → Prop) (node : ChatNode) :
    Prop where
  numbered : Numbered node
  queued : node.server.queue.Pairwise (Ahead competes)
  waiting : ∀ thread ∈ node.threads, ∀ item ∈ node.server.queue,
    Ahead competes thread.op item
  alone : (node.threads.map Thread.op).Pairwise fun one other =>
    ¬ competes one.task other.task
  started : ∀ entry ∈ node.finished, ∀ thread ∈ node.threads,
    Ahead competes entry.1 thread.op
  left : ∀ entry ∈ node.finished, ∀ item ∈ node.server.queue,
    Ahead competes entry.1 item
  ended : node.finished.Pairwise fun later earlier =>
    Ahead competes earlier.1 later.1

section Turns

variable {competes : Task → Task → Prop}

theorem inTurn_start (world : NodeWorld) :
    InTurn competes { world := world } := by
  refine ⟨numbered_start world, ?_, ?_, ?_, ?_, ?_, ?_⟩ <;>
    simp [ChatServer.initial]

/-- What is added to the queue comes after everything that competes with
it. -/
theorem InTurn.enqueue {added : List PoolTask}
    (hnode : InTurn competes node) (hnumbered : Numbered next)
    (hqueue : next.server.queue = node.server.queue ++ added)
    (hthreads : next.threads = node.threads)
    (hfinished : next.finished = node.finished)
    (hadded : added.Pairwise (Ahead competes))
    (hafter : ∀ item : PoolTask, item.request < node.server.requests →
      ∀ new ∈ added, Ahead competes item new) :
    InTurn competes next := by
  have hnew {item : PoolTask} (hitem : item.request < node.server.requests)
      (hold : ∀ queued ∈ node.server.queue, Ahead competes item queued) :
      ∀ queued ∈ next.server.queue, Ahead competes item queued := by
    intro queued hqueued
    rw [hqueue] at hqueued
    rcases List.mem_append.mp hqueued with hbefore | hmem
    · exact hold queued hbefore
    · exact hafter item hitem queued hmem
  refine ⟨hnumbered, ?_, ?_, ?_, ?_, ?_, ?_⟩
  · rw [hqueue, List.pairwise_append]
    refine ⟨hnode.queued, hadded, ?_⟩
    intro item hitem new hmem
    exact hafter item (hnode.numbered.queue item hitem) new hmem
  · intro thread hthread
    rw [hthreads] at hthread
    exact hnew (hnode.numbered.threads thread hthread)
      (hnode.waiting thread hthread)
  · exact hthreads ▸ hnode.alone
  · rw [hthreads, hfinished]
    exact hnode.started
  · intro entry hentry
    rw [hfinished] at hentry
    exact hnew (hnode.numbered.finished entry hentry)
      (hnode.left entry hentry)
  · exact hfinished ▸ hnode.ended

theorem InTurn.begin {item : PoolTask} {rest : List PoolTask}
    (hnode : InTurn competes node)
    (hqueue : node.server.queue = item :: rest)
    (hturn : TakesTurns competes node .start)
    (hnumbered : Numbered { node with
      server := { node.server with queue := rest }
      threads := node.threads ++ [(system config).begin item] }) :
    InTurn competes { node with
      server := { node.server with queue := rest }
      threads := node.threads ++ [(system config).begin item] } := by
  have hqueued := hnode.queued
  rw [hqueue, List.pairwise_cons] at hqueued
  have hmem {queued : PoolTask} (hmem : queued ∈ item :: rest) :
      queued ∈ node.server.queue := hqueue ▸ hmem
  refine ⟨hnumbered, hqueued.2, ?_, ?_, ?_, ?_, hnode.ended⟩
  · intro thread hthread queued hlater
    rcases List.mem_append.mp hthread with hold | hnew
    · exact hnode.waiting thread hold queued
        (hmem (List.mem_cons_of_mem item hlater))
    · rw [List.mem_singleton.mp hnew]
      exact hqueued.1 queued hlater
  · rw [List.map_append, List.pairwise_append]
    refine ⟨hnode.alone, List.pairwise_singleton _ _, ?_⟩
    intro running hrunning begun hbegun
    obtain ⟨thread, hthread, rfl⟩ := List.mem_map.mp hrunning
    rw [List.mem_singleton.mp hbegun]
    exact hturn item rest hqueue thread hthread
  · intro entry hentry thread hthread
    rcases List.mem_append.mp hthread with hold | hnew
    · exact hnode.started entry hentry thread hold
    · rw [List.mem_singleton.mp hnew]
      exact hnode.left entry hentry item (hmem List.mem_cons_self)
  · intro entry hentry queued hlater
    exact hnode.left entry hentry queued
      (hmem (List.mem_cons_of_mem item hlater))

/-- Two workers do not run competing tasks. -/
theorem InTurn.not_competes (hnode : InTurn competes node)
    (hsymm : ∀ one other, competes one other → competes other one)
    {index place : Nat} {thread other : NodeThread}
    (hthread : node.threads[index]? = some thread)
    (hother : node.threads[place]? = some other) (hne : place ≠ index) :
    ¬ competes thread.op.task other.op.task := by
  have halone := List.pairwise_iff_getElem.mp
    (List.pairwise_map.mp hnode.alone)
  obtain ⟨hindex, rfl⟩ := List.getElem?_eq_some_iff.mp hthread
  obtain ⟨hplace, rfl⟩ := List.getElem?_eq_some_iff.mp hother
  rcases Nat.lt_or_gt_of_ne hne with hlt | hgt
  · intro hcompetes
    exact halone place index hplace hindex hlt (hsymm _ _ hcompetes)
  · exact halone index place hindex hplace hgt

theorem InTurn.finish {index : Nat} {thread : NodeThread}
    {callback : Option Callback} (hnode : InTurn competes node)
    (hsymm : ∀ one other, competes one other → competes other one)
    (hthread : node.threads[index]? = some thread)
    (hnumbered : Numbered { node with
      server := node.server.queueInLoop config thread.op.request callback
      threads := node.threads.eraseIdx index
      finished := (thread.op, callback) :: node.finished }) :
    InTurn competes { node with
      server := node.server.queueInLoop config thread.op.request callback
      threads := node.threads.eraseIdx index
      finished := (thread.op, callback) :: node.finished } := by
  have hmem := List.mem_of_getElem? hthread
  have hqueue :=
    queueInLoop_queue config node.server thread.op.request callback
  refine ⟨hnumbered, ?_, ?_, ?_, ?_, ?_, ?_⟩
  · exact hqueue ▸ hnode.queued
  · intro other hother item hitem
    exact hnode.waiting other (List.mem_of_mem_eraseIdx hother) item
      (hqueue ▸ hitem)
  · exact hnode.alone.sublist
      ((List.eraseIdx_sublist _ _).map Thread.op)
  · intro entry hentry other hother
    rcases List.mem_cons.mp hentry with rfl | hold
    · obtain ⟨place, hne, hplace⟩ :=
        List.mem_eraseIdx_iff_getElem?.mp hother
      intro hcompetes
      exact (hnode.not_competes hsymm hthread hplace hne hcompetes).elim
    · exact hnode.started entry hold other (List.mem_of_mem_eraseIdx hother)
  · intro entry hentry item hitem
    rcases List.mem_cons.mp hentry with rfl | hold
    · exact hnode.waiting thread hmem item (hqueue ▸ hitem)
    · exact hnode.left entry hold item (hqueue ▸ hitem)
  · refine List.pairwise_cons.mpr ⟨?_, hnode.ended⟩
    intro entry hentry
    exact hnode.started entry hentry thread hmem

/-- Taking turns keeps competing tasks in order; the tasks callbacks queue
compete with none. -/
theorem InTurn.step (hnode : InTurn competes node)
    (hstep : step config node action = some next)
    (hsymm : ∀ one other, competes one other → competes other one)
    (hfree : ∀ one other, other.IsFollowUp → ¬ competes one other)
    (hturn : TakesTurns competes node action) : InTurn competes next := by
  have hnumbered := hnode.numbered.step hstep
  cases steps_of_step hstep with
  | receive conn envelope =>
      rcases queue_receive node.server conn envelope with
        hsame | ⟨task, hqueue⟩
      · exact hnode.enqueue hnumbered
          (hsame.trans (List.append_nil _).symm) rfl rfl .nil (by simp)
      · refine hnode.enqueue hnumbered hqueue rfl rfl
          (List.pairwise_singleton _ _) ?_
        intro item hitem new hnew _
        rw [List.mem_singleton.mp hnew]
        exact hitem
  | start item rest hqueue => exact hnode.begin hqueue hturn hnumbered
  | @exec index call answer thread world rest hthread hprog heffect =>
      have hops : (node.threads.set index
          (thread.advance call answer (rest answer))).map Thread.op =
            node.threads.map Thread.op := by
        apply List.ext_getElem?
        intro place
        rw [List.getElem?_map, List.getElem?_map]
        by_cases hplace : place = index
        · subst hplace
          rw [List.getElem?_set_self
            (List.getElem?_eq_some_iff.mp hthread).1, hthread]
          rfl
        · rw [List.getElem?_set_ne (Ne.symm hplace)]
      have hthreads (good : PoolTask → Prop)
          (hall : ∀ thread ∈ node.threads, good thread.op) :
          ∀ other ∈ node.threads.set index
            (thread.advance call answer (rest answer)), good other.op := by
        intro other hother
        rcases List.mem_or_eq_of_mem_set hother with hold | rfl
        · exact hall other hold
        · exact hall thread (List.mem_of_getElem? hthread)
      refine ⟨hnumbered, hnode.queued, ?_, ?_, ?_, hnode.left, hnode.ended⟩
      · intro other hother item hitem
        exact hthreads (Ahead competes · item)
          (fun thread hmem => hnode.waiting thread hmem item hitem) other
          hother
      · exact hops ▸ hnode.alone
      · intro entry hentry
        exact hthreads (Ahead competes entry.1) (hnode.started entry hentry)
  | finish hthread hprog => exact hnode.finish hsymm hthread hnumbered
  | callback loop now functor rest hloop =>
      obtain ⟨_, _, tasks, hqueue, hfollow⟩ :=
        afterCallback_frame node loop now functor rest
      have hnone (item new : PoolTask)
          (hnew : new ∈ tasks.map (PoolTask.mk functor.request)) :
          Ahead competes item new := by
        obtain ⟨task, htask, rfl⟩ := List.mem_map.mp hnew
        intro hcompetes
        exact (hfree _ task (hfollow task htask) hcompetes).elim
      refine hnode.enqueue hnumbered hqueue rfl rfl ?_
        fun item _ => hnone item
      exact List.pairwise_of_forall_mem_list fun item _ => hnone item
  | _ =>
      exact ⟨hnumbered, hnode.queued, hnode.waiting, hnode.alone,
        hnode.started, hnode.left, hnode.ended⟩

/-- A single worker takes turns with nobody. -/
theorem eachStep_takesTurns (hone : config.threads = 1) (start : ChatNode)
    (actions : List Action) :
    Runs.EachStep (ChatNode.step config) (TakesTurns competes) start
      actions := by
  intro before action state next _ _ hstep
  cases action with
  | start =>
      intro item rest hqueue thread hthread
      have hbusy : ¬ state.threads.length < config.threads := by
        have hpositive := List.length_pos_of_mem hthread
        omega
      simp only [ChatNode.step, startTask, hqueue, if_neg hbusy] at hstep
      cases hstep
  | _ => trivial

end Turns

/-! ## Facts about competing tasks -/

/-- `beside` holds of every finished task and the log of a task that competes
with it, and `behind` of any two finished tasks that compete. -/
structure Followed (competes : Task → Task → Prop)
    (beside : Database → PoolTask × Option Callback →
      List (Sigma NodeCall.Answer) → Prop)
    (behind : Database → PoolTask × Option Callback →
      PoolTask × Option Callback → Prop) (node : ChatNode) : Prop where
  running : ∀ thread ∈ node.threads, ∀ entry ∈ node.finished,
    competes entry.1.task thread.op.task →
      beside node.world.db entry thread.log
  ended : node.finished.Pairwise fun later earlier =>
    competes earlier.1.task later.1.task →
      behind node.world.db earlier later

section Followed

variable {competes : Task → Task → Prop}
  {beside : Database → PoolTask × Option Callback →
    List (Sigma NodeCall.Answer) → Prop}
  {behind : Database → PoolTask × Option Callback →
    PoolTask × Option Callback → Prop}

theorem followed_start (world : NodeWorld) :
    Followed competes beside behind { world := world } := by
  constructor <;> simp

theorem Followed.step (hnode : Followed competes beside behind node)
    (hturns : InTurn competes node)
    (hsymm : ∀ one other, competes one other → competes other one)
    (hstep : step config node action = some next)
    (hbegin : ∀ db entry, beside db entry [])
    (hkeep : ∀ entry ∈ node.finished, ∀ log,
      beside node.world.db entry log → beside next.world.db entry log)
    (hexec : ∀ index call answer thread,
      action = .exec index call answer →
      node.threads[index]? = some thread →
      node.world.effect call answer = some next.world →
      ∀ entry ∈ node.finished, beside node.world.db entry thread.log →
        beside next.world.db entry (thread.log ++ [⟨call, answer⟩]))
    (hbehind : ∀ earlier ∈ node.finished, ∀ later ∈ node.finished,
      behind node.world.db earlier later →
        behind next.world.db earlier later)
    (hfinish : ∀ thread ∈ node.threads, ∀ callback,
      thread.prog = .ret callback → ∀ entry ∈ node.finished,
        beside node.world.db entry thread.log →
          behind node.world.db entry (thread.op, callback)) :
    Followed competes beside behind next := by
  have hended : node.finished.Pairwise fun later earlier =>
      competes earlier.1.task later.1.task →
        behind next.world.db earlier later := by
    refine hnode.ended.imp_of_mem ?_
    intro later earlier hlater hearlier hold hcompetes
    exact hbehind earlier hearlier later hlater (hold hcompetes)
  have hrunning : ∀ thread ∈ node.threads, ∀ entry ∈ node.finished,
      competes entry.1.task thread.op.task →
        beside next.world.db entry thread.log := by
    intro thread hthread entry hentry hcompetes
    exact hkeep entry hentry _ (hnode.running thread hthread entry hentry
      hcompetes)
  cases steps_of_step hstep with
  | start item rest hqueue =>
      refine ⟨?_, hended⟩
      intro thread hthread entry hentry hcompetes
      rcases List.mem_append.mp hthread with hold | hnew
      · exact hrunning thread hold entry hentry hcompetes
      · rw [List.mem_singleton.mp hnew]
        exact hbegin _ entry
  | @exec index call answer thread world rest hthread hprog heffect =>
      refine ⟨?_, hended⟩
      intro other hother entry hentry hcompetes
      rcases List.mem_or_eq_of_mem_set hother with hold | rfl
      · exact hrunning other hold entry hentry hcompetes
      · exact hexec index call answer thread rfl hthread heffect entry hentry
          (hnode.running thread (List.mem_of_getElem? hthread) entry hentry
            hcompetes)
  | @finish index thread callback hthread hprog =>
      have hmem := List.mem_of_getElem? hthread
      constructor
      · intro other hother entry hentry hcompetes
        rcases List.mem_cons.mp hentry with rfl | hold
        · obtain ⟨place, hne, hplace⟩ :=
            List.mem_eraseIdx_iff_getElem?.mp hother
          exact (hturns.not_competes hsymm hthread hplace hne
            hcompetes).elim
        · exact hnode.running other (List.mem_of_mem_eraseIdx hother) entry
            hold hcompetes
      · refine List.pairwise_cons.mpr ⟨?_, hnode.ended⟩
        intro entry hentry hcompetes
        exact hfinish thread hmem callback hprog entry hentry
          (hnode.running thread hmem entry hentry hcompetes)
  | _ => exact ⟨hrunning, hended⟩

/-- Competing tasks that have ended stand in the order of their requests. -/
theorem Followed.behind_of_lt (hnode : Followed competes beside behind node)
    (hturns : InTurn competes node)
    (hsymm : ∀ one other, competes one other → competes other one)
    {earlier later : PoolTask × Option Callback}
    (hearlier : earlier ∈ node.finished) (hlater : later ∈ node.finished)
    (hcompetes : competes earlier.1.task later.1.task)
    (hrequest : earlier.1.request < later.1.request) :
    behind node.world.db earlier later := by
  let Ordered (one other : PoolTask × Option Callback) : Prop :=
    Ahead competes other.1 one.1 ∧ (competes other.1.task one.1.task →
      behind node.world.db other one)
  have hordered : node.finished.Pairwise fun one other =>
      Ordered one other ∨ Ordered other one :=
    (hturns.ended.and hnode.ended).imp Or.inl
  have hsymmetric : Std.Symm fun one other =>
      Ordered one other ∨ Ordered other one := ⟨fun _ _ => Or.symm⟩
  have hne : earlier ≠ later := by
    rintro rfl
    exact Nat.lt_irrefl _ hrequest
  rcases hordered.forall hearlier hlater hne with hwrong | hright
  · have hback := hwrong.1 (hsymm _ _ hcompetes)
    omega
  · exact hright.2 hcompetes

end Followed

end ChatNode

end MuduoChat
