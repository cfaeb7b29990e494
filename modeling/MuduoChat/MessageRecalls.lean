import MuduoChat.MessageThreads

/-!
# What a recall changes

`ChatService::recallMessage` reads the message, compares the author, looks at
the clock and then updates the row, in statements of their own.  Any number
of calls by any users run next to each other and next to other tasks, which
store messages or make time pass.

Whatever the others do in between, a call that succeeds has changed two
columns of one row of its own author, and a call that fails has changed
nothing, unless its UPDATE was executed and the answer did not arrive: then
the method reports a failure, and the message is recalled all the same.
-/

namespace MuduoChat

/-- The arguments of one call. -/
structure Recall where
  msgId : Int
  uid : String
  recipient : String
  room : String
  deriving DecidableEq

def isUpdateRecalled : Statement → Bool
  | .updateRecalled .. => true
  | _ => false

namespace Recall

def program (op : Recall) : NodeProg RecallResult :=
  (ChatService.recallMessage op.msgId op.uid op.recipient
    op.room).translate answerRepository

def system : MessageSystem Recall RecallResult :=
  messageSystem program isUpdateRecalled

abbrev Watched := WatchedThreads Recall RecallResult

abbrev RecallThread := Thread Recall NodeCall NodeCall.Answer RecallResult

abbrev RecallMove := Move Recall Bystander NodeCall NodeCall.Answer

def start (db : Database) : Watched where
  state := { world := { db := db } }

/-- Only the row of the message changes, which is one of the user's: it is
recalled, at the time the statement is executed. -/
structure OnlyRecalls (before after : Database) (msgId : Int)
    (uid : String) : Prop where
  row : ∃ row, before.messages.get? msgId = some row ∧ row.fromUid = uid ∧
    after.messages.get? msgId =
      some { row with recalled := 1, recallTime := some before.clock }
  changed : after.messages.get? msgId ≠ before.messages.get? msgId
  others : ∀ other, other ≠ msgId →
    after.messages.get? other = before.messages.get? other
  identifiers : after.messages.entries.map Prod.fst =
    before.messages.entries.map Prod.fst

def IsRecalled (db : Database) (msgId : Int) : Prop :=
  ∃ row, db.messages.get? msgId = some row ∧ row.recalled = 1

/-- Of all that a thread has done, one call has recalled the message and the
others have left the table of messages alone. -/
def RecallsOnce (effects : List CallEffect) (op : Recall) : Prop :=
  ∃ newer effect older, effects = newer ++ effect :: older ∧
    OnlyRecalls effect.before.db effect.after.db op.msgId op.uid ∧
    ∀ other ∈ newer ++ older, other.Unchanged

/-- A call that has failed has changed no message; a call that has succeeded
has recalled its message and changed nothing else. -/
structure TouchesOwnRow (watched : Watched) : Prop where
  failed : ∀ index thread result,
    watched.state.threads[index]? = some thread →
      thread.prog = .ret result → result.success = false →
        ∀ effect ∈ watched.callEffects index, effect.Unchanged
  succeeded : ∀ index thread result,
    watched.state.threads[index]? = some thread →
      thread.prog = .ret result → result.success = true →
        RecallsOnce (watched.callEffects index) thread.op

/-- An UPDATE that is executed without being answered changes nothing. -/
def AnswersArrive (watched : Watched) : RecallMove → Prop
  | .exec _ (.sql (.query (.updateRecalled msgId uid))) outcome =>
      outcome.executed = true → outcome.result = none →
        (watched.state.world.db.execStatement
            (.updateRecalled msgId uid)).1.messages =
          watched.state.world.db.messages
  | _ => True

/-! ## The statement -/

section Update

variable {db : Database} {msgId : Int} {uid : String}

def selects (msgId : Int) (uid : String) (id : Int) (row : MessageRow) :
    Bool :=
  decide (id = msgId) && decide (row.fromUid = uid)

def recalledAt (clock : String) (row : MessageRow) : MessageRow :=
  { row with recalled := 1, recallTime := some clock }

theorem messages_updateRecalled (db : Database) (msgId : Int)
    (uid : String) :
    (db.execStatement (.updateRecalled msgId uid)).1.messages =
      db.messages.update (selects msgId uid) (recalledAt db.clock) := rfl

theorem affected_updateRecalled (db : Database) (msgId : Int)
    (uid : String) :
    (db.execStatement (.updateRecalled msgId uid)).2 =
      some (db.messages.entries.countP fun entry =>
        selects msgId uid entry.1 entry.2 &&
          decide (recalledAt db.clock entry.2 ≠ entry.2)) := rfl

/-- No row is affected: the table stays as it was. -/
theorem updateRecalled_unaffected
    (haffected : (db.execStatement (.updateRecalled msgId uid)).2 = some 0) :
    (db.execStatement (.updateRecalled msgId uid)).1.messages =
      db.messages := by
  rw [affected_updateRecalled, Option.some.injEq,
    List.countP_eq_zero] at haffected
  rw [messages_updateRecalled]
  apply AutoTable.update_eq_self
  intro entry hentry hselected
  by_contra hchange
  exact haffected entry hentry (by simp [hselected, hchange])

/-- A row is affected: it is the user's, and it is recalled now. -/
theorem updateRecalled_affected {affected : Nat}
    (haffected : (db.execStatement (.updateRecalled msgId uid)).2 =
      some affected) (hpos : 0 < affected) :
    OnlyRecalls db (db.execStatement (.updateRecalled msgId uid)).1 msgId
      uid := by
  rw [affected_updateRecalled, Option.some.injEq] at haffected
  rw [← haffected, List.countP_pos_iff] at hpos
  obtain ⟨⟨id, row⟩, hentry, hselected⟩ := hpos
  simp only [selects, Bool.and_eq_true, decide_eq_true_eq] at hselected
  obtain ⟨⟨rfl, rfl⟩, hchanged⟩ := hselected
  have hget : db.messages.get? id = some row := AutoTable.get?_of_mem hentry
  have hafter : (db.execStatement (.updateRecalled id
      row.fromUid)).1.messages.get? id = some (recalledAt db.clock row) := by
    rw [messages_updateRecalled, AutoTable.get?_update, hget]
    simp [selects]
  constructor
  · exact ⟨row, hget, rfl, hafter⟩
  · rw [hafter, hget]
    exact fun hsame => hchanged (Option.some.inj hsame)
  · intro other hother
    rw [messages_updateRecalled, AutoTable.get?_update]
    simp [selects, hother]
  · rw [messages_updateRecalled]
    simp [AutoTable.update, List.map_map, Function.comp_def]

end Update

/-! ## One execution -/

/-- How far an execution has come: what its UPDATE was answered, once it was
sent. -/
structure Phase where
  op : Recall
  updated : Option (Option Nat) := none

namespace Phase

def Affected (phase : Phase) : Prop :=
  ∃ affected, phase.updated = some (some affected) ∧ 0 < affected

def advance (phase : Phase) :
    (call : NodeCall) → call.Answer → Option Phase
  | .sql (.query (.updateRecalled msgId uid)), outcome =>
      if phase.updated = none ∧ msgId = phase.op.msgId ∧
          uid = phase.op.uid then
        some { phase with updated := some outcome.result }
      else none
  | .sql (.query (.selectMessage _)), _ => some phase
  | .sql (.query _), _ => none
  | _, _ => some phase

def Returns (op : Recall) (phase : Phase) (result : RecallResult) :
    Prop :=
  phase.op = op ∧ (result.success = true ↔ phase.Affected)

end Phase

section Programs

open Phase

theorem not_affected (op : Recall) :
    ¬ Phase.Affected { op := op } := by
  rintro ⟨affected, hupdated, _⟩
  cases hupdated

theorem obeys_getMessage (phase : Phase) (msgId : Int) :
    Prog.Obeys advance (fun after _ => after = phase) phase
      (answerRepository (.getMessage msgId)) := by
  intro conn
  cases conn with
  | false => exact ⟨phase, rfl, rfl⟩
  | true =>
      refine ⟨phase, rfl, ?_⟩
      intro outcome
      refine ⟨phase, rfl, ?_⟩
      intro returned
      exact ⟨phase, rfl, rfl⟩

theorem obeys_update (op : Recall) :
    Prog.Obeys advance
      (fun after ok => after.op = op ∧ (ok = true ↔ after.Affected))
      { op := op }
      (answerRepository (.recallMessage op.msgId op.uid)) := by
  intro conn
  cases conn with
  | false =>
      refine ⟨_, rfl, rfl, ?_⟩
      exact iff_of_false Bool.false_ne_true (not_affected op)
  | true =>
      refine ⟨_, rfl, ?_⟩
      intro outcome
      refine ⟨{ op := op, updated := some outcome.result },
        by simp [advance], ?_⟩
      obtain ⟨executed, result⟩ := outcome
      cases result with
      | none =>
          intro returned
          refine ⟨_, rfl, rfl, iff_of_false Bool.false_ne_true ?_⟩
          rintro ⟨affected, hupdated, _⟩
          cases hupdated
      | some affected =>
          intro returned
          refine ⟨_, rfl, rfl, ?_⟩
          rw [decide_eq_true_iff]
          constructor
          · intro hpos
            exact ⟨affected, rfl, hpos⟩
          · rintro ⟨_, hupdated, hpos⟩
            cases hupdated
            exact hpos

theorem obeys_program (op : Recall) :
    Prog.Obeys advance (Returns op) { op := op }
      op.program := by
  have hfails (reason : String) : Returns op { op := op }
      { reason := reason } :=
    ⟨rfl, iff_of_false Bool.false_ne_true (not_affected op)⟩
  unfold program ChatService.recallMessage
  rw [Prog.translate_request_bind]
  refine (obeys_getMessage _ op.msgId).bind ?_
  rintro _ found rfl
  cases found with
  | none => exact hfails _
  | some msg =>
      dsimp only
      split
      · exact hfails _
      · intro now
        refine ⟨_, rfl, ?_⟩
        intro msgTime
        refine ⟨_, rfl, ?_⟩
        show Prog.Obeys advance _ _ (Prog.translate answerRepository
          (if (now : Int) - (msgTime : Int) > 120 then _ else _))
        split
        · exact hfails _
        · rw [Prog.translate_request_bind]
          refine (obeys_update op).bind ?_
          rintro phase ok ⟨hrecall, hok⟩
          cases ok with
          | false => exact ⟨hrecall, hok⟩
          | true => exact ⟨hrecall, hok⟩

end Programs

/-! ## What the phases say of the effects -/

section Effects

variable {phase next : Phase} {effects : List CallEffect}
  {effect : CallEffect}

/-- A call leaves the phase and the messages alone, or it is the UPDATE. -/
theorem unchanged_or_update {call : NodeCall} {answer : call.Answer}
    {world after : NodeWorld}
    (hadvance : phase.advance call answer = some next)
    (heffect : world.effect call answer = some after) :
    next = phase ∧ after.db.messages = world.db.messages ∨
      ∃ outcome, (⟨call, answer⟩ : Sigma NodeCall.Answer) =
          ⟨.sql (.query (.updateRecalled phase.op.msgId phase.op.uid)),
            outcome⟩ ∧
        phase.updated = none ∧
        next = { phase with updated := some outcome.result } := by
  by_cases hquery : ∃ statement, call = .sql (.query statement)
  · obtain ⟨statement, rfl⟩ := hquery
    cases statement with
    | selectMessage msgId =>
        cases hadvance
        refine .inl ⟨rfl, ?_⟩
        rcases NodeWorld.query_of_effect heffect with
          ⟨_, _, rfl⟩ | ⟨_, _, rfl⟩ <;> rfl
    | updateRecalled msgId uid =>
        obtain ⟨⟨hfirst, rfl, rfl⟩, hnext⟩ :=
          Option.ite_none_right_eq_some.mp hadvance
        cases hnext
        exact .inr ⟨answer, rfl, hfirst, rfl⟩
    | _ => cases hadvance
  · refine .inl ⟨?_, ?_⟩
    · cases call with
      | session call => exact (Option.some.inj hadvance).symm
      | sql call =>
          cases call with
          | query statement => exact (hquery ⟨statement, rfl⟩).elim
          | _ => exact (Option.some.inj hadvance).symm
    · rw [NodeWorld.db_of_effect (not_exists.mp hquery) heffect]

theorem forall_unchanged_cons (heffect : effect.Unchanged)
    (heffects : ∀ other ∈ effects, other.Unchanged) :
    ∀ other ∈ effect :: effects, other.Unchanged := by
  intro other hother
  rcases List.mem_cons.mp hother with rfl | hmem
  · exact heffect
  · exact heffects other hmem

theorem RecallsOnce.cons {op : Recall} (honce : RecallsOnce effects op)
    (heffect : effect.Unchanged) : RecallsOnce (effect :: effects) op := by
  obtain ⟨newer, recalling, older, rfl, honly, hrest⟩ := honce
  exact ⟨effect :: newer, recalling, older, rfl, honly,
    forall_unchanged_cons heffect hrest⟩

/-- The UPDATE of a call that is affected has recalled its message, and
before the UPDATE nothing was changed. -/
structure PhaseEffects (effects : List CallEffect) (phase : Phase) :
    Prop where
  recalled : phase.Affected → RecallsOnce effects phase.op
  unsent : phase.updated = none → ∀ effect ∈ effects, effect.Unchanged

theorem PhaseEffects.exec (heffects : PhaseEffects effects phase)
    {call : NodeCall} {answer : call.Answer} {world after : NodeWorld}
    (hadvance : phase.advance call answer = some next)
    (heffect : world.effect call answer = some after) (index : Nat) :
    PhaseEffects (⟨index, world, after⟩ :: effects) next := by
  rcases unchanged_or_update hadvance heffect with
    ⟨rfl, hsame⟩ | ⟨outcome, hcall, hfirst, rfl⟩
  · exact ⟨fun haffected => (heffects.recalled haffected).cons hsame,
      fun hnone => forall_unchanged_cons hsame (heffects.unsent hnone)⟩
  · cases hcall
    refine ⟨?_, fun hnone => by cases hnone⟩
    rintro ⟨affected, hupdated, hpos⟩
    have hresult : outcome.result = some affected := Option.some.inj hupdated
    rcases NodeWorld.query_of_effect heffect with
      ⟨_, hnone | hanswer, rfl⟩ | ⟨_, hnone, _⟩
    · rw [hresult] at hnone
      cases hnone
    · exact ⟨[], _, effects, rfl,
        updateRecalled_affected (hanswer.symm.trans hresult) hpos,
        heffects.unsent hfirst⟩
    · rw [hresult] at hnone
      cases hnone

/-- Nothing was changed if no row is known to be affected. -/
def FailsUnchanged (effects : List CallEffect) (phase : Phase) : Prop :=
  ¬ phase.Affected → ∀ effect ∈ effects, effect.Unchanged

theorem FailsUnchanged.exec {watched : Watched} {call : NodeCall}
    {answer : call.Answer} {world : NodeWorld}
    (heffects : FailsUnchanged effects phase)
    (hadvance : phase.advance call answer = some next)
    (heffect : watched.state.world.effect call answer = some world)
    {index : Nat} (harrives : AnswersArrive watched (.exec index call answer)) :
    FailsUnchanged (⟨index, watched.state.world, world⟩ :: effects)
      next := by
  rcases unchanged_or_update hadvance heffect with
    ⟨rfl, hsame⟩ | ⟨outcome, hcall, hfirst, rfl⟩
  · exact fun hnone => forall_unchanged_cons hsame (heffects hnone)
  · cases hcall
    intro hnone
    refine forall_unchanged_cons ?_ (heffects ?_)
    · show world.db.messages = watched.state.world.db.messages
      rcases NodeWorld.query_of_effect heffect with
        ⟨hexecuted, hlost | hanswer, rfl⟩ | ⟨_, _, rfl⟩
      · exact harrives hexecuted hlost
      · apply updateRecalled_unaffected
        rw [affected_updateRecalled] at hanswer ⊢
        -- a positive count would have been the answer
        rcases Nat.eq_zero_or_pos
          (watched.state.world.db.messages.entries.countP _) with
          hzero | hpos
        · rw [hzero]
        · exact (hnone ⟨_, congrArg some hanswer, hpos⟩).elim
      · rfl
    · rintro ⟨affected, hupdated, _⟩
      rw [hfirst] at hupdated
      cases hupdated

end Effects

/-! ## Every run -/

/-- The effects of every thread are what its phase says. -/
structure Followed (holds : List CallEffect → Phase → Prop)
    (watched : Watched) : Prop where
  indexed : watched.Indexed
  threads : ∀ index thread, watched.state.threads[index]? = some thread →
    ∃ phase, ThreadSystem.InPhase Phase.advance Phase.Returns
        (fun op => { op := op }) thread phase ∧
      holds (watched.callEffects index) phase

section Runs

variable {watched next : Watched} {move : RecallMove}
  {holds : List CallEffect → Phase → Prop}

theorem Followed.step (hwatched : Followed holds watched)
    (hstep : watched.step system move = some next)
    (hbegin : ∀ op, holds [] { op := op })
    (hkeep : ∀ index call answer phase after world effects,
      move = .exec index call answer →
      Phase.advance phase call answer = some after →
      watched.state.world.effect call answer = some world →
      holds effects phase →
        holds (⟨index, watched.state.world, world⟩ :: effects) after) :
    Followed holds next where
  indexed := hwatched.indexed.step hstep
  threads := by
    refine WatchedThreads.forall_threads_step
      (fun thread effects => ∃ phase,
        ThreadSystem.InPhase Phase.advance Phase.Returns
            (fun op => { op := op }) thread phase ∧ holds effects phase)
      hwatched.indexed hstep ?_ ?_ hwatched.threads
    · intro op
      exact ⟨_, ThreadSystem.InPhase.begin obeys_program op, hbegin op⟩
    · rintro index call answer thread world rest hmove _ hprog heffect
        ⟨phase, hphase, hholds⟩
      obtain ⟨after, hadvance, hafter⟩ := hphase.exec hprog answer
      exact ⟨after, hafter,
        hkeep index call answer phase after world _ hmove hadvance heffect
          hholds⟩

theorem phaseEffects_begin (op : Recall) :
    PhaseEffects [] { op := op } where
  recalled haffected := (not_affected op haffected).elim
  unsent _ := by simp

theorem Followed.phaseEffects_step (hwatched : Followed PhaseEffects watched)
    (hstep : watched.step system move = some next) :
    Followed PhaseEffects next := by
  refine hwatched.step hstep phaseEffects_begin ?_
  intro index call answer phase after world effects _ hadvance heffect hholds
  exact hholds.exec hadvance heffect index

theorem start_followed (db : Database) : Followed holds (start db) where
  indexed := by simp [WatchedThreads.Indexed, start]
  threads := by simp [start]

/-- Threads that have returned, with the phase they were left in. -/
theorem Followed.returned (hwatched : Followed holds watched) {index : Nat}
    {thread : RecallThread} {result : RecallResult}
    (hthread : watched.state.threads[index]? = some thread)
    (hprog : thread.prog = .ret result) :
    ∃ phase : Phase, phase.op = thread.op ∧
      (result.success = true ↔ phase.Affected) ∧
      holds (watched.callEffects index) phase := by
  obtain ⟨phase, hphase, hholds⟩ := hwatched.threads index thread hthread
  obtain ⟨hop, hsuccess⟩ := hphase.returned hprog
  exact ⟨phase, hop, hsuccess, hholds⟩

/-- What holds of the effects while all answers arrive. -/
def BothEffects (effects : List CallEffect) (phase : Phase) : Prop :=
  PhaseEffects effects phase ∧ FailsUnchanged effects phase

theorem Followed.touchesOwnRow (hwatched : Followed BothEffects watched) :
    TouchesOwnRow watched where
  failed index thread result hthread hprog hfailed := by
    obtain ⟨phase, _, hsuccess, _, hunchanged⟩ :=
      hwatched.returned hthread hprog
    apply hunchanged
    rw [← hsuccess, hfailed]
    exact Bool.false_ne_true
  succeeded index thread result hthread hprog hdone := by
    obtain ⟨phase, hop, hsuccess, heffects, _⟩ :=
      hwatched.returned hthread hprog
    rw [← hop]
    exact heffects.recalled (hsuccess.mp hdone)

theorem Followed.bothEffects_step (hwatched : Followed BothEffects watched)
    (hstep : watched.step system move = some next)
    (harrives : AnswersArrive watched move) : Followed BothEffects next := by
  refine hwatched.step hstep ?_ ?_
  · intro op
    exact ⟨phaseEffects_begin op, fun _ => by simp⟩
  · rintro index call answer phase after world effects rfl hadvance heffect
      ⟨heffects, hunchanged⟩
    exact ⟨heffects.exec hadvance heffect index,
      hunchanged.exec hadvance heffect harrives⟩

/-- No statement takes a recall back. -/
theorem IsRecalled.execStatement {db : Database} {msgId : Int}
    (hrecalled : IsRecalled db msgId) (statement : Statement) :
    IsRecalled (db.execStatement statement).1 msgId := by
  obtain ⟨row, hrow, hrecalled⟩ := hrecalled
  unfold IsRecalled
  have hafter := messagesAfter_execStatement db statement
  generalize (db.execStatement statement).1.messages = messages at hafter ⊢
  cases hafter with
  | insert =>
      refine ⟨row, ?_, hrecalled⟩
      rw [AutoTable.get?_insert, if_neg, hrow]
      rintro rfl
      rw [AutoTable.get?_eq_none_of_next_le le_rfl] at hrow
      cases hrow
  | mark other uid =>
      rw [AutoTable.get?_update, hrow]
      refine ⟨_, rfl, ?_⟩
      dsimp only
      split
      · rfl
      · exact hrecalled
  | refuse | keep => exact ⟨row, hrow, hrecalled⟩

theorem IsRecalled.step {msgId : Int}
    (hrecalled : IsRecalled watched.state.world.db msgId)
    (hstep : watched.step system move = some next) :
    IsRecalled next.state.world.db msgId := by
  obtain ⟨state, hstate, rfl⟩ := Option.map_eq_some_iff.mp hstep
  cases ThreadSystem.stepped_of_step hstate with
  | enter op => exact hrecalled
  | exec hthread hprog heffect =>
      dsimp only
      rcases NodeWorld.exec_of_effect heffect with
        hsame | ⟨statement, _, _, _, hdb⟩
      · rw [hsame]
        exact hrecalled
      · rw [hdb]
        exact hrecalled.execStatement statement
  | @disturb event world hdisturb =>
      cases event with
      | tick clock =>
          cases hdisturb
          exact hrecalled
      | execute statement =>
          obtain ⟨_, hworld⟩ := Option.ite_none_left_eq_some.mp hdisturb
          cases hworld
          exact hrecalled.execStatement statement

end Runs

/-- Along every interleaving in which no UPDATE that changes a row is executed
without being answered, from every database: a call that has failed has
changed no message, a call that has succeeded has recalled its message and
changed nothing else, and a message that was recalled at some point stays
recalled. -/
theorem recall_touches_ownRow {db : Database} {moves : List RecallMove}
    (harrives : Runs.EachStep (WatchedThreads.step system) AnswersArrive
      (start db) moves) :
    Runs.Always (WatchedThreads.step system) TouchesOwnRow (start db) moves ∧
      ∀ first second middle last,
        Runs.runFrom (WatchedThreads.step system) (start db) first =
          some middle →
        Runs.runFrom (WatchedThreads.step system) middle second = some last →
          ∀ msgId, IsRecalled middle.state.world.db msgId →
            IsRecalled last.state.world.db msgId := by
  constructor
  · have hfollowed := Runs.always_of_eachStep (start_followed db)
      (fun _ _ _ hstep hwatched hok => hwatched.bothEffects_step hstep hok)
      harrives
    intro before watched hinit hrun
    exact (hfollowed before watched hinit hrun).touchesOwnRow
  · intro first second middle last _ hsecond msgId hrecalled
    exact @Runs.invariant_of_run _ _ _
      (fun watched : Watched => IsRecalled watched.state.world.db msgId)
      _ _ _ hrecalled (fun _ _ _ hstep hstill => hstill.step hstep) hsecond

/-! ### Alice recalls her message -/

def fromAlice : MessageRow where
  seq := 1
  roomId := none
  fromUid := "alice"
  toUid := some "bob"
  content := "hello"
  createdAt := "2024-05-01 12:00:00"

def infoFromAlice (recalled : Int) : MessageInfo where
  msgId := 1
  seq := 1
  fromUid := "alice"
  toUid := "bob"
  content := "hello"
  recalled := recalled
  createdAt := "2024-05-01 12:00:00"

/-- The statements of one call, which finds the message like this and comes
in time, up to the UPDATE. -/
def recallChecks (index : Nat) (recalled : Int) : List RecallMove :=
  [.enter ⟨1, "alice", "bob", ""⟩,
    .exec index (.sql .getConnection) true,
    .exec index (.sql (.query (.selectMessage 1)))
      ⟨true, some (some (infoFromAlice recalled))⟩,
    .exec index (.sql .returnConnection) (),
    .exec index (.session (.repository .time)) (60 : Int),
    .exec index (.session (.repository (.mktime
      (ChatService.parseCreatedAt "2024-05-01 12:00:00")))) (0 : Int),
    .exec index (.sql .getConnection) true]

/-- The call with the answer of its UPDATE. -/
def recallCalls (index : Nat) (recalled : Int) (affected : Option Nat) :
    List RecallMove :=
  recallChecks index recalled ++
    [.exec index (.sql (.query (.updateRecalled 1 "alice")))
        ⟨true, affected⟩,
      .exec index (.sql .returnConnection) ()]

theorem recall_touches_aliceRecalls : ∃ last,
    Runs.runFrom (WatchedThreads.step system)
        (start { messages := AutoTable.empty.insert fromAlice })
        (recallCalls 0 0 (some 1)) = some last ∧
      RecallsOnce (last.callEffects 0) ⟨1, "alice", "bob", ""⟩ := by
  have harrives : Runs.EachStep (WatchedThreads.step system) AnswersArrive
      (start { messages := AutoTable.empty.insert fromAlice })
      (recallCalls 0 0 (some 1)) := by
    apply Runs.eachStep_of_forall
    intro move hmove watched
    simp only [recallCalls, recallChecks, List.cons_append, List.nil_append,
      List.mem_cons, List.not_mem_nil, or_false] at hmove
    rcases hmove with rfl | rfl | rfl | rfl | rfl | rfl | rfl | rfl | rfl
    all_goals first | trivial | (intro _ hlost; cases hlost)
  have htouched := (recall_touches_ownRow harrives).1 _ _
    (List.prefix_refl _) rfl
  exact ⟨_, rfl, htouched.succeeded 0 _ { success := true } rfl rfl rfl⟩

/-- The UPDATE is executed and its answer is lost: the call fails, and the
message is recalled. -/
theorem recall_touches_fails_lostAnswer :
    ¬ Runs.Always (WatchedThreads.step system) TouchesOwnRow
        (start { messages := AutoTable.empty.insert fromAlice })
        (recallCalls 0 0 none) := by
  intro halways
  have htouched := halways _ _ (List.prefix_refl _) rfl
  have hunchanged := htouched.failed 0 _ { reason := "recall failed" } rfl
    rfl rfl _ (List.mem_cons_of_mem _ List.mem_cons_self)
  have hrow := congrArg (fun table => (AutoTable.get? table 1).map
    MessageRow.recalled) hunchanged
  cases hrow

end Recall

end MuduoChat
