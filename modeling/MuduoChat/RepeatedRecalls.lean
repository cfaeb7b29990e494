import MuduoChat.MessageRecalls

/-!
# Recalling a message again

Nothing looks at the column `recalled`.  Whether a repeated recall succeeds is
left to the number of affected rows: the UPDATE writes the time of day, in
seconds, and affects no row if the message was recalled in the same second.
-/

namespace MuduoChat

/-- The call has written something into the row of the message. -/
def CallEffect.Recalls (effect : CallEffect) (msgId : Int) : Prop :=
  effect.after.db.messages.get? msgId ≠ effect.before.db.messages.get? msgId

def Database.recallTime (db : Database) (msgId : Int) : Option String :=
  (db.messages.get? msgId).bind MessageRow.recallTime

namespace Recall

/-- The call has returned success. -/
def Succeeds (watched : Watched) (index : Nat) (msgId : Int) : Prop :=
  ∃ (thread : RecallThread) (result : RecallResult),
    watched.state.threads[index]? = some thread ∧
      thread.prog = .ret result ∧ result.success = true ∧
      thread.op.msgId = msgId

/-- Of the calls that recall a message only one has succeeded, and what was
written into its row, with or without an answer, still stands. -/
structure RecalledOnce (watched : Watched) : Prop where
  once : ∀ index other msgId, Succeeds watched index msgId →
    Succeeds watched other msgId → index = other
  kept : ∀ effect ∈ watched.effects, ∀ msgId, effect.Recalls msgId →
    watched.state.world.db.recallTime msgId =
      effect.after.db.recallTime msgId

/-- An UPDATE for the author of a message that is recalled already is
executed only in the second of its recall. -/
def NotRepeated (watched : Watched) : RecallMove → Prop
  | .exec _ (.sql (.query (.updateRecalled msgId uid))) outcome =>
      outcome.executed = true → ∀ row,
        watched.state.world.db.messages.get? msgId = some row →
          row.fromUid = uid → row.recalled = 1 →
            row.recallTime = some watched.state.world.db.clock
  | _ => True

/-! ## The invariant -/

/-- Every recalled message has been recalled by one call, and has its time of
recall from it. -/
structure RecalledSingly (watched : Watched) : Prop where
  followed : Followed PhaseEffects watched
  settled : ∀ effect ∈ watched.effects, ∀ msgId, effect.Recalls msgId →
    ∃ row, watched.state.world.db.messages.get? msgId = some row ∧
      row.recalled = 1 ∧ row.recallTime = effect.after.db.recallTime msgId
  single : watched.effects.Pairwise fun later earlier =>
    ∀ msgId, later.Recalls msgId → ¬ earlier.Recalls msgId
  origin : ∀ msgId row,
    watched.state.world.db.messages.get? msgId = some row →
      row.recalled = 1 → ∃ effect ∈ watched.effects, effect.Recalls msgId

section Singly

variable {watched next : Watched} {move : RecallMove}

theorem RecalledSingly.recalledOnce (hwatched : RecalledSingly watched) :
    RecalledOnce watched where
  once := by
    intro index other msgId hsucceeds hagain
    have hrecalled {i : Nat} (hdone : Succeeds watched i msgId) :
        ∃ effect ∈ watched.effects, effect.index = i ∧
          effect.Recalls msgId := by
      obtain ⟨thread, result, hthread, hprog, hsuccess, rfl⟩ := hdone
      obtain ⟨phase, hrecall, hok, hphase⟩ :=
        hwatched.followed.returned hthread hprog
      obtain ⟨newer, effect, older, heffects, honly, _⟩ :=
        hphase.recalled (hok.mp hsuccess)
      have hmem : effect ∈ watched.callEffects i := by
        rw [heffects]
        exact List.mem_append_right newer List.mem_cons_self
      obtain ⟨hmem, hindex⟩ := List.mem_filter.mp hmem
      refine ⟨effect, hmem, by simpa using hindex, ?_⟩
      rw [← hrecall]
      exact honly.changed
    obtain ⟨effect, hmem, rfl, hrecalls⟩ := hrecalled hsucceeds
    obtain ⟨later, hlater, rfl, hrepeats⟩ := hrecalled hagain
    by_contra hne
    have hsymmetric : Std.Symm fun one two : CallEffect =>
        ∀ msgId, one.Recalls msgId → ¬ two.Recalls msgId :=
      ⟨fun one two hnot msgId htwo hone => hnot msgId hone htwo⟩
    have hdisjoint := hwatched.single.forall hmem hlater
      fun heq => hne (congrArg CallEffect.index heq)
    exact hdisjoint msgId hrecalls hrepeats
  kept := by
    intro effect heffect msgId hrecalls
    obtain ⟨row, hrow, _, htime⟩ :=
      hwatched.settled effect heffect msgId hrecalls
    rw [← htime, Database.recallTime, hrow]
    rfl

/-- The statements a thread makes. -/
theorem Followed.statement (hwatched : Followed PhaseEffects watched)
    {index : Nat} {thread : RecallThread}
    (hthread : watched.state.threads[index]? = some thread)
    {statement : Statement}
    {rest : QueryOutcome statement → NodeProg RecallResult}
    (hprog : thread.prog = .call (.sql (.query statement)) rest) :
    (∃ msgId, statement = .selectMessage msgId) ∨
      ∃ msgId uid, statement = .updateRecalled msgId uid := by
  obtain ⟨phase, hphase, _⟩ := hwatched.threads index thread hthread
  obtain ⟨after, hadvance, _⟩ := hphase.exec hprog ⟨false, none⟩
  cases statement with
  | selectMessage msgId => exact .inl ⟨msgId, rfl⟩
  | updateRecalled msgId uid => exact .inr ⟨msgId, uid, rfl⟩
  | _ => cases hadvance

/-- A call of a thread leaves the messages alone, or it is an UPDATE. -/
theorem Followed.messages_exec (hwatched : Followed PhaseEffects watched)
    {index : Nat} {thread : RecallThread}
    (hthread : watched.state.threads[index]? = some thread)
    {call : NodeCall} {answer : call.Answer} {world : NodeWorld}
    {rest : call.Answer → NodeProg RecallResult}
    (hprog : thread.prog = .call call rest)
    (heffect : watched.state.world.effect call answer = some world) :
    world.db.messages = watched.state.world.db.messages ∨
      ∃ msgId uid outcome,
        (⟨call, answer⟩ : Sigma NodeCall.Answer) =
            ⟨.sql (.query (.updateRecalled msgId uid)), outcome⟩ ∧
          outcome.executed = true ∧
          world.db.messages = watched.state.world.db.messages.update
            (selects msgId uid)
            (recalledAt watched.state.world.db.clock) := by
  rcases NodeWorld.exec_of_effect heffect with
    hsame | ⟨statement, outcome, hcall, hexecuted, hdb⟩
  · exact .inl (congrArg Database.messages hsame)
  · cases hcall
    rcases hwatched.statement hthread hprog with
      ⟨msgId, rfl⟩ | ⟨msgId, uid, rfl⟩
    · exact .inl (congrArg Database.messages hdb)
    · exact .inr ⟨msgId, uid, outcome, rfl, hexecuted,
        congrArg Database.messages hdb⟩

/-- A message that was recalled in the run is not changed by an UPDATE that is
not a repetition. -/
theorem get?_recallAgain {table : AutoTable MessageRow} {msgId id : Int}
    {uid clock : String} {row : MessageRow}
    (hrow : table.get? id = some row) (hrecalled : row.recalled = 1)
    (hallowed : id = msgId → row.fromUid = uid →
      row.recallTime = some clock) :
    (table.update (selects msgId uid) (recalledAt clock)).get? id =
      table.get? id := by
  rw [AutoTable.get?_update, hrow, Option.map_some]
  congr 1
  split
  · rename_i hselected
    simp only [selects, Bool.and_eq_true, decide_eq_true_eq] at hselected
    have htime := hallowed hselected.1 hselected.2
    cases row
    simp only [recalledAt, MessageRow.mk.injEq, and_true, true_and]
    exact ⟨hrecalled.symm, htime.symm⟩
  · rfl

theorem get?_recall_changed {table : AutoTable MessageRow} {msgId id : Int}
    {uid clock : String}
    (hchanged : (table.update (selects msgId uid)
      (recalledAt clock)).get? id ≠ table.get? id) :
    ∃ row, (table.update (selects msgId uid) (recalledAt clock)).get? id =
      some (recalledAt clock row) := by
  rw [AutoTable.get?_update] at hchanged ⊢
  cases hrow : table.get? id with
  | none =>
      rw [hrow] at hchanged
      exact (hchanged rfl).elim
  | some row =>
      rw [hrow, Option.map_some] at hchanged
      refine ⟨row, ?_⟩
      rw [Option.map_some]
      split
      · rfl
      · rename_i hnot
        rw [if_neg hnot] at hchanged
        exact (hchanged rfl).elim

section Exec

variable {index : Nat} {thread : RecallThread} {call : NodeCall}
  {answer : call.Answer} {world : NodeWorld}
  {rest : call.Answer → NodeProg RecallResult} {msgId : Int}

/-- What was recalled before is left alone. -/
theorem RecalledSingly.kept (hwatched : RecalledSingly watched)
    (hthread : watched.state.threads[index]? = some thread)
    (hprog : thread.prog = .call call rest)
    (heffect : watched.state.world.effect call answer = some world)
    (hallowed : NotRepeated watched (.exec index call answer))
    {effect : CallEffect} (hmem : effect ∈ watched.effects)
    (hrecalls : effect.Recalls msgId) :
    world.db.messages.get? msgId =
      watched.state.world.db.messages.get? msgId := by
  rcases hwatched.followed.messages_exec hthread hprog heffect with
    hsame | ⟨updated, uid, outcome, hcall, hexecuted, hmessages⟩
  · rw [hsame]
  · cases hcall
    obtain ⟨row, hrow, hrecalled, _⟩ :=
      hwatched.settled effect hmem msgId hrecalls
    rw [hmessages]
    apply get?_recallAgain hrow hrecalled
    rintro rfl huid
    exact hallowed hexecuted row hrow huid hrecalled

/-- What is changed is recalled now. -/
theorem RecalledSingly.recalled_exec (hwatched : RecalledSingly watched)
    (hthread : watched.state.threads[index]? = some thread)
    (hprog : thread.prog = .call call rest)
    (heffect : watched.state.world.effect call answer = some world)
    (hrecalls : CallEffect.Recalls ⟨index, watched.state.world, world⟩
      msgId) :
    ∃ row, world.db.messages.get? msgId = some row ∧ row.recalled = 1 ∧
      row.recallTime = world.db.recallTime msgId := by
  rcases hwatched.followed.messages_exec hthread hprog heffect with
    hsame | ⟨updated, uid, outcome, _, _, hmessages⟩
  · exact (hrecalls (congrArg (AutoTable.get? · msgId) hsame)).elim
  · have hchanged : world.db.messages.get? msgId ≠
        watched.state.world.db.messages.get? msgId := hrecalls
    rw [hmessages] at hchanged
    obtain ⟨row, hrow⟩ := get?_recall_changed hchanged
    rw [← hmessages] at hrow
    refine ⟨_, hrow, rfl, ?_⟩
    rw [Database.recallTime, hrow]
    rfl

theorem RecalledSingly.exec (hwatched : RecalledSingly watched)
    (hthread : watched.state.threads[index]? = some thread)
    (hprog : thread.prog = .call call rest)
    (heffect : watched.state.world.effect call answer = some world)
    (hallowed : NotRepeated watched (.exec index call answer))
    (hnext : Followed PhaseEffects next) (hworld : next.state.world = world)
    (heffects : next.effects =
      ⟨index, watched.state.world, world⟩ :: watched.effects) :
    RecalledSingly next := by
  refine ⟨hnext, ?_, ?_, ?_⟩
  · intro effect hmem msgId hrecalls
    rw [hworld]
    rw [heffects] at hmem
    rcases List.mem_cons.mp hmem with rfl | hold
    · exact hwatched.recalled_exec hthread hprog heffect hrecalls
    · rw [hwatched.kept hthread hprog heffect hallowed hold hrecalls]
      exact hwatched.settled effect hold msgId hrecalls
  · rw [heffects, List.pairwise_cons]
    refine ⟨?_, hwatched.single⟩
    intro earlier hearlier msgId hrecalls hbefore
    exact hrecalls
      (hwatched.kept hthread hprog heffect hallowed hearlier hbefore)
  · intro msgId row hrow hrecalled
    rw [hworld] at hrow
    rw [heffects]
    by_cases hchanged : world.db.messages.get? msgId =
        watched.state.world.db.messages.get? msgId
    · rw [hchanged] at hrow
      obtain ⟨effect, hmem, hrecalls⟩ := hwatched.origin msgId row hrow
        hrecalled
      exact ⟨effect, List.mem_cons_of_mem _ hmem, hrecalls⟩
    · exact ⟨_, List.mem_cons_self, hchanged⟩

end Exec

/-- A statement of somebody else leaves the recalled messages as they are and
recalls none. -/
theorem get?_bystander {db : Database} {statement : Statement} {msgId : Int}
    (hother : isUpdateRecalled statement = false) {row : MessageRow}
    (hrecalled : row.recalled = 1) :
    (db.execStatement statement).1.messages.get? msgId = some row ↔
      db.messages.get? msgId = some row := by
  have hafter := messagesAfter_execStatement db statement
  generalize (db.execStatement statement).1.messages = messages at hafter ⊢
  cases hafter with
  | insert =>
      rw [AutoTable.get?_insert]
      split
      · rename_i hid
        rw [hid, AutoTable.get?_eq_none_of_next_le le_rfl]
        refine iff_of_false ?_ (Option.some_ne_none row).symm
        rintro hnew
        cases hnew
        cases hrecalled
      · exact Iff.rfl
  | mark => cases hother
  | refuse | keep => exact Iff.rfl

theorem RecalledSingly.disturb (hwatched : RecalledSingly watched)
    (hnext : Followed PhaseEffects next)
    (heffects : next.effects = watched.effects)
    (hsame : ∀ msgId row, row.recalled = 1 →
      (next.state.world.db.messages.get? msgId = some row ↔
        watched.state.world.db.messages.get? msgId = some row)) :
    RecalledSingly next := by
  refine ⟨hnext, ?_, ?_, ?_⟩
  · intro effect hmem msgId hrecalls
    rw [heffects] at hmem
    obtain ⟨row, hrow, hrecalled, htime⟩ :=
      hwatched.settled effect hmem msgId hrecalls
    exact ⟨row, (hsame msgId row hrecalled).mpr hrow, hrecalled, htime⟩
  · rw [heffects]
    exact hwatched.single
  · intro msgId row hrow hrecalled
    rw [heffects]
    exact hwatched.origin msgId row ((hsame msgId row hrecalled).mp hrow)
      hrecalled

theorem RecalledSingly.step (hwatched : RecalledSingly watched)
    (hstep : watched.step system move = some next)
    (hallowed : NotRepeated watched move) : RecalledSingly next := by
  have hnext := hwatched.followed.phaseEffects_step hstep
  obtain ⟨state, hstate, rfl⟩ := Option.map_eq_some_iff.mp hstep
  cases ThreadSystem.stepped_of_step hstate with
  | enter op =>
      exact hwatched.disturb hnext rfl fun _ _ _ => Iff.rfl
  | exec hthread hprog heffect =>
      exact hwatched.exec hthread hprog heffect hallowed hnext rfl rfl
  | @disturb event world hdisturb =>
      refine hwatched.disturb hnext rfl ?_
      intro msgId row hrecalled
      cases event with
      | tick clock =>
          cases hdisturb
          exact Iff.rfl
      | execute statement =>
          obtain ⟨hother, hworld⟩ := Option.ite_none_left_eq_some.mp hdisturb
          cases hworld
          exact get?_bystander (Bool.not_eq_true _ ▸ hother) hrecalled

/-- After a step that leaves every recall as it was, the step was not a
repetition. -/
theorem notRepeated_of_recalledOnce (hwatched : RecalledSingly watched)
    (hstep : watched.step system move = some next)
    (hnext : RecalledOnce next) : NotRepeated watched move := by
  unfold NotRepeated
  split
  · rename_i moved index msgId uid outcome
    intro hexecuted row hrow huid hrecalled
    obtain ⟨state, hstate, rfl⟩ := Option.map_eq_some_iff.mp hstep
    cases ThreadSystem.stepped_of_step hstate with
    | @exec _ _ _ thread world rest hthread hprog heffect =>
        obtain ⟨effect, hmem, hrecalls⟩ :=
          hwatched.origin msgId row hrow hrecalled
        obtain ⟨same, hsame, _, htime⟩ :=
          hwatched.settled effect hmem msgId hrecalls
        rw [hrow] at hsame
        cases hsame
        have hstands := hnext.kept effect (List.mem_cons_of_mem _ hmem)
          msgId hrecalls
        rcases NodeWorld.query_of_effect heffect with
          ⟨_, _, rfl⟩ | ⟨hfailed, _, _⟩
        · rw [htime, ← hstands]
          show (AutoTable.get? (AutoTable.update _ _ _) msgId).bind
            MessageRow.recallTime = _
          rw [AutoTable.get?_update, hrow, Option.map_some]
          simp [huid]
        · rw [hfailed] at hexecuted
          cases hexecuted
  · trivial

end Singly

/-- No messages yet; users, rooms and everything else as in `db`. -/
def startEmpty (db : Database) : Watched :=
  start { db with messages := AutoTable.empty }

theorem startEmpty_recalledSingly (db : Database) :
    RecalledSingly (startEmpty db) where
  followed := start_followed _
  settled := by simp [startEmpty, start]
  single := .nil
  origin := by
    intro msgId row hrow
    cases hrow

/-- Every message is recalled once and keeps the time of its recall, along
exactly those interleavings in which no author's UPDATE is executed on a
message that is recalled already, except in the second of its recall. -/
theorem recalled_once_iff (db : Database) (moves : List RecallMove) :
    Runs.Always (WatchedThreads.step system) RecalledOnce (startEmpty db)
        moves ↔
      Runs.EachStep (WatchedThreads.step system) NotRepeated (startEmpty db)
        moves := by
  apply Runs.always_iff_eachStep_of_inv (startEmpty_recalledSingly db)
  · intro watched hwatched
    exact hwatched.recalledOnce
  · intro watched move next hstep hwatched hallowed
    exact hwatched.step hstep hallowed
  · intro watched move next hstep hwatched hnext
    exact notRepeated_of_recalledOnce hwatched hstep hnext

/-- Alice recalls her message twice, a second apart, and both calls
succeed. -/
theorem recalled_once_fails_secondLater :
    ¬ Runs.Always (WatchedThreads.step system) RecalledOnce
        (startEmpty { users := ⟨[{ uid := "alice" }], by decide⟩ })
        (.disturb (.tick "2024-05-01 12:00:00") ::
          .disturb (.execute (.insertMessage 1 none "alice" (some "bob")
            "hello")) ::
          recallCalls 0 0 (some 1) ++
            .disturb (.tick "2024-05-01 12:00:01") ::
              recallCalls 1 1 (some 1)) := by
  intro halways
  have hrecalled := halways _ _ (List.prefix_refl _) rfl
  have hsame := hrecalled.once 0 1 1
    ⟨_, { success := true }, rfl, rfl, rfl, rfl⟩
    ⟨_, { success := true }, rfl, rfl, rfl, rfl⟩
  cases hsame

end Recall

end MuduoChat
