import MuduoChat.NodeRooms

/-!
# Threads over the table of messages

Calls of the message repository run next to each other and next to whatever
else is executed on the same database.  A statement may fail, with or without
having been executed; a connection may not be available at any time.

A `WatchedThreads` also lists what every call of a thread has done to the
stores, newest first.
-/

namespace MuduoChat

/-! ## The threads and what happens beside them -/

/-- What happens beside the threads. -/
inductive Bystander where
  | tick (clock : String)
  /-- A statement of some other task is executed. -/
  | execute (statement : Statement)

/-- The statements in `reserved` are left to the threads. -/
def NodeWorld.bystand (reserved : Statement → Bool) (world : NodeWorld) :
    Bystander → Option NodeWorld
  | .tick clock => some { world with db := { world.db with clock := clock } }
  | .execute statement =>
      if reserved statement then none
      else some { world with db := (world.db.execStatement statement).1 }

abbrev MessageSystem (Op α : Type) :=
  ThreadSystem NodeWorld Op Bystander NodeCall NodeCall.Answer α

def messageSystem {Op α : Type} (program : Op → NodeProg α)
    (reserved : Statement → Bool) : MessageSystem Op α where
  program := program
  effect := NodeWorld.effect
  disturb := NodeWorld.bystand reserved

namespace NodeWorld

variable {world after : NodeWorld}

theorem query_of_effect {statement : Statement}
    {outcome : QueryOutcome statement}
    (heffect : world.effect (.sql (.query statement)) outcome = some after) :
    outcome.executed = true ∧
        (outcome.result = none ∨
          outcome.result = (world.db.execStatement statement).2) ∧
        after = { world with db := (world.db.execStatement statement).1 } ∨
      outcome.executed = false ∧ outcome.result = none ∧ after = world := by
  obtain ⟨db, hdb, rfl⟩ := Option.map_eq_some_iff.mp heffect
  rcases ChatNode.query_of_effect hdb with
    ⟨hexecuted, rfl, hresult⟩ | ⟨hfailed, hresult, rfl⟩
  · exact .inl ⟨hexecuted, hresult, rfl⟩
  · exact .inr ⟨hfailed, hresult, rfl⟩

/-- Only statements change the database. -/
theorem db_of_effect {call : NodeCall} {answer : call.Answer}
    (hcall : ∀ statement, call ≠ .sql (.query statement))
    (heffect : world.effect call answer = some after) :
    after.db = world.db := by
  cases call with
  | sql call =>
      cases call with
      | query statement => exact (hcall statement rfl).elim
      | _ =>
          cases heffect
          rfl
  | session call =>
      obtain ⟨redis, _, rfl⟩ := Option.map_eq_some_iff.mp heffect
      rfl

/-- Whatever a call of a thread does to the database is done by a statement
that is executed. -/
theorem exec_of_effect {call : NodeCall} {answer : call.Answer}
    (heffect : world.effect call answer = some after) :
    after.db = world.db ∨ ∃ statement outcome,
      (⟨call, answer⟩ : Sigma NodeCall.Answer) =
          ⟨.sql (.query statement), outcome⟩ ∧
        outcome.executed = true ∧
        after.db = (world.db.execStatement statement).1 := by
  by_cases hquery : ∃ statement, call = .sql (.query statement)
  · obtain ⟨statement, rfl⟩ := hquery
    rcases query_of_effect heffect with ⟨hexecuted, _, rfl⟩ | ⟨_, _, rfl⟩
    · exact .inr ⟨statement, answer, rfl, hexecuted, rfl⟩
    · exact .inl rfl
  · exact .inl (db_of_effect (not_exists.mp hquery) heffect)

end NodeWorld

/-! ## What a statement writes -/

section Writes

variable {db : Database}

/-- The table of messages after a statement. -/
inductive Database.MessagesAfter (db : Database) :
    Statement → AutoTable MessageRow → Prop
  | insert (seq : Int) (roomId : Option Int) (fromUid : String)
      (toUid : Option String) (content : String)
      (hsender : db.Registered fromUid) :
      MessagesAfter db (.insertMessage seq roomId fromUid toUid content)
        (db.messages.insert
          { seq := seq
            roomId := roomId
            fromUid := fromUid
            toUid := toUid
            content := content
            createdAt := db.clock })
  | refuse (seq : Int) (roomId : Option Int) (fromUid : String)
      (toUid : Option String) (content : String)
      (hsender : ¬ db.Registered fromUid) :
      MessagesAfter db (.insertMessage seq roomId fromUid toUid content)
        db.messages
  | mark (msgId : Int) (uid : String) :
      MessagesAfter db (.updateRecalled msgId uid)
        (db.messages.update
          (fun id row => decide (id = msgId) && decide (row.fromUid = uid))
          fun row =>
            { row with recalled := 1, recallTime := some db.clock })
  | keep {statement : Statement}
      (hinsert : ∀ seq roomId fromUid toUid content,
        statement ≠ .insertMessage seq roomId fromUid toUid content)
      (hrecall : ∀ msgId uid, statement ≠ .updateRecalled msgId uid) :
      MessagesAfter db statement db.messages

theorem messagesAfter_execStatement (db : Database) (statement : Statement) :
    db.MessagesAfter statement (db.execStatement statement).1.messages := by
  cases statement with
  | insertMessage seq roomId fromUid toUid content =>
      simp only [Database.execStatement]
      split
      · rename_i hsender
        exact .insert seq roomId fromUid toUid content hsender
      · rename_i hsender
        exact .refuse seq roomId fromUid toUid content hsender
  | updateRecalled msgId uid => exact .mark msgId uid
  | insertIgnoreFriendship | insertOfflineMessage | insertUser | insertRoom
  | insertIgnoreRoomMember =>
      simp only [Database.execStatement]
      split <;> exact .keep (by simp) (by simp)
  | insertSession =>
      simp only [Database.execStatement]
      split_ifs <;> exact .keep (by simp) (by simp)
  | _ => exact .keep (by simp) (by simp)

theorem rooms_subset_execStatement (db : Database) (statement : Statement) :
    db.rooms.entries ⊆ (db.execStatement statement).1.rooms.entries := by
  cases statement with
  | insertRoom name creator =>
      exact (Database.Grows.insertRoom name creator).rooms
  | insertIgnoreFriendship | insertMessage | insertOfflineMessage
  | insertUser | insertIgnoreRoomMember =>
      simp only [Database.execStatement]
      split <;> exact List.Subset.refl _
  | insertSession =>
      simp only [Database.execStatement]
      split_ifs <;> exact List.Subset.refl _
  | _ => exact List.Subset.refl _

end Writes

/-! ## Watched threads -/

/-- A call of a thread, with the stores before and after it. -/
structure CallEffect where
  index : Nat
  before : NodeWorld
  after : NodeWorld

/-- The call has left the table of messages alone. -/
def CallEffect.Unchanged (effect : CallEffect) : Prop :=
  effect.after.db.messages = effect.before.db.messages

structure WatchedThreads (Op α : Type) where
  state : Interleaving NodeWorld Op NodeCall NodeCall.Answer α
  effects : List CallEffect := []

namespace WatchedThreads

variable {Op α : Type}

def step (system : MessageSystem Op α) (watched : WatchedThreads Op α)
    (move : Move Op Bystander NodeCall NodeCall.Answer) :
    Option (WatchedThreads Op α) :=
  (system.step watched.state move).map fun next =>
    { state := next
      effects := match move with
        | .exec index _ _ =>
            ⟨index, watched.state.world, next.world⟩ :: watched.effects
        | _ => watched.effects }

/-- What the calls of one thread have done, newest first. -/
def callEffects (watched : WatchedThreads Op α) (index : Nat) :
    List CallEffect :=
  watched.effects.filter fun effect => effect.index = index

/-- The effects are those of threads that have started. -/
def Indexed (watched : WatchedThreads Op α) : Prop :=
  ∀ effect ∈ watched.effects, effect.index < watched.state.threads.length

section Step

variable {system : MessageSystem Op α} {watched next : WatchedThreads Op α}
  {move : Move Op Bystander NodeCall NodeCall.Answer}

theorem Indexed.step (hindexed : watched.Indexed)
    (hstep : watched.step system move = some next) : next.Indexed := by
  obtain ⟨state, hstate, rfl⟩ := Option.map_eq_some_iff.mp hstep
  intro effect heffect
  cases ThreadSystem.stepped_of_step hstate with
  | enter op =>
      have hlt := hindexed effect heffect
      simp only [List.length_append]
      omega
  | exec hthread =>
      rw [List.length_set]
      rcases List.mem_cons.mp heffect with rfl | hold
      · exact (List.getElem?_eq_some_iff.mp hthread).1
      · exact hindexed effect hold
  | disturb => exact hindexed effect heffect

/-- What holds of a thread that has done nothing, and is kept by its calls
and their effects, holds of all threads. -/
theorem forall_threads_step
    (good : Thread Op NodeCall NodeCall.Answer α → List CallEffect → Prop)
    (hindexed : watched.Indexed)
    (hstep : watched.step system move = some next)
    (hbegin : ∀ op, good (system.begin op) [])
    (hkeep : ∀ index call answer thread world rest,
      move = .exec index call answer →
      watched.state.threads[index]? = some thread →
      thread.prog = .call call rest →
      system.effect watched.state.world call answer = some world →
      good thread (watched.callEffects index) →
        good (thread.advance call answer (rest answer))
          (⟨index, watched.state.world, world⟩ ::
            watched.callEffects index))
    (hgood : ∀ index thread, watched.state.threads[index]? = some thread →
      good thread (watched.callEffects index)) :
    ∀ index thread, next.state.threads[index]? = some thread →
      good thread (next.callEffects index) := by
  obtain ⟨state, hstate, rfl⟩ := Option.map_eq_some_iff.mp hstep
  intro index thread hthread
  cases ThreadSystem.stepped_of_step hstate with
  | enter op =>
      rw [List.getElem?_append] at hthread
      split_ifs at hthread with hindex
      · exact hgood index thread hthread
      · rw [List.mem_singleton.mp (List.mem_of_getElem? hthread)]
        have hnone : watched.callEffects index = [] := by
          rw [callEffects, List.filter_eq_nil_iff]
          intro effect heffect
          have hlt := hindexed effect heffect
          rw [decide_eq_true_eq]
          omega
        show good _ (watched.callEffects index)
        rw [hnone]
        exact hbegin op
  | @exec moved call answer before world rest hbefore hprog heffect =>
      rcases getElem?_set_cases hthread with ⟨rfl, rfl⟩ | ⟨hne, hold⟩
      · have hkept := hkeep index call answer before world rest rfl hbefore
          hprog heffect (hgood index before hbefore)
        simpa [callEffects] using hkept
      · have hsame := hgood index thread hold
        simpa [callEffects, Ne.symm hne] using hsame
  | disturb => exact hgood index thread hthread

end Step

end WatchedThreads

end MuduoChat
