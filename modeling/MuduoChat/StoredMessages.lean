import MuduoChat.MessageThreads

/-!
# Messages once they are stored

A stored message keeps what it was inserted with; a recall marks it and
changes nothing else.  Neither does time, nor any statement sent for other
purposes.
-/

namespace MuduoChat.Database

/-- The row was inserted like this, and perhaps recalled since. -/
def Stored (db : Database) (msgId : Int) (row : MessageRow) : Prop :=
  ∃ recalled recallTime, db.messages.get? msgId =
    some { row with recalled := recalled, recallTime := recallTime }

/-- A row of the user's queue that is not marked as delivered. -/
def Waiting (db : Database) (uid : String) (msgId : Int) : Prop :=
  ∃ entry ∈ db.offlineMessages.entries, entry.2.targetUid = uid ∧
    entry.2.msgId = msgId ∧ entry.2.delivered = 0

/-- The database after statements that are allowed, as time goes by. -/
inductive Later (allowed : Statement → Prop) (db : Database) :
    Database → Prop
  | refl : Later allowed db db
  | execute {after : Database} (statement : Statement)
      (hafter : Later allowed db after) (hallowed : allowed statement) :
      Later allowed db (after.execStatement statement).1
  | tick {after : Database} (clock : String) (now : Int)
      (hafter : Later allowed db after) :
      Later allowed db { after with clock := clock, now := now }

variable {db after : Database} {msgId : Int} {row : MessageRow}
  {uid : String}

theorem stored_insertMessage {seq : Int} {roomId : Option Int}
    {sender : String} {recipient : Option String} {content : String}
    (hinsert : db.execStatement
      (.insertMessage seq roomId sender recipient content) =
        (after, some msgId)) :
    after.Stored msgId
      { seq := seq
        roomId := roomId
        fromUid := sender
        toUid := recipient
        content := content
        createdAt := db.clock } := by
  simp only [execStatement] at hinsert
  split at hinsert
  · cases hinsert
    refine ⟨0, none, ?_⟩
    dsimp only
    rw [AutoTable.get?_insert, if_pos rfl]
  · cases hinsert

theorem Stored.execStatement (hstored : db.Stored msgId row)
    (statement : Statement) :
    (db.execStatement statement).1.Stored msgId row := by
  obtain ⟨recalled, recallTime, hrow⟩ := hstored
  unfold Stored
  have hmessages := messagesAfter_execStatement db statement
  generalize (db.execStatement statement).1.messages = messages at hmessages ⊢
  cases hmessages with
  | insert seq roomId fromUid toUid content hsender =>
      have hlt := (db.messages.fresh _ (AutoTable.mem_of_get? hrow)).2
      rw [AutoTable.get?_insert, if_neg (Int.ne_of_lt hlt)]
      exact ⟨recalled, recallTime, hrow⟩
  | refuse => exact ⟨recalled, recallTime, hrow⟩
  | mark other uid =>
      rw [AutoTable.get?_update, hrow, Option.map_some]
      split
      · exact ⟨_, _, rfl⟩
      · exact ⟨_, _, rfl⟩
  | keep => exact ⟨recalled, recallTime, hrow⟩

/-- Only the recipient's own statement takes an offline message from the
queue. -/
theorem Waiting.execStatement (hwaiting : db.Waiting uid msgId)
    {statement : Statement} (hother : statement ≠ .updateDelivered uid) :
    (db.execStatement statement).1.Waiting uid msgId := by
  obtain ⟨entry, hentry, huid, hid, hdelivered⟩ := hwaiting
  cases statement with
  | insertOfflineMessage targetUid other =>
      simp only [Database.execStatement]
      split
      · exact ⟨entry, List.mem_append_left _ hentry, huid, hid, hdelivered⟩
      · exact ⟨entry, hentry, huid, hid, hdelivered⟩
  | updateDelivered other =>
      refine ⟨_, List.mem_map_of_mem hentry, ?_⟩
      have hselected : (entry.2.targetUid = other &&
          entry.2.delivered = 0 : Bool) = false := by
        have hne : uid ≠ other := fun heq => hother (heq ▸ rfl)
        simp [huid, hne]
      simp only [hselected]
      exact ⟨huid, hid, hdelivered⟩
  | insertIgnoreFriendship | insertMessage | insertUser | insertRoom
  | insertIgnoreRoomMember =>
      simp only [Database.execStatement]
      split <;> exact ⟨entry, hentry, huid, hid, hdelivered⟩
  | insertSession =>
      simp only [Database.execStatement]
      split_ifs <;> exact ⟨entry, hentry, huid, hid, hdelivered⟩
  | _ => exact ⟨entry, hentry, huid, hid, hdelivered⟩

theorem Stored.later {allowed : Statement → Prop}
    (hstored : db.Stored msgId row) (hlater : db.Later allowed after) :
    after.Stored msgId row := by
  induction hlater with
  | refl => exact hstored
  | execute statement _ _ ih => exact ih.execStatement statement
  | tick clock now _ ih => exact ih

theorem Waiting.later {allowed : Statement → Prop}
    (hwaiting : db.Waiting uid msgId) (hlater : db.Later allowed after)
    (hallowed : ¬ allowed (.updateDelivered uid)) :
    after.Waiting uid msgId := by
  induction hlater with
  | refl => exact hwaiting
  | execute statement _ hstatement ih =>
      refine ih.execStatement ?_
      rintro rfl
      exact hallowed hstatement
  | tick clock now _ ih => exact ih

/-! ## What is read of a stored message -/

/-- The row a message was inserted with shows in its record. -/
structure Shows (info : MessageInfo) (msgId : Int) (row : MessageRow) :
    Prop where
  msgId : info.msgId = msgId
  fromUid : info.fromUid = row.fromUid
  toUid : info.toUid = row.toUid.getD ""
  content : info.content = row.content
  createdAt : info.createdAt = row.createdAt

theorem shows_messageInfo (db : Database) (msgId : Int) (row : MessageRow)
    (recalled : Int) (recallTime : Option String) :
    Shows (db.messageInfo msgId
      { row with recalled := recalled, recallTime := recallTime })
      msgId row :=
  ⟨rfl, rfl, rfl, rfl, rfl⟩

theorem Stored.selectMessage (hstored : db.Stored msgId row) :
    ∃ info, db.execStatement (.selectMessage msgId) =
        (db, some (some info)) ∧ Shows info msgId row := by
  obtain ⟨recalled, recallTime, hrow⟩ := hstored
  have hshows := shows_messageInfo db msgId row recalled recallTime
  refine ⟨_, ?_, hshows⟩
  rw [Database.execStatement, hrow]
  rfl

theorem Stored.selectUndelivered (hstored : db.Stored msgId row)
    (hwaiting : db.Waiting uid msgId) :
    ∃ infos, db.execStatement (.selectUndelivered uid) =
        (db, some infos) ∧
      (∃ info ∈ infos, info.msgId = msgId) ∧
      ∀ info ∈ infos, info.msgId = msgId → Shows info msgId row := by
  obtain ⟨recalled, recallTime, hrow⟩ := hstored
  obtain ⟨entry, hentry, huid, hid, hdelivered⟩ := hwaiting
  have hshows := shows_messageInfo db msgId row recalled recallTime
  refine ⟨_, rfl, ⟨_, List.mem_filterMap.mpr ⟨entry, ?_, ?_⟩,
    hshows.msgId⟩, ?_⟩
  · rw [List.mem_filter]
    exact ⟨hentry, by simp [huid, hdelivered]⟩
  · rw [hid, hrow]
    rfl
  · intro info hinfo hsame
    obtain ⟨other, _, hfound⟩ := List.mem_filterMap.mp hinfo
    obtain ⟨found, hget, rfl⟩ := Option.map_eq_some_iff.mp hfound
    have hother : other.2.msgId = msgId := hsame
    rw [hother, hrow] at hget
    cases hget
    rw [hother]
    exact hshows

end MuduoChat.Database
