import MuduoChat.NodeUsers

/-!
# Rows that stay

Friendships apart, no task of a node takes a row away, and hardly any row is
changed: a message can be recalled, and an offline message delivered.  All
other columns keep what was written first.  The services never queue an
offline message and never use the table of sessions, so that the one only
loses entries that wait, and the other stays as it is.
-/

namespace MuduoChat

/-! ## Tables that keep their rows -/

namespace KeyedTable

variable {Row Key : Type} {key : Row → Key} [DecidableEq Key]
  {table middle after : KeyedTable key}

/-- Every row is found again under its key. -/
def Keeps (table after : KeyedTable key) : Prop :=
  ∀ value row, table.get? value = some row → after.get? value = some row

theorem Keeps.refl (table : KeyedTable key) : table.Keeps table :=
  fun _ _ hrow => hrow

theorem Keeps.trans (hfirst : table.Keeps middle)
    (hsecond : middle.Keeps after) : table.Keeps after :=
  fun value row hrow => hsecond value row (hfirst value row hrow)

theorem keeps_insertIgnore (table : KeyedTable key) (added : Row) :
    table.Keeps (table.insertIgnore added) := by
  intro value row hrow
  rw [get?_insertIgnore, hrow]
  rfl

end KeyedTable

namespace AutoTable

variable {Row : Type} {changes : Row → Row → Prop}
  {table middle after : AutoTable Row}

/-- Every row is found again under its identifier, changed in no other way
than the relation allows. -/
def Keeps (changes : Row → Row → Prop) (table after : AutoTable Row) : Prop :=
  ∀ id row, table.get? id = some row →
    ∃ later, after.get? id = some later ∧ changes row later

/-- There are no new rows. -/
def AddsNone (table after : AutoTable Row) : Prop :=
  ∀ id, table.get? id = none → after.get? id = none

theorem Keeps.refl (hrefl : ∀ row, changes row row) (table : AutoTable Row) :
    table.Keeps changes table :=
  fun _ row hrow => ⟨row, hrow, hrefl row⟩

theorem Keeps.trans
    (htrans : ∀ first second third : Row, changes first second →
      changes second third → changes first third)
    (hfirst : table.Keeps changes middle)
    (hsecond : middle.Keeps changes after) : table.Keeps changes after := by
  intro id row hrow
  obtain ⟨next, hnext, hchanged⟩ := hfirst id row hrow
  obtain ⟨later, hlater, hagain⟩ := hsecond id next hnext
  exact ⟨later, hlater, htrans row next later hchanged hagain⟩

theorem keeps_insert (hrefl : ∀ row, changes row row) (table : AutoTable Row)
    (added : Row) : table.Keeps changes (table.insert added) := by
  intro id row hrow
  have hid : id ≠ table.next := by
    rintro rfl
    rw [get?_eq_none_of_next_le le_rfl] at hrow
    cases hrow
  refine ⟨row, ?_, hrefl row⟩
  rw [get?_insert, if_neg hid, hrow]

theorem keeps_update (hrefl : ∀ row, changes row row) (table : AutoTable Row)
    (selected : Int → Row → Bool) {change : Row → Row}
    (hchange : ∀ row, changes row (change row)) :
    table.Keeps changes (table.update selected change) := by
  intro id row hrow
  refine ⟨if selected id row then change row else row, ?_, ?_⟩
  · rw [get?_update, hrow]
    rfl
  · split
    · exact hchange row
    · exact hrefl row

theorem addsNone_update (table : AutoTable Row)
    (selected : Int → Row → Bool) (change : Row → Row) :
    table.AddsNone (table.update selected change) := by
  intro id hnone
  rw [get?_update, hnone]
  rfl

end AutoTable

/-! ## The tables of the node -/

/-- A message may have been recalled, perhaps more than once. -/
def RecalledAtMost (row later : MessageRow) : Prop :=
  later = row ∨ ∃ time,
    later = { row with recalled := 1, recallTime := some time }

def DeliveredAtMost (row later : OfflineRow) : Prop :=
  later = row ∨ later = { row with delivered := 1 }

theorem RecalledAtMost.refl (row : MessageRow) : RecalledAtMost row row :=
  .inl rfl

theorem RecalledAtMost.trans (first second third : MessageRow)
    (hfirst : RecalledAtMost first second)
    (hsecond : RecalledAtMost second third) : RecalledAtMost first third := by
  rcases hsecond with rfl | ⟨time, rfl⟩
  · exact hfirst
  · rcases hfirst with rfl | ⟨earlier, rfl⟩
    · exact .inr ⟨time, rfl⟩
    · exact .inr ⟨time, rfl⟩

theorem DeliveredAtMost.refl (row : OfflineRow) : DeliveredAtMost row row :=
  .inl rfl

theorem DeliveredAtMost.trans (first second third : OfflineRow)
    (hfirst : DeliveredAtMost first second)
    (hsecond : DeliveredAtMost second third) :
    DeliveredAtMost first third := by
  rcases hsecond with rfl | rfl
  · exact hfirst
  · rcases hfirst with rfl | rfl
    · exact .inr rfl
    · exact .inr rfl

namespace Database

/-- What becomes of the tables, that of the friendships apart. -/
structure Keeps (db after : Database) : Prop where
  users : db.users.Keeps after.users
  credentials : db.credentials.Keeps after.credentials
  members : db.roomMembers.Keeps after.roomMembers
  rooms : db.rooms.Keeps Eq after.rooms
  messages : db.messages.Keeps RecalledAtMost after.messages
  offline : db.offlineMessages.Keeps DeliveredAtMost after.offlineMessages
  unqueued : db.offlineMessages.AddsNone after.offlineMessages
  sessions : after.sessions = db.sessions

namespace Keeps

variable {db middle after : Database}

theorem of_eq (husers : after.users = db.users)
    (hcredentials : after.credentials = db.credentials)
    (hmembers : after.roomMembers = db.roomMembers)
    (hrooms : after.rooms = db.rooms)
    (hmessages : after.messages = db.messages)
    (hoffline : after.offlineMessages = db.offlineMessages)
    (hsessions : after.sessions = db.sessions) : db.Keeps after where
  users := husers ▸ .refl _
  credentials := hcredentials ▸ .refl _
  members := hmembers ▸ .refl _
  rooms := hrooms ▸ .refl Eq.refl _
  messages := hmessages ▸ .refl RecalledAtMost.refl _
  offline := hoffline ▸ .refl DeliveredAtMost.refl _
  unqueued := hoffline ▸ fun _ hnone => hnone
  sessions := hsessions

theorem refl (db : Database) : db.Keeps db :=
  of_eq rfl rfl rfl rfl rfl rfl rfl

theorem trans (hfirst : db.Keeps middle) (hsecond : middle.Keeps after) :
    db.Keeps after where
  users := hfirst.users.trans hsecond.users
  credentials := hfirst.credentials.trans hsecond.credentials
  members := hfirst.members.trans hsecond.members
  rooms := hfirst.rooms.trans (fun _ _ _ => Eq.trans) hsecond.rooms
  messages := hfirst.messages.trans RecalledAtMost.trans hsecond.messages
  offline := hfirst.offline.trans DeliveredAtMost.trans hsecond.offline
  unqueued id hnone := hsecond.unqueued id (hfirst.unqueued id hnone)
  sessions := hsecond.sessions.trans hfirst.sessions

/-! ### Statements -/

theorem insertUser (uid nickname email passwd : String) :
    db.Keeps (db.execStatement (.insertUser uid nickname email passwd)).1 := by
  simp only [Database.execStatement]
  split
  · exact .refl db
  · exact { refl db with
      users := KeyedTable.keeps_insertIgnore _ _
      credentials := KeyedTable.keeps_insertIgnore _ _ }

theorem insertRoom (name creator : String) :
    db.Keeps (db.execStatement (.insertRoom name creator)).1 := by
  simp only [Database.execStatement]
  split
  · exact { refl db with rooms := AutoTable.keeps_insert Eq.refl _ _ }
  · exact .refl db

theorem insertRoomMember (roomId : Int) (uid : String) (role : Int) :
    db.Keeps (db.execStatement
      (.insertIgnoreRoomMember roomId uid role)).1 := by
  simp only [Database.execStatement]
  split
  · exact { refl db with members := KeyedTable.keeps_insertIgnore _ _ }
  · exact .refl db

theorem insertMessage (seq : Int) (roomId : Option Int) (fromUid : String)
    (toUid : Option String) (content : String) :
    db.Keeps (db.execStatement
      (.insertMessage seq roomId fromUid toUid content)).1 := by
  simp only [Database.execStatement]
  split
  · exact { refl db with
      messages := AutoTable.keeps_insert RecalledAtMost.refl _ _ }
  · exact .refl db

theorem updateRecalled (msgId : Int) (uid : String) :
    db.Keeps (db.execStatement (.updateRecalled msgId uid)).1 :=
  { refl db with
    messages := AutoTable.keeps_update RecalledAtMost.refl _ _
      fun _ => .inr ⟨db.clock, rfl⟩ }

theorem updateDelivered (uid : String) :
    db.Keeps (db.execStatement (.updateDelivered uid)).1 :=
  { refl db with
    offline := AutoTable.keeps_update DeliveredAtMost.refl _ _
      fun _ => .inr rfl
    unqueued := AutoTable.addsNone_update _ _ _ }

/-- No task queues an offline message, takes a member away or writes a
session. -/
theorem execStatement {task : Task} {statement : Statement}
    (hsends : task.Sends statement) :
    db.Keeps (db.execStatement statement).1 := by
  obtain ⟨call, hmakes, hsends⟩ := hsends
  cases hsends with
  | insertUser => exact insertUser _ _ _ _
  | insertRoom name creator => exact insertRoom name creator
  | insertIgnoreRoomMember => exact insertRoomMember _ _ _
  | insertMessage => exact insertMessage _ _ _ _ _
  | updateRecalled msgId uid => exact updateRecalled msgId uid
  | updateDelivered uid => exact updateDelivered uid
  | insertOfflineMessage => cases hmakes
  | insertRequest | insertMirror =>
      simp only [Database.execStatement]
      split <;> exact of_eq rfl rfl rfl rfl rfl rfl rfl
  | _ => exact of_eq rfl rfl rfl rfl rfl rfl rfl

end Keeps

end Database

/-! ## Runs -/

namespace ChatNode

variable {config : ServerConfig} {node next : ChatNode} {action : Action}

theorem keeps_step
    (hnode : ∀ thread ∈ node.threads, (system config).Faithful thread)
    (hstep : step config node action = some next) :
    node.world.db.Keeps next.world.db :=
  related_step (fun _ _ => .of_eq rfl rfl rfl rfl rfl rfl rfl)
    (fun _ _ _ hsends => .execStatement hsends) hnode hstep

theorem faithful_of_run {world : NodeWorld} {actions : List Action}
    (hrun : Runs.runFrom (step config) { world := world } actions =
      some node) :
    ∀ thread ∈ node.threads, (system config).Faithful thread :=
  @Runs.invariant_of_run _ _ _
    (fun node => ∀ thread ∈ node.threads, (system config).Faithful thread)
    _ _ _ (by simp) (fun _ _ _ hstep hnode => faithful_step hstep hnode) hrun

/-- From any point of a run to any later one, whatever is received, executed
or lost in between. -/
theorem database_kept {world : NodeWorld} {before after : List Action}
    {last : ChatNode}
    (hbefore : Runs.runFrom (step config) { world := world } before =
      some node)
    (hafter : Runs.runFrom (step config) node after = some last) :
    node.world.db.Keeps last.world.db := by
  have hkept : (∀ thread ∈ last.threads, (system config).Faithful thread) ∧
      node.world.db.Keeps last.world.db :=
    @Runs.invariant_of_run _ _ _
      (fun last => (∀ thread ∈ last.threads, (system config).Faithful thread) ∧
        node.world.db.Keeps last.world.db)
      _ _ _ ⟨faithful_of_run hbefore, .refl _⟩
      (fun _ _ _ hstep hlast => ⟨faithful_step hstep hlast.1,
        hlast.2.trans (keeps_step hlast.1 hstep)⟩) hafter
  exact hkept.2

/-- Ann writes to herself. -/
def annWrites : List Action :=
  annLogin ++
    [.receive 0 (.chatMsg { recipient := "ann", content := "hi" }), .start] ++
    queryOf 0 (.insertMessage 1 none "ann" (some "ann") "hi") 1 ++
    [.finish 0, .callback 0 0]

/-- She takes the message back. -/
def annRecalls : List Action :=
  [.receive 0 (.recallMsg { msgId := 1, toUid := "ann" }), .start] ++
    queryOf 0 (.selectMessage 1)
      (some { msgId := 1, seq := 1, fromUid := "ann", toUid := "ann",
              content := "hi" }) ++
    [.exec 0 (.session (.repository .time)) (0 : Int),
      .exec 0 (.session (.repository (.mktime
        (ChatService.parseCreatedAt "")))) (0 : Int)] ++
    queryOf 0 (.updateRecalled 1 "ann") 1 ++ [.finish 0, .callback 0 0]

theorem database_kept_annRecalls : ∃ node last row later,
    Runs.runFrom (step twoWorkers) { world := { db := annRegistered } }
        annWrites = some node ∧
      Runs.runFrom (step twoWorkers) node annRecalls = some last ∧
      node.world.db.messages.get? 1 = some row ∧
      last.world.db.messages.get? 1 = some later ∧
      row.recalled = 0 ∧ later.recalled = 1 ∧ later.content = row.content ∧
      node.world.db.Keeps last.world.db := by
  obtain ⟨node, last, hbefore, hafter, row, later, hrow, hlater, hrecalled⟩ :
      ∃ node last, Runs.runFrom (step twoWorkers)
          { world := { db := annRegistered } } annWrites = some node ∧
        Runs.runFrom (step twoWorkers) node annRecalls = some last ∧
        ∃ row later, node.world.db.messages.get? 1 = some row ∧
          last.world.db.messages.get? 1 = some later ∧
          row.recalled = 0 ∧ later.recalled = 1 ∧
          later.content = row.content :=
    ⟨_, _, rfl, rfl, _, _, rfl, rfl, rfl, rfl, rfl⟩
  exact ⟨node, last, row, later, hbefore, hafter, hrow, hlater, hrecalled.1,
    hrecalled.2.1, hrecalled.2.2, database_kept hbefore hafter⟩

end ChatNode

end MuduoChat
