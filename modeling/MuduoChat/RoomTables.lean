import MuduoChat.KeptRows
import MuduoChat.SetHistories

/-!
# The tables of rooms and members

The room repository shows one relation from two sides, as the members of a
room and as the rooms of a user, and finds rooms by name and by identifier.
The server calls few of its methods; the tables are here under the statements
of all repositories, in any order.  That a member row has its room and that
names are unique are constraints of the schema, and so every statement keeps
them.  The sides agree as long as no name and no uid in the tables has a NUL,
at which the methods cut what they read.
-/

namespace MuduoChat

/-- Where at most one item fits, that one is found. -/
theorem find?_eq_some_iff_of_unique {α : Type*} {fits : α → Bool}
    {items : List α}
    (hunique : ∀ first ∈ items, ∀ second ∈ items, fits first = true →
      fits second = true → first = second) {item : α} :
    items.find? fits = some item ↔ item ∈ items ∧ fits item = true := by
  constructor
  · intro hfind
    exact ⟨List.mem_of_find?_eq_some hfind, List.find?_some hfind⟩
  · rintro ⟨hitem, hfits⟩
    cases hfind : items.find? fits with
    | none => exact absurd hfits (List.find?_eq_none.mp hfind item hitem)
    | some other =>
        rw [hunique other (List.mem_of_find?_eq_some hfind) item hitem
          (List.find?_some hfind) hfits]

/-! ## Statements -/

namespace Statement

/-- The statement makes the user a member; a room or a user that is not there
is passed over. -/
def Enters (db : Database) (roomId : Int) (uid : String) : Statement → Prop
  | insertIgnoreRoomMember room user _ =>
      room = roomId ∧ user = uid ∧
        (db.rooms.get? roomId).isSome = true ∧ db.Registered uid
  | _ => False

def Removes (roomId : Int) (uid : String) : Statement → Prop
  | deleteRoomMember room user => room = roomId ∧ user = uid
  | _ => False

end Statement

namespace Database

variable {db : Database} {statement : Statement} {roomId : Int}
  {uid : String}

theorem hasKey_execStatement :
    (db.execStatement statement).1.roomMembers.HasKey (roomId, uid) ↔
      statement.Enters db roomId uid ∨
        db.roomMembers.HasKey (roomId, uid) ∧
          ¬ statement.Removes roomId uid := by
  have hother
      (hsame : (db.execStatement statement).1.roomMembers = db.roomMembers) :
      (db.execStatement statement).1.roomMembers.HasKey (roomId, uid) ↔
        False ∨ db.roomMembers.HasKey (roomId, uid) ∧ ¬ False := by
    rw [hsame]
    simp
  cases statement with
  | insertIgnoreRoomMember room user role =>
      by_cases hallowed : (db.rooms.get? room).isSome ∧ db.Registered user
      · have hexec : (db.execStatement
            (.insertIgnoreRoomMember room user role)).1.roomMembers =
              db.roomMembers.insertIgnore ⟨room, user, role⟩ := by
          simp only [execStatement, if_pos hallowed]
        rw [hexec]
        constructor
        · rintro ⟨row, hrow, hkey⟩
          rcases KeyedTable.mem_insertIgnore.mp hrow with hold | ⟨-, rfl⟩
          · exact .inr ⟨⟨row, hold, hkey⟩, id⟩
          · cases hkey
            exact .inl ⟨rfl, rfl, hallowed⟩
        · rintro (⟨rfl, rfl, -⟩ | ⟨hold, -⟩)
          · exact KeyedTable.hasKey_insertIgnore_self db.roomMembers _
          · exact hold.insertIgnore _
      · have hexec : (db.execStatement
            (.insertIgnoreRoomMember room user role)).1.roomMembers =
              db.roomMembers := by
          simp only [execStatement, if_neg hallowed]
        rw [hexec]
        constructor
        · exact fun hold => .inr ⟨hold, id⟩
        · rintro (⟨rfl, rfl, hboth⟩ | ⟨hold, -⟩)
          · exact (hallowed hboth).elim
          · exact hold
  | deleteRoomMember room user =>
      show (db.roomMembers.delete fun row =>
        row.roomId = room && row.uid = user).HasKey (roomId, uid) ↔
          False ∨ _ ∧ ¬ (room = roomId ∧ user = uid)
      constructor
      · rintro ⟨row, hrow, hkey⟩
        obtain ⟨hold, hkept⟩ := KeyedTable.mem_delete.mp hrow
        cases hkey
        refine .inr ⟨⟨row, hold, rfl⟩, ?_⟩
        rintro ⟨rfl, rfl⟩
        simp at hkept
      · rintro (hnone | ⟨⟨row, hrow, hkey⟩, hother⟩)
        · exact hnone.elim
        · cases hkey
          refine ⟨row, KeyedTable.mem_delete.mpr ⟨hrow, ?_⟩, rfl⟩
          simp only [Bool.and_eq_false_iff, decide_eq_false_iff_not]
          exact not_and_or.mp fun hboth =>
            hother ⟨hboth.1.symm, hboth.2.symm⟩
  | insertMessage | insertOfflineMessage | insertRoom | insertUser =>
      apply hother
      simp only [execStatement]
      split <;> rfl
  | insertIgnoreFriendship =>
      apply hother
      simp only [execStatement]
      split <;> rfl
  | insertSession =>
      apply hother
      simp only [execStatement]
      split
      · rfl
      · split <;> rfl
  | _ => exact hother rfl

/-- Rooms are only ever added, under a name that is free. -/
theorem rooms_execStatement (db : Database) (statement : Statement) :
    (db.execStatement statement).1.rooms = db.rooms ∨
      ∃ name creator, statement = .insertRoom name creator ∧
        (∀ entry ∈ db.rooms.entries, entry.2.name ≠ name) ∧
        (db.execStatement statement).1.rooms =
          db.rooms.insert { name := name, creatorUid := creator } := by
  cases statement with
  | insertRoom name creator =>
      rcases db.insertRoom_cases name creator with ⟨⟨-, hfree⟩, hexec⟩ | hexec
      · exact .inr ⟨name, creator, rfl, hfree, by rw [hexec]⟩
      · exact .inl (by rw [hexec])
  | insertMessage | insertOfflineMessage | insertUser
  | insertIgnoreFriendship | insertIgnoreRoomMember =>
      left
      simp only [execStatement]
      split <;> rfl
  | insertSession =>
      left
      simp only [execStatement]
      split
      · rfl
      · split <;> rfl
  | _ => exact .inl rfl

/-! ## Answers -/

/-- What a method returns over a database that answers. -/
def answer {α : Type} (db : Database) (method : DbProg α) : α :=
  (Prog.run exec db method).2

theorem getRoomMembers_eq (db : Database) (roomId : Int) :
    db.answer (MySQLRoomRepo.getRoomMembers roomId) =
      (db.roomMembers.rows.filter fun row => row.roomId = roomId).map
        fun row => cstr row.uid := by
  simp [answer, MySQLRoomRepo.getRoomMembers, exec, execStatement,
    Function.comp_def]

theorem mem_getRoomMembers :
    uid ∈ db.answer (MySQLRoomRepo.getRoomMembers roomId) ↔
      ∃ member, cstr member = uid ∧
        db.roomMembers.HasKey (roomId, member) := by
  rw [getRoomMembers_eq, List.mem_map]
  constructor
  · rintro ⟨row, hrow, huid⟩
    obtain ⟨hrow, hroom⟩ := List.mem_filter.mp hrow
    refine ⟨row.uid, huid, row, hrow, ?_⟩
    rw [← of_decide_eq_true hroom]
    rfl
  · rintro ⟨member, huid, row, hrow, hkey⟩
    cases hkey
    exact ⟨row, List.mem_filter.mpr ⟨hrow, decide_eq_true rfl⟩, huid⟩

/-- No name of a room and no uid of a member has a NUL. -/
structure NulFreeRooms (db : Database) : Prop where
  names : ∀ entry ∈ db.rooms.entries, NulFree entry.2.name
  uids : ∀ row ∈ db.roomMembers, NulFree row.uid

theorem NulFreeRooms.mem_getRoomMembers (hdb : db.NulFreeRooms) :
    uid ∈ db.answer (MySQLRoomRepo.getRoomMembers roomId) ↔
      db.roomMembers.HasKey (roomId, uid) := by
  rw [Database.mem_getRoomMembers]
  constructor
  · rintro ⟨member, rfl, row, hrow, hkey⟩
    refine ⟨row, hrow, ?_⟩
    cases hkey
    rw [(hdb.uids row hrow).cstr]
    rfl
  · rintro ⟨row, hrow, hkey⟩
    cases hkey
    exact ⟨row.uid, (hdb.uids row hrow).cstr, row, hrow, rfl⟩

theorem NulFreeRooms.nodup_getRoomMembers (hdb : db.NulFreeRooms)
    (roomId : Int) :
    (db.answer (MySQLRoomRepo.getRoomMembers roomId)).Nodup := by
  rw [getRoomMembers_eq]
  have hrows := db.roomMembers.unique.of_map
  refine List.Nodup.map_on ?_ (hrows.filter _)
  intro first hfirst second hsecond huid
  obtain ⟨hfirst, hone⟩ := List.mem_filter.mp hfirst
  obtain ⟨hsecond, htwo⟩ := List.mem_filter.mp hsecond
  rw [(hdb.uids first hfirst).cstr, (hdb.uids second hsecond).cstr] at huid
  refine KeyedTable.eq_of_key_eq hfirst hsecond ?_
  exact Prod.ext ((of_decide_eq_true hone).trans
    (of_decide_eq_true htwo).symm) huid

theorem getRoomById_eq_some {room : RoomInfo} :
    db.answer (MySQLRoomRepo.getRoomById roomId) = some room ↔
      ∃ row, db.rooms.get? roomId = some row ∧
        (roomInfo (roomId, row)).ofRow = room := by
  have hanswer : db.answer (MySQLRoomRepo.getRoomById roomId) =
      (db.rooms.entries.find? fun entry => entry.1 = roomId).map
        fun entry => (roomInfo entry).ofRow := by
    simp [answer, MySQLRoomRepo.getRoomById, exec, execStatement,
      Function.comp_def]
  rw [hanswer, AutoTable.get?]
  cases hfind : db.rooms.entries.find? fun entry => entry.1 = roomId with
  | none => simp
  | some entry =>
      have hid : entry.1 = roomId := by simpa using List.find?_some hfind
      simp [← hid]

theorem mem_getUserRooms {room : RoomInfo} :
    room ∈ db.answer (MySQLRoomRepo.getUserRooms uid) ↔
      db.answer (MySQLRoomRepo.getRoomById room.roomId) = some room ∧
        db.roomMembers.HasKey (room.roomId, uid) := by
  have hanswer : db.answer (MySQLRoomRepo.getUserRooms uid) =
      (db.rooms.entries.filter fun entry =>
        db.roomMembers.HasKey (entry.1, uid)).map
          fun entry => (roomInfo entry).ofRow := by
    simp [answer, MySQLRoomRepo.getUserRooms, exec, execStatement,
      Function.comp_def]
  rw [hanswer, List.mem_map, getRoomById_eq_some]
  constructor
  · rintro ⟨entry, hentry, rfl⟩
    obtain ⟨hentry, hmember⟩ := List.mem_filter.mp hentry
    exact ⟨⟨entry.2, AutoTable.get?_of_mem hentry, rfl⟩,
      of_decide_eq_true hmember⟩
  · rintro ⟨⟨row, hget, hroom⟩, hmember⟩
    refine ⟨(room.roomId, row), List.mem_filter.mpr ⟨?_, ?_⟩, hroom⟩
    · exact AutoTable.mem_of_get? hget
    · exact decide_eq_true hmember

end Database

/-! ## What happens to a database -/

/-- Some client's statement is executed, or time goes on. -/
inductive DatabaseEvent where
  | executed (statement : Statement)
  | tick (clock : String)

namespace DatabaseEvent

def apply (db : Database) : DatabaseEvent → Database
  | executed statement => (db.execStatement statement).1
  | tick clock => { db with clock := clock }

def Enters (db : Database) (roomId : Int) (uid : String) :
    DatabaseEvent → Prop
  | executed statement => statement.Enters db roomId uid
  | tick _ => False

def Removes (roomId : Int) (uid : String) : DatabaseEvent → Prop
  | executed statement => statement.Removes roomId uid
  | tick _ => False

variable {db : Database} {event : DatabaseEvent} {roomId : Int}
  {uid : String}

theorem hasKey_apply :
    (event.apply db).roomMembers.HasKey (roomId, uid) ↔
      event.Enters db roomId uid ∨
        db.roomMembers.HasKey (roomId, uid) ∧
          ¬ event.Removes roomId uid := by
  cases event with
  | executed statement => exact Database.hasKey_execStatement
  | tick clock =>
      show db.roomMembers.HasKey (roomId, uid) ↔
        False ∨ db.roomMembers.HasKey (roomId, uid) ∧ ¬ False
      simp

theorem rooms_apply (db : Database) (event : DatabaseEvent) :
    (event.apply db).rooms = db.rooms ∨
      ∃ name creator,
        (∀ entry ∈ db.rooms.entries, entry.2.name ≠ name) ∧
        (event.apply db).rooms =
          db.rooms.insert { name := name, creatorUid := creator } := by
  cases event with
  | executed statement =>
      rcases db.rooms_execStatement statement with
        hsame | ⟨name, creator, -, hfree, hinsert⟩
      · exact .inl hsame
      · exact .inr ⟨name, creator, hfree, hinsert⟩
  | tick clock => exact .inl rfl

theorem rooms_keeps (db : Database) (event : DatabaseEvent) :
    db.rooms.Keeps Eq (event.apply db).rooms := by
  rcases rooms_apply db event with hsame | ⟨name, creator, -, hinsert⟩
  · rw [hsame]
    exact AutoTable.Keeps.refl (fun _ => rfl) db.rooms
  · rw [hinsert]
    exact AutoTable.keeps_insert (fun _ => rfl) db.rooms _

end DatabaseEvent

/-! ## Constraints -/

/-- A database whose member rows have their rooms and whose rooms have
different names. -/
structure RoomDatabase where
  db : Database
  placed : ∀ row ∈ db.roomMembers, (db.rooms.get? row.roomId).isSome = true
  named : (db.rooms.entries.map fun entry => entry.2.name).Nodup

namespace RoomDatabase

open Database

variable {stored : RoomDatabase} {roomId : Int} {uid name : String}

theorem placed_iff {db : Database} :
    (∀ row ∈ db.roomMembers, (db.rooms.get? row.roomId).isSome = true) ↔
      ∀ roomId uid, db.roomMembers.HasKey (roomId, uid) →
        (db.rooms.get? roomId).isSome = true := by
  constructor
  · rintro hplaced roomId uid ⟨row, hrow, hkey⟩
    cases hkey
    exact hplaced row hrow
  · exact fun hplaced row hrow => hplaced row.roomId row.uid ⟨row, hrow, rfl⟩

theorem isSome_apply {db : Database} {roomId : Int}
    (hroom : (db.rooms.get? roomId).isSome = true) (event : DatabaseEvent) :
    ((event.apply db).rooms.get? roomId).isSome = true := by
  obtain ⟨row, hrow⟩ := Option.isSome_iff_exists.mp hroom
  obtain ⟨later, hlater, -⟩ := event.rooms_keeps db roomId row hrow
  rw [hlater]
  rfl

def apply (stored : RoomDatabase) (event : DatabaseEvent) : RoomDatabase where
  db := event.apply stored.db
  placed := by
    refine placed_iff.mpr fun roomId uid hkey => ?_
    rcases DatabaseEvent.hasKey_apply.mp hkey with henters | ⟨hold, -⟩
    · have hroom : (stored.db.rooms.get? roomId).isSome = true := by
        cases event with
        | executed statement =>
            cases statement with
            | insertIgnoreRoomMember room user role => exact henters.2.2.1
            | _ => exact henters.elim
        | tick clock => exact henters.elim
      exact isSome_apply hroom event
    · exact isSome_apply (placed_iff.mp stored.placed roomId uid hold) event
  named := by
    rcases event.rooms_apply stored.db with
      hsame | ⟨name, creator, hfree, hinsert⟩
    · rw [hsame]
      exact stored.named
    · rw [hinsert, AutoTable.insert, List.map_append, List.map_singleton,
        List.nodup_append]
      refine ⟨stored.named, List.nodup_singleton _, ?_⟩
      intro old hold new hnew heq
      obtain ⟨entry, hentry, rfl⟩ := List.mem_map.mp hold
      rw [List.mem_singleton.mp hnew] at heq
      exact hfree entry hentry heq

def after (stored : RoomDatabase) (events : List DatabaseEvent) :
    RoomDatabase :=
  events.foldl apply stored

theorem after_concat (stored : RoomDatabase) (events : List DatabaseEvent)
    (event : DatabaseEvent) :
    stored.after (events ++ [event]) =
      (stored.after events).apply event := by
  rw [after, List.foldl_append]
  rfl

/-- The constraints are kept, they do not change what a statement does. -/
theorem db_after (stored : RoomDatabase) (events more : List DatabaseEvent) :
    (stored.after (events ++ more)).db =
      more.foldl (fun db event => event.apply db)
        (stored.after events).db := by
  induction more using List.reverseRecOn with
  | nil => simp
  | append_singleton more event ih =>
      rw [← List.append_assoc, after_concat, List.foldl_append, ← ih]
      rfl

theorem getRoomByName_eq_some {room : RoomInfo} :
    stored.db.answer (MySQLRoomRepo.getRoomByName name) = some room ↔
      ∃ row, stored.db.rooms.get? room.roomId = some row ∧
        row.name = name ∧ (roomInfo (room.roomId, row)).ofRow = room := by
  have hanswer : stored.db.answer (MySQLRoomRepo.getRoomByName name) =
      (stored.db.rooms.entries.find? fun entry =>
        entry.2.name = name).map fun entry => (roomInfo entry).ofRow := by
    simp [answer, MySQLRoomRepo.getRoomByName, Database.exec, execStatement,
      Function.comp_def]
  have hunique : ∀ first ∈ stored.db.rooms.entries,
      ∀ second ∈ stored.db.rooms.entries,
        decide (first.2.name = name) = true →
          decide (second.2.name = name) = true → first = second := by
    intro first hfirst second hsecond hone htwo
    exact List.inj_on_of_nodup_map stored.named hfirst hsecond
      ((of_decide_eq_true hone).trans (of_decide_eq_true htwo).symm)
  rw [hanswer, Option.map_eq_some_iff]
  constructor
  · rintro ⟨entry, hentry, rfl⟩
    obtain ⟨hentry, hname⟩ :=
      (find?_eq_some_iff_of_unique hunique).mp hentry
    exact ⟨entry.2, AutoTable.get?_of_mem hentry, of_decide_eq_true hname,
      rfl⟩
  · rintro ⟨row, hget, hname, hroom⟩
    exact ⟨(room.roomId, row), (find?_eq_some_iff_of_unique hunique).mpr
      ⟨AutoTable.mem_of_get? hget, decide_eq_true hname⟩, hroom⟩

/-! ## Histories -/

theorem mem_after (stored : RoomDatabase) (events : List DatabaseEvent)
    (roomId : Int) (uid : String) :
    (stored.after events).db.roomMembers.HasKey (roomId, uid) ↔
      Since (fun before event =>
          event.Enters (stored.after before).db roomId uid)
        (DatabaseEvent.Removes roomId uid) events ∨
      stored.db.roomMembers.HasKey (roomId, uid) ∧
        ∀ event ∈ events, ¬ event.Removes roomId uid := by
  induction events using List.reverseRecOn with
  | nil => simp [after]
  | append_singleton events event ih =>
      rw [after_concat, since_concat, List.forall_mem_append]
      refine DatabaseEvent.hasKey_apply.trans ?_
      rw [ih]
      simp only [List.mem_singleton, forall_eq]
      tauto

theorem getRoomById_after {room : RoomInfo} (events : List DatabaseEvent)
    (hroom : stored.db.answer (MySQLRoomRepo.getRoomById roomId) =
      some room) :
    (stored.after events).db.answer (MySQLRoomRepo.getRoomById roomId) =
      some room := by
  induction events using List.reverseRecOn with
  | nil => exact hroom
  | append_singleton events event ih =>
      obtain ⟨row, hrow, hinfo⟩ := getRoomById_eq_some.mp ih
      obtain ⟨later, hlater, rfl⟩ :=
        event.rooms_keeps (stored.after events).db roomId row hrow
      rw [after_concat]
      exact getRoomById_eq_some.mpr ⟨row, hlater, hinfo⟩

/-- A room that `createRoom` reports is there, for good. -/
theorem getRoomById_createRoom {creator : String}
    (hcreated : 0 < stored.db.answer
      (MySQLRoomRepo.createRoom name creator))
    (events : List DatabaseEvent) :
    ((stored.apply (.executed (.insertRoom name creator))).after
        events).db.answer
        (MySQLRoomRepo.getRoomById
          (stored.db.answer (MySQLRoomRepo.createRoom name creator))) =
      some {
        roomId := stored.db.answer (MySQLRoomRepo.createRoom name creator)
        name := cstr name
        creatorUid := cstr creator } := by
  refine getRoomById_after events ?_
  have hanswer : stored.db.answer (MySQLRoomRepo.createRoom name creator) =
      (stored.db.execStatement (.insertRoom name creator)).2.getD 0 := by
    simp [answer, MySQLRoomRepo.createRoom, Database.exec]
  rw [hanswer] at hcreated ⊢
  rcases stored.db.insertRoom_cases name creator with ⟨-, hexec⟩ | hexec
  · refine getRoomById_eq_some.mpr ⟨⟨name, creator, 0⟩, ?_, ?_⟩
    · show (stored.db.execStatement (.insertRoom name creator)).1.rooms.get?
        _ = _
      rw [hexec]
      exact (AutoTable.get?_insert _ _ _).trans (if_pos rfl)
    · rfl
  · rw [hexec] at hcreated
    simp at hcreated

/-- The methods that read show one relation. -/
structure ViewsAgree (db : Database) : Prop where
  distinct : ∀ roomId,
    (db.answer (MySQLRoomRepo.getRoomMembers roomId)).Nodup
  userRooms : ∀ uid room,
    room ∈ db.answer (MySQLRoomRepo.getUserRooms uid) ↔
      db.answer (MySQLRoomRepo.getRoomById room.roomId) = some room ∧
        uid ∈ db.answer (MySQLRoomRepo.getRoomMembers room.roomId)
  placed : ∀ roomId uid,
    uid ∈ db.answer (MySQLRoomRepo.getRoomMembers roomId) →
      ∃ room ∈ db.answer (MySQLRoomRepo.getUserRooms uid),
        room.roomId = roomId
  byName : ∀ name room,
    db.answer (MySQLRoomRepo.getRoomByName name) = some room ↔
      db.answer (MySQLRoomRepo.getRoomById room.roomId) = some room ∧
        room.name = name

theorem viewsAgree (hstored : stored.db.NulFreeRooms) :
    ViewsAgree stored.db where
  distinct := hstored.nodup_getRoomMembers
  userRooms uid room := by
    rw [mem_getUserRooms, hstored.mem_getRoomMembers]
  placed := by
    intro roomId uid hmember
    have hkey := hstored.mem_getRoomMembers.mp hmember
    have hroom := placed_iff.mp stored.placed roomId uid hkey
    obtain ⟨row, hrow⟩ := Option.isSome_iff_exists.mp hroom
    exact ⟨(roomInfo (roomId, row)).ofRow, mem_getUserRooms.mpr
      ⟨getRoomById_eq_some.mpr ⟨row, hrow, rfl⟩, hkey⟩, rfl⟩
  byName name room := by
    rw [getRoomByName_eq_some, getRoomById_eq_some]
    have hread {row : RoomRow}
        (hget : stored.db.rooms.get? room.roomId = some row)
        (hroom : (roomInfo (room.roomId, row)).ofRow = room) :
        room.name = row.name := by
      rw [← hroom]
      exact (hstored.names _ (AutoTable.mem_of_get? hget)).cstr
    constructor
    · rintro ⟨row, hget, hname, hroom⟩
      exact ⟨⟨row, hget, hroom⟩, (hread hget hroom).trans hname⟩
    · rintro ⟨⟨row, hget, hroom⟩, hname⟩
      exact ⟨row, hget, (hread hget hroom).symm.trans hname, hroom⟩

/-- A name with a NUL is not read back as it was asked for, and a member whose
uid has one is not listed under it. -/
theorem nulFreeRooms_of_viewsAgree (hviews : ViewsAgree stored.db) :
    stored.db.NulFreeRooms where
  names entry hentry := by
    have hget : stored.db.rooms.get? entry.1 = some entry.2 :=
      AutoTable.get?_of_mem hentry
    obtain ⟨-, hname⟩ := (hviews.byName entry.2.name
      (roomInfo entry).ofRow).mp
        (getRoomByName_eq_some.mpr ⟨entry.2, hget, rfl, rfl⟩)
    exact cstr_eq_self.mp hname
  uids row hrow := by
    have hkey : stored.db.roomMembers.HasKey (row.roomId, row.uid) :=
      ⟨row, hrow, rfl⟩
    obtain ⟨room, hroom⟩ := Option.isSome_iff_exists.mp
      (placed_iff.mp stored.placed row.roomId row.uid hkey)
    obtain ⟨-, hmember⟩ := (hviews.userRooms row.uid
      (roomInfo (row.roomId, room)).ofRow).mp
        (mem_getUserRooms.mpr
          ⟨getRoomById_eq_some.mpr ⟨room, hroom, rfl⟩, hkey⟩)
    obtain ⟨member, huid, -⟩ := mem_getRoomMembers.mp hmember
    rw [← huid]
    exact nulFree_cstr member

theorem viewsAgree_iff (stored : RoomDatabase) :
    ViewsAgree stored.db ↔ stored.db.NulFreeRooms :=
  ⟨nulFreeRooms_of_viewsAgree, viewsAgree⟩

def annStored : RoomDatabase where
  db := ChatNode.annRegistered
  placed := by simp [ChatNode.annRegistered]
  named := .nil

example :
    (annStored.after [.executed (.insertRoom "tea" "ann"),
        .executed (.insertIgnoreRoomMember 1 "ann" 0)]).db.answer
      (MySQLRoomRepo.getRoomMembers 1) = ["ann"] := rfl

end RoomDatabase

namespace ChatNode

open ThreadSystem

variable {config : ServerConfig} {node next : ChatNode} {action : Action}

theorem event_of_step
    (hnode : ∀ thread ∈ node.threads, (system config).Faithful thread)
    (hstep : step config node action = some next) :
    ∃ events : List DatabaseEvent,
      next.world.db =
        events.foldl (fun db event => event.apply db) node.world.db := by
  refine @related_step _ _ _ _
    (fun db later => ∃ events : List DatabaseEvent,
      later = events.foldl (fun db event => event.apply db) db)
    ?_ ?_ hnode hstep
  · exact fun _ clock => ⟨[.tick clock], rfl⟩
  · exact fun _ _ statement _ => ⟨[.executed statement], rfl⟩

/-- The database of a running node has such a history. -/
theorem roomHistory_of_run {stored : RoomDatabase} {world : NodeWorld}
    {actions : List Action} (hworld : world.db = stored.db)
    (hrun : Runs.runFrom (step config) { world := world } actions =
      some node) :
    ∃ events, node.world.db = (stored.after events).db := by
  have hkept : (∀ thread ∈ node.threads, (system config).Faithful thread) ∧
      ∃ events, node.world.db = (stored.after events).db := by
    refine @Runs.invariant_of_run _ _ _
      (fun last => (∀ thread ∈ last.threads,
        (system config).Faithful thread) ∧
        ∃ events, last.world.db = (stored.after events).db)
      _ _ _ ⟨by simp, [], hworld⟩ ?_ hrun
    rintro last action next hstep ⟨hlast, events, hevents⟩
    refine ⟨faithful_step hstep hlast, ?_⟩
    obtain ⟨more, hmore⟩ := event_of_step hlast hstep
    exact ⟨events ++ more, by rw [hmore, hevents, RoomDatabase.db_after]⟩
  exact hkept.2

end ChatNode

end MuduoChat
