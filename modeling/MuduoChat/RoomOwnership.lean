import MuduoChat.NodeRooms

/-!
# Who owns a room

`createRoom` looks for the name, inserts the room and then enters the creator
with the owner's role; `joinRoom` enters a user with an ordinary role.  Both
entries ignore a row that is there already.  The unique name decides between
several creators, but nothing keeps a creator from joining the new room
between the two insertions, and then the ordinary role stays.

`RoomPhase` follows one execution; `RoomsOwned` says what the executions have
made of the tables.
-/

namespace MuduoChat

/-! ## Creating and joining -/

inductive RoomOp where
  | createRoom (name creator : String)
  | joinRoom (name uid : String)

def RoomOp.service : RoomOp → ServiceProg RoomResult
  | createRoom name creator => RoomService.createRoom name creator
  | joinRoom name uid => RoomService.joinRoom name uid

def roomSystem : ThreadSystem NodeWorld RoomOp NodeEvent NodeCall
    NodeCall.Answer RoomResult where
  program op := op.service.translate answerRepository
  effect := NodeWorld.effect
  disturb := NodeWorld.disturb

abbrev RoomState :=
  Interleaving NodeWorld RoomOp NodeCall NodeCall.Answer RoomResult

abbrev RoomMove := Move RoomOp NodeEvent NodeCall NodeCall.Answer

/-- How far an execution has come: `owing` has inserted its room and not yet
entered the owner, `owned` has done both.  An execution that got no connection
is `stuck`. -/
inductive RoomPhase where
  | creating (name creator : String)
  | owing (name creator : String) (roomId : Int)
  | owned (name creator : String) (roomId : Int)
  | refused
  | joining
  | stuck
  deriving DecidableEq

namespace RoomPhase

def advance (phase : RoomPhase) :
    (call : NodeCall) → call.Answer → Option RoomPhase
  | .sql .getConnection, conn => some (if conn = true then phase else stuck)
  | .sql (.query (.insertRoom name creator)), outcome =>
      if phase = stuck then some stuck
      else if phase = creating name creator then
        match outcome.result with
        | some roomId =>
            if 0 < roomId then some (owing name creator roomId)
            else some refused
        | none => some refused
      else none
  | .sql (.query (.insertIgnoreRoomMember roomId uid role)), _ =>
      match phase with
      | owing name creator owed =>
          if roomId = owed ∧ uid = creator ∧ role = 2 then
            some (owned name creator owed)
          else none
      | joining => if role = 0 then some joining else none
      | stuck => some stuck
      | _ => none
  | .sql (.query (.selectRoomByName _)), _ => some phase
  | .sql .returnConnection, _ | .sql .closeConnection, _ => some phase
  | _, _ => none

def start : RoomOp → RoomPhase
  | .createRoom name creator => creating name creator
  | .joinRoom .. => joining

/-- What an execution leaves behind when it returns. -/
def Returns (op : RoomOp) (phase : RoomPhase) (result : RoomResult) : Prop :=
  phase = stuck ∨
    match op with
    | .createRoom name creator =>
        phase = owned name creator result.roomId ∨
          result.success = false ∧ phase = refused ∨
          result.success = false ∧ phase = creating name creator
    | .joinRoom .. => phase = joining

/-! ## The programs -/

/-- A lookup changes nothing. -/
theorem obeys_getRoomByName (phase : RoomPhase) (name : String) :
    Prog.Obeys advance (fun after _ => after = phase ∨ after = stuck) phase
      (answerRepository (.getRoomByName name)) := by
  intro conn
  cases conn with
  | false => exact ⟨stuck, rfl, .inr rfl⟩
  | true =>
      refine ⟨phase, rfl, ?_⟩
      intro outcome
      refine ⟨phase, rfl, ?_⟩
      intro returned
      exact ⟨phase, rfl, .inl rfl⟩

theorem obeys_roomExists (phase : RoomPhase) (name : String) :
    Prog.Obeys advance (fun after _ => after = phase ∨ after = stuck) phase
      (answerRepository (.roomExists name)) := by
  have hlookup : answerRepository (.roomExists name) =
      answerRepository (.getRoomByName name) >>= fun found =>
        pure found.isSome :=
    Prog.translate_bind _ _ _
  rw [hlookup]
  apply (obeys_getRoomByName phase name).bind
  intro after found hafter
  exact hafter

theorem obeys_insertRoom {phase : RoomPhase} {name creator : String}
    (hphase : phase = creating name creator ∨ phase = stuck) :
    Prog.Obeys advance
      (fun after roomId => after = stuck ∨
        roomId ≤ 0 ∧ after = refused ∨
        0 < roomId ∧ after = owing name creator roomId) phase
      (answerRepository (.createRoom name creator)) := by
  intro conn
  cases conn with
  | false => exact ⟨stuck, rfl, .inl rfl⟩
  | true =>
      refine ⟨phase, rfl, ?_⟩
      intro outcome
      rcases hphase with rfl | rfl
      · obtain ⟨executed, result⟩ := outcome
        cases result with
        | none =>
            refine ⟨refused, by simp [advance], ?_⟩
            intro returned
            exact ⟨refused, rfl, .inr (.inl ⟨le_rfl, rfl⟩)⟩
        | some roomId =>
            by_cases hpos : 0 < roomId
            · refine ⟨owing name creator roomId, by simp [advance, hpos], ?_⟩
              intro returned
              exact ⟨_, rfl, .inr (.inr ⟨hpos, rfl⟩)⟩
            · refine ⟨refused, by simp [advance, hpos], ?_⟩
              intro returned
              exact ⟨_, rfl, .inr (.inl ⟨Int.not_lt.mp hpos, rfl⟩)⟩
      · refine ⟨stuck, rfl, ?_⟩
        intro returned
        exact ⟨stuck, rfl, .inl rfl⟩

theorem obeys_addRoomMember {phase entered : RoomPhase} {roomId role : Int}
    {uid : String}
    (hentered : ∀ outcome, advance phase (.sql (.query
      (.insertIgnoreRoomMember roomId uid role))) outcome = some entered) :
    Prog.Obeys advance (fun after _ => after = entered ∨ after = stuck) phase
      (answerRepository (.addRoomMember roomId uid role)) := by
  intro conn
  cases conn with
  | false => exact ⟨stuck, rfl, .inr rfl⟩
  | true =>
      refine ⟨phase, rfl, ?_⟩
      intro outcome
      refine ⟨entered, hentered outcome, ?_⟩
      intro returned
      exact ⟨entered, rfl, .inl rfl⟩

theorem obeys_createRoom (name creator : String) :
    Prog.Obeys advance (Returns (.createRoom name creator))
      (creating name creator)
      ((RoomService.createRoom name creator).translate answerRepository) := by
  unfold RoomService.createRoom
  rw [Prog.translate_request_bind]
  refine (obeys_roomExists _ name).bind ?_
  intro phase taken hphase
  cases taken with
  | true =>
      rcases hphase with rfl | rfl
      · exact .inr (.inr (.inr ⟨rfl, rfl⟩))
      · exact .inl rfl
  | false =>
      show Prog.Obeys advance _ phase (Prog.translate answerRepository
        (repository (.createRoom name creator) >>= _))
      rw [Prog.translate_request_bind]
      refine (obeys_insertRoom hphase).bind ?_
      rintro after roomId (rfl | ⟨hle, rfl⟩ | ⟨hpos, rfl⟩)
      · by_cases hle : roomId ≤ 0
        · rw [if_pos hle]
          exact .inl rfl
        · rw [if_neg hle, Prog.translate_request_bind]
          refine (obeys_addRoomMember fun _ => rfl).bind ?_
          rintro after entered (rfl | rfl)
          · exact .inl rfl
          · exact .inl rfl
      · rw [if_pos hle]
        exact .inr (.inr (.inl ⟨rfl, rfl⟩))
      · rw [if_neg (Int.not_le.mpr hpos), Prog.translate_request_bind]
        have hentered (outcome) : advance (owing name creator roomId)
            (.sql (.query (.insertIgnoreRoomMember roomId creator 2)))
            outcome = some (owned name creator roomId) :=
          if_pos ⟨rfl, rfl, rfl⟩
        refine (obeys_addRoomMember hentered).bind ?_
        rintro after entered (rfl | rfl)
        · exact .inr (.inl rfl)
        · exact .inl rfl

theorem obeys_joinRoom (name uid : String) :
    Prog.Obeys advance (Returns (.joinRoom name uid)) joining
      ((RoomService.joinRoom name uid).translate answerRepository) := by
  unfold RoomService.joinRoom
  rw [Prog.translate_request_bind]
  refine (obeys_getRoomByName joining name).bind ?_
  intro phase found hphase
  cases found with
  | none => exact hphase.symm
  | some room =>
      show Prog.Obeys advance _ phase (Prog.translate answerRepository
        (repository (.addRoomMember room.roomId uid 0) >>= _))
      rw [Prog.translate_request_bind]
      have hentered (outcome) : advance phase (.sql (.query
          (.insertIgnoreRoomMember room.roomId uid 0))) outcome =
            some phase := by
        rcases hphase with rfl | rfl <;> rfl
      refine (obeys_addRoomMember hentered).bind ?_
      rintro after entered (rfl | rfl)
      · exact hphase.symm
      · exact .inl rfl

theorem obeys_program (op : RoomOp) :
    Prog.Obeys advance (Returns op) (start op) (roomSystem.program op) := by
  cases op with
  | createRoom name creator => exact obeys_createRoom name creator
  | joinRoom name uid => exact obeys_joinRoom name uid

/-- The execution has inserted this room. -/
def Made (phase : RoomPhase) (name creator : String) (roomId : Int) : Prop :=
  phase = owing name creator roomId ∨ phase = owned name creator roomId

end RoomPhase

/-! ## One statement -/

section Statements

variable {db : Database} {roomId role : Int} {uid name creator : String}

theorem mem_insertRoomMember {row : RoomMemberRow} :
    row ∈ (db.execStatement (.insertIgnoreRoomMember roomId uid
        role)).1.roomMembers ↔
      row ∈ db.roomMembers ∨
        row = ⟨roomId, uid, role⟩ ∧
          ¬ db.roomMembers.HasKey (roomId, uid) ∧
          (db.rooms.get? roomId).isSome ∧ db.Registered uid := by
  unfold Database.execStatement
  dsimp only
  split
  · rename_i hallowed
    refine KeyedTable.mem_insertIgnore.trans (or_congr_right ?_)
    constructor
    · rintro ⟨hfree, rfl⟩
      exact ⟨rfl, hfree, hallowed⟩
    · rintro ⟨rfl, hfree, _⟩
      exact ⟨hfree, rfl⟩
  · rename_i hrefused
    constructor
    · exact .inl
    · rintro (hold | ⟨_, _, hallowed⟩)
      · exact hold
      · exact (hrefused hallowed).elim

theorem hasKey_insertRoomMember {pair : Int × String}
    (hkey : (db.execStatement (.insertIgnoreRoomMember roomId uid
      role)).1.roomMembers.HasKey pair) :
    db.roomMembers.HasKey pair ∨ pair = (roomId, uid) := by
  obtain ⟨row, hrow, rfl⟩ := hkey
  rcases mem_insertRoomMember.mp hrow with hold | ⟨rfl, _⟩
  · exact .inl ⟨row, hold, rfl⟩
  · exact .inr rfl

theorem rooms_insertRoomMember :
    (db.execStatement (.insertIgnoreRoomMember roomId uid role)).1.rooms =
      db.rooms := by
  simp only [Database.execStatement]
  split <;> rfl

theorem users_insertRoomMember :
    (db.execStatement (.insertIgnoreRoomMember roomId uid role)).1.users =
      db.users := by
  simp only [Database.execStatement]
  split <;> rfl

end Statements

/-- What a call does to the tables and to the phase of its execution. -/
inductive RoomStep (db : Database) (phase : RoomPhase) :
    Database → RoomPhase → Prop
  | keep : RoomStep db phase db phase
  | create {name creator : String} (hphase : phase = .creating name creator)
      (hcreator : db.Registered creator)
      (hname : ∀ entry ∈ db.rooms.entries, entry.2.name ≠ name) :
      RoomStep db phase
        { db with
          rooms := db.rooms.insert { name := name, creatorUid := creator } }
        (.owing name creator db.rooms.next)
  | refuse {name creator : String}
      (hphase : phase = .creating name creator) :
      RoomStep db phase db .refused
  | enter {name creator : String} {roomId : Int}
      (hphase : phase = .owing name creator roomId) :
      RoomStep db phase
        (db.execStatement (.insertIgnoreRoomMember roomId creator 2)).1
        (.owned name creator roomId)
  | join {uid : String} {roomId : Int} (hphase : phase = .joining)
      (hafter : ∀ room, (roomId, room) ∈ db.rooms.entries →
        room.creatorUid = uid → db.roomMembers.HasKey (roomId, uid)) :
      RoomStep db phase
        (db.execStatement (.insertIgnoreRoomMember roomId uid 0)).1 .joining

/-! ## Which runs are meant -/

/-- There is a connection, and the statement is executed and answered. -/
def StatementServed (state : RoomState) : RoomMove → Prop
  | .exec _ (.sql .getConnection) conn => conn = true
  | .exec _ (.sql (.query statement)) outcome =>
      outcome.executed = true ∧
        outcome.result = (state.world.db.execStatement statement).2
  | _ => True

/-- The creator of a room enters it with an ordinary role only after having
been entered as its owner. -/
def JoinsAfterOwner (state : RoomState) : RoomMove → Prop
  | .exec _ (.sql (.query (.insertIgnoreRoomMember roomId uid role))) _ =>
      role ≠ 2 → ∀ room, (roomId, room) ∈ state.world.db.rooms.entries →
        room.creatorUid = uid →
          state.world.db.roomMembers.HasKey (roomId, uid)
  | _ => True

theorem roomStep_insertRoom {db : Database} {phase next : RoomPhase}
    {name creator : String}
    {outcome : QueryOutcome (.insertRoom name creator)}
    (hrunning : phase ≠ .stuck)
    (hadvance : phase.advance (.sql (.query (.insertRoom name creator)))
      outcome = some next)
    (hresult : outcome.result =
      (db.execStatement (.insertRoom name creator)).2) :
    RoomStep db phase (db.execStatement (.insertRoom name creator)).1
      next := by
  simp only [RoomPhase.advance, if_neg hrunning] at hadvance
  split at hadvance
  · rename_i hphase
    rw [hresult] at hadvance
    rcases db.insertRoom_cases _ _ with ⟨⟨hcreator, hname⟩, hexec⟩ | hexec
    · rw [hexec] at hadvance ⊢
      simp only [if_pos db.rooms.positive] at hadvance
      cases hadvance
      exact .create hphase hcreator hname
    · rw [hexec] at hadvance ⊢
      cases hadvance
      exact .refuse hphase
  · cases hadvance

theorem roomStep_insertMember {db : Database} {phase next : RoomPhase}
    {roomId role : Int} {uid : String}
    {outcome : QueryOutcome (.insertIgnoreRoomMember roomId uid role)}
    (hrunning : phase ≠ .stuck)
    (hadvance : phase.advance (.sql (.query
      (.insertIgnoreRoomMember roomId uid role))) outcome = some next)
    (hjoins : role ≠ 2 → ∀ room, (roomId, room) ∈ db.rooms.entries →
      room.creatorUid = uid → db.roomMembers.HasKey (roomId, uid)) :
    RoomStep db phase
      (db.execStatement (.insertIgnoreRoomMember roomId uid role)).1
      next := by
  cases phase with
  | owing name creator owed =>
      simp only [RoomPhase.advance] at hadvance
      split at hadvance <;> cases hadvance
      rename_i hsame
      obtain ⟨rfl, rfl, rfl⟩ := hsame
      exact .enter rfl
  | joining =>
      simp only [RoomPhase.advance] at hadvance
      split at hadvance <;> cases hadvance
      rename_i hrole
      subst hrole
      exact .join rfl (hjoins (by decide))
  | stuck => exact (hrunning rfl).elim
  | creating | owned | refused => cases hadvance

theorem roomStep_of_advance {state : RoomState} {index : Nat}
    {call : NodeCall} {answer : call.Answer} {phase next : RoomPhase}
    {world : NodeWorld} (hrunning : phase ≠ .stuck)
    (hadvance : phase.advance call answer = some next)
    (heffect : state.world.effect call answer = some world)
    (hserved : StatementServed state (.exec index call answer))
    (hjoins : JoinsAfterOwner state (.exec index call answer)) :
    RoomStep state.world.db phase world.db next := by
  cases call with
  | session call => cases hadvance
  | sql call =>
      obtain ⟨db, hdb, rfl⟩ := Option.map_eq_some_iff.mp heffect
      cases call with
      | getConnection =>
          have hconn : answer = true := hserved
          subst hconn
          cases hdb
          cases hadvance
          exact .keep
      | returnConnection | closeConnection =>
          cases hdb
          cases hadvance
          exact .keep
      | query statement =>
          obtain ⟨hexecuted, hresult⟩ := hserved
          have hafter : db = (state.world.db.execStatement statement).1 := by
            rcases ChatNode.query_of_effect hdb with
              ⟨_, hafter, _⟩ | ⟨hlost, _⟩
            · exact hafter
            · rw [hexecuted] at hlost
              cases hlost
          subst hafter
          cases statement with
          | selectRoomByName name =>
              cases hadvance
              exact .keep
          | insertRoom name creator =>
              exact roomStep_insertRoom hrunning hadvance hresult
          | insertIgnoreRoomMember roomId uid role =>
              exact roomStep_insertMember hrunning hadvance hjoins
          | _ => cases hadvance

/-! ## The tables -/

/-- Every room an execution has inserted is there, and each by one execution
only. -/
structure RoomsMade (db : Database) (phases : List RoomPhase) : Prop where
  made : ∀ phase ∈ phases, ∀ name creator roomId,
    phase.Made name creator roomId → ∃ room,
      (roomId, room) ∈ db.rooms.entries ∧ room.name = name ∧
        room.creatorUid = creator
  single : ∀ (i j : Nat) (first second : RoomPhase) (roomId : Int)
      (name name' creator creator' : String),
    phases[i]? = some first → phases[j]? = some second →
      first.Made name creator roomId → second.Made name' creator' roomId →
        i = j

/-- What the executions have made of the tables: the creator of a room is
entered as its owner, unless an execution still owes that and the creator is
no member yet. -/
structure RoomsOwned (db : Database) (phases : List RoomPhase) : Prop where
  running : .stuck ∉ phases
  registered : ∀ entry ∈ db.rooms.entries, db.Registered entry.2.creatorUid
  names : ∀ first ∈ db.rooms.entries, ∀ second ∈ db.rooms.entries,
    first.2.name = second.2.name → first = second
  made : RoomsMade db phases
  placed : ∀ member ∈ db.roomMembers, ∃ room,
    (member.roomId, room) ∈ db.rooms.entries ∧
      (member.role = 2 → room.creatorUid = member.uid)
  entered : ∀ entry ∈ db.rooms.entries,
    ⟨entry.1, entry.2.creatorUid, 2⟩ ∈ db.roomMembers ∨
      .owing entry.2.name entry.2.creatorUid entry.1 ∈ phases ∧
        ¬ db.roomMembers.HasKey (entry.1, entry.2.creatorUid)

section Tables

variable {db after : Database} {phases : List RoomPhase}
  {phase next : RoomPhase} {index : Nat}

theorem mem_set_of_mem {other : RoomPhase} (hother : other ∈ phases)
    (hphase : phases[index]? = some phase) (hne : phase ≠ other) :
    other ∈ phases.set index next := by
  obtain ⟨i, hi⟩ := List.mem_iff_getElem?.mp hother
  have hindex : index ≠ i := by
    rintro rfl
    rw [hphase] at hi
    exact hne (Option.some.inj hi)
  rw [← List.getElem?_set_ne hindex] at hi
  exact List.mem_of_getElem? hi

theorem room_unique {roomId : Int} {first second : RoomRow}
    (hfirst : (roomId, first) ∈ db.rooms.entries)
    (hsecond : (roomId, second) ∈ db.rooms.entries) : first = second := by
  have hrow := AutoTable.get?_of_mem hfirst
  rw [AutoTable.get?_of_mem hsecond] at hrow
  exact (Option.some.inj hrow).symm

theorem RoomsMade.set (hmade : RoomsMade db phases)
    (hphase : phases[index]? = some phase)
    (hrooms : db.rooms.entries ⊆ after.rooms.entries)
    (hnext : ∀ name creator roomId, next.Made name creator roomId →
      phase.Made name creator roomId) :
    RoomsMade after (phases.set index next) := by
  have hback (i : Nat) (each : RoomPhase)
      (heach : (phases.set index next)[i]? = some each) :
      ∃ old, phases[i]? = some old ∧ ∀ name creator roomId,
        each.Made name creator roomId → old.Made name creator roomId := by
    rcases getElem?_set_cases heach with ⟨rfl, rfl⟩ | ⟨_, hold⟩
    · exact ⟨phase, hphase, hnext⟩
    · exact ⟨each, hold, fun _ _ _ hmade => hmade⟩
  constructor
  · intro each heach name creator roomId heachMade
    obtain ⟨i, hi⟩ := List.mem_iff_getElem?.mp heach
    obtain ⟨old, hold, hsame⟩ := hback i each hi
    obtain ⟨room, hroom, hfacts⟩ := hmade.made old
      (List.mem_of_getElem? hold) name creator roomId (hsame _ _ _ heachMade)
    exact ⟨room, hrooms hroom, hfacts⟩
  · intro i j first second roomId name name' creator creator' hfirst hsecond
      hmade₁ hmade₂
    obtain ⟨old, hold, hsame⟩ := hback i first hfirst
    obtain ⟨old', hold', hsame'⟩ := hback j second hsecond
    exact hmade.single i j old old' roomId name name' creator creator' hold
      hold' (hsame _ _ _ hmade₁) (hsame' _ _ _ hmade₂)

/-- A new room has an identifier that no execution knows. -/
theorem RoomsMade.create (hmade : RoomsMade db phases)
    (name creator : String) :
    RoomsMade
      { db with
        rooms := db.rooms.insert { name := name, creatorUid := creator } }
      (phases.set index (.owing name creator db.rooms.next)) := by
  have hnew {name' creator' : String} {roomId : Int}
      (hsame : (RoomPhase.owing name creator db.rooms.next).Made name'
        creator' roomId) :
      name' = name ∧ creator' = creator ∧ roomId = db.rooms.next := by
    rcases hsame with heq | heq <;> cases heq
    exact ⟨rfl, rfl, rfl⟩
  have hold {each : RoomPhase} {i : Nat} {name' creator' : String}
      (heach : phases[i]? = some each) :
      ¬ each.Made name' creator' db.rooms.next := by
    intro heachMade
    obtain ⟨room, hroom, _⟩ := hmade.made each (List.mem_of_getElem? heach)
      _ _ _ heachMade
    exact lt_irrefl _ (db.rooms.fresh _ hroom).2
  constructor
  · intro each heach name' creator' roomId heachMade
    rcases List.mem_or_eq_of_mem_set heach with hmem | rfl
    · obtain ⟨room, hroom, hfacts⟩ := hmade.made each hmem _ _ _ heachMade
      exact ⟨room, List.mem_append_left _ hroom, hfacts⟩
    · obtain ⟨rfl, rfl, rfl⟩ := hnew heachMade
      exact ⟨_, List.mem_append_right _ List.mem_cons_self, rfl, rfl⟩
  · intro i j first second roomId name₁ name₂ creator₁ creator₂ hfirst
      hsecond hmade₁ hmade₂
    rcases getElem?_set_cases hfirst with ⟨rfl, rfl⟩ | ⟨_, hold₁⟩ <;>
      rcases getElem?_set_cases hsecond with ⟨rfl, rfl⟩ | ⟨_, hold₂⟩
    · rfl
    · obtain ⟨_, _, rfl⟩ := hnew hmade₁
      exact (hold hold₂ hmade₂).elim
    · obtain ⟨_, _, rfl⟩ := hnew hmade₂
      exact (hold hold₁ hmade₁).elim
    · exact hmade.single i j first second roomId _ _ _ _ hold₁ hold₂ hmade₁
        hmade₂

theorem RoomsMade.append (hmade : RoomsMade db phases)
    (hfresh : ∀ name creator roomId, ¬ next.Made name creator roomId) :
    RoomsMade db (phases ++ [next]) := by
  have hindex {i : Nat} {each : RoomPhase} {name creator : String}
      {roomId : Int} (heach : (phases ++ [next])[i]? = some each)
      (heachMade : each.Made name creator roomId) :
      phases[i]? = some each := by
    rw [List.getElem?_append] at heach
    split at heach
    · exact heach
    · have hnew := List.mem_of_getElem? heach
      rw [List.mem_singleton.mp hnew] at heachMade
      exact (hfresh _ _ _ heachMade).elim
  constructor
  · intro each heach name creator roomId heachMade
    obtain ⟨i, hi⟩ := List.mem_iff_getElem?.mp heach
    exact hmade.made each (List.mem_of_getElem? (hindex hi heachMade)) _ _ _
      heachMade
  · intro i j first second roomId name name' creator creator' hfirst hsecond
      hmade₁ hmade₂
    exact hmade.single i j first second roomId _ _ _ _
      (hindex hfirst hmade₁) (hindex hsecond hmade₂) hmade₁ hmade₂

theorem placed_insertMember (howned : RoomsOwned db phases) {roomId role : Int}
    {uid : String}
    (howner : role = 2 → ∀ room, (roomId, room) ∈ db.rooms.entries →
      room.creatorUid = uid) :
    ∀ member ∈ (db.execStatement (.insertIgnoreRoomMember roomId uid
      role)).1.roomMembers, ∃ room,
        (member.roomId, room) ∈ db.rooms.entries ∧
          (member.role = 2 → room.creatorUid = member.uid) := by
  intro member hmember
  rcases mem_insertRoomMember.mp hmember with hold | ⟨rfl, _, hroom, _⟩
  · exact howned.placed member hold
  · obtain ⟨room, hget⟩ := Option.isSome_iff_exists.mp hroom
    have hentry := AutoTable.mem_of_get? hget
    exact ⟨room, hentry, fun hrole => howner hrole room hentry⟩

theorem stuck_not_mem_set (hrunning : .stuck ∉ phases)
    (hnext : next ≠ .stuck) : .stuck ∉ phases.set index next := by
  intro hstuck
  rcases List.mem_or_eq_of_mem_set hstuck with hold | hnew
  · exact hrunning hold
  · exact hnext hnew.symm

theorem RoomsOwned.create (howned : RoomsOwned db phases)
    {name creator : String}
    (hphase : phases[index]? = some (.creating name creator))
    (hcreator : db.Registered creator)
    (hname : ∀ entry ∈ db.rooms.entries, entry.2.name ≠ name) :
    RoomsOwned
      { db with
        rooms := db.rooms.insert { name := name, creatorUid := creator } }
      (phases.set index (.owing name creator db.rooms.next)) := by
  have hlt : index < phases.length :=
    (List.getElem?_eq_some_iff.mp hphase).1
  constructor
  · exact stuck_not_mem_set howned.running (by simp)
  · intro entry hentry
    rcases List.mem_append.mp hentry with hold | hnew
    · exact howned.registered entry hold
    · rw [List.mem_singleton.mp hnew]
      exact hcreator
  · intro first hfirst second hsecond hsame
    rcases List.mem_append.mp hfirst with hold₁ | hnew₁ <;>
      rcases List.mem_append.mp hsecond with hold₂ | hnew₂
    · exact howned.names first hold₁ second hold₂ hsame
    · rw [List.mem_singleton.mp hnew₂] at hsame
      exact (hname first hold₁ hsame).elim
    · rw [List.mem_singleton.mp hnew₁] at hsame
      exact (hname second hold₂ hsame.symm).elim
    · rw [List.mem_singleton.mp hnew₁, List.mem_singleton.mp hnew₂]
  · exact howned.made.create name creator
  · intro member hmember
    obtain ⟨room, hroom, hrole⟩ := howned.placed member hmember
    exact ⟨room, List.mem_append_left _ hroom, hrole⟩
  · intro entry hentry
    rcases List.mem_append.mp hentry with hold | hnew
    · refine (howned.entered entry hold).imp_right ?_
      rintro ⟨howing, hfree⟩
      exact ⟨mem_set_of_mem howing hphase (by simp), hfree⟩
    · rw [List.mem_singleton.mp hnew]
      refine .inr ⟨List.mem_set hlt _, ?_⟩
      rintro ⟨member, hmember, hkey⟩
      obtain ⟨room, hroom, _⟩ := howned.placed member hmember
      obtain ⟨hroomId, _⟩ := Prod.mk.inj hkey
      rw [hroomId] at hroom
      exact lt_irrefl _ (db.rooms.fresh _ hroom).2

/-- A new member leaves the rooms as they are.  What is left to show is about
the executions, and about the creators that were not entered. -/
theorem RoomsOwned.insertMember (howned : RoomsOwned db phases)
    {roomId role : Int} {uid : String} {later : List RoomPhase}
    (hrunning : .stuck ∉ later) (hmade : RoomsMade db later)
    (howner : role = 2 → ∀ room, (roomId, room) ∈ db.rooms.entries →
      room.creatorUid = uid)
    (hentered : ∀ entry ∈ db.rooms.entries,
      .owing entry.2.name entry.2.creatorUid entry.1 ∈ phases →
      ¬ db.roomMembers.HasKey (entry.1, entry.2.creatorUid) →
        ⟨entry.1, entry.2.creatorUid, 2⟩ ∈ (db.execStatement
            (.insertIgnoreRoomMember roomId uid role)).1.roomMembers ∨
          .owing entry.2.name entry.2.creatorUid entry.1 ∈ later ∧
            ¬ (db.execStatement (.insertIgnoreRoomMember roomId uid
              role)).1.roomMembers.HasKey (entry.1, entry.2.creatorUid)) :
    RoomsOwned
      (db.execStatement (.insertIgnoreRoomMember roomId uid role)).1
      later := by
  constructor
  · exact hrunning
  · rw [rooms_insertRoomMember]
    unfold Database.Registered
    rw [users_insertRoomMember]
    exact howned.registered
  · rw [rooms_insertRoomMember]
    exact howned.names
  · refine ⟨?_, hmade.single⟩
    rw [rooms_insertRoomMember]
    exact hmade.made
  · rw [rooms_insertRoomMember]
    exact placed_insertMember howned howner
  · rw [rooms_insertRoomMember]
    intro entry hentry
    rcases howned.entered entry hentry with hrow | ⟨howing, hfree⟩
    · exact .inl (mem_insertRoomMember.mpr (.inl hrow))
    · exact hentered entry hentry howing hfree

theorem RoomsOwned.enter (howned : RoomsOwned db phases)
    {name creator : String} {roomId : Int}
    (hphase : phases[index]? = some (.owing name creator roomId)) :
    RoomsOwned
      (db.execStatement (.insertIgnoreRoomMember roomId creator 2)).1
      (phases.set index (.owned name creator roomId)) := by
  obtain ⟨room, hroom, rfl, rfl⟩ := howned.made.made _
    (List.mem_of_getElem? hphase) name creator roomId (.inl rfl)
  have hregistered := howned.registered _ hroom
  have hmade : RoomsMade db
      (phases.set index (.owned room.name room.creatorUid roomId)) := by
    refine howned.made.set hphase (List.Subset.refl _) ?_
    rintro name' creator' roomId' (heq | heq) <;> cases heq
    exact .inl rfl
  refine howned.insertMember (stuck_not_mem_set howned.running (by simp))
    hmade ?_ ?_
  · intro _ other hother
    rw [room_unique hother hroom]
  · intro entry hentry howing hfree
    by_cases hsame : entry.1 = roomId
    · obtain ⟨entryId, entryRow⟩ := entry
      cases hsame
      obtain rfl := room_unique hentry hroom
      exact .inl (mem_insertRoomMember.mpr
        (.inr ⟨rfl, hfree, AutoTable.isSome_get? hroom, hregistered⟩))
    · refine .inr ⟨mem_set_of_mem howing hphase ?_, ?_⟩
      · intro heq
        exact hsame (RoomPhase.owing.inj heq).2.2.symm
      · intro hkey
        rcases hasKey_insertRoomMember hkey with hold | heq
        · exact hfree hold
        · exact hsame (Prod.mk.inj heq).1

theorem RoomsOwned.join (howned : RoomsOwned db phases) {roomId : Int}
    {uid : String} (hphase : phases[index]? = some .joining)
    (hafter : ∀ room, (roomId, room) ∈ db.rooms.entries →
      room.creatorUid = uid → db.roomMembers.HasKey (roomId, uid)) :
    RoomsOwned
      (db.execStatement (.insertIgnoreRoomMember roomId uid 0)).1
      (phases.set index .joining) := by
  have hmade : RoomsMade db (phases.set index .joining) :=
    howned.made.set hphase (List.Subset.refl _) fun _ _ _ hmade => hmade
  refine howned.insertMember (stuck_not_mem_set howned.running (by simp))
    hmade ?_ ?_
  · intro hrole
    cases hrole
  · intro entry hentry howing hfree
    refine .inr ⟨mem_set_of_mem howing hphase (by simp), ?_⟩
    intro hkey
    rcases hasKey_insertRoomMember hkey with hold | heq
    · exact hfree hold
    · obtain ⟨rfl, huid⟩ := Prod.mk.inj heq
      exact hfree (huid ▸ hafter entry.2 hentry huid)

theorem RoomsOwned.exec (howned : RoomsOwned db phases)
    (hphase : phases[index]? = some phase)
    (hstep : RoomStep db phase after next) :
    RoomsOwned after (phases.set index next) := by
  cases hstep with
  | keep =>
      obtain ⟨hlt, rfl⟩ := List.getElem?_eq_some_iff.mp hphase
      rw [List.set_getElem_self]
      exact howned
  | create hcreating hcreator hname =>
      subst hcreating
      exact howned.create hphase hcreator hname
  | refuse hcreating =>
      subst hcreating
      refine ⟨stuck_not_mem_set howned.running (by simp), howned.registered,
        howned.names, ?_, howned.placed, ?_⟩
      · refine howned.made.set hphase (List.Subset.refl _) ?_
        rintro name creator roomId (heq | heq) <;> cases heq
      · intro entry hentry
        refine (howned.entered entry hentry).imp_right ?_
        rintro ⟨howing, hfree⟩
        exact ⟨mem_set_of_mem howing hphase (by simp), hfree⟩
  | enter howing =>
      subst howing
      exact howned.enter hphase
  | join hjoining hafter =>
      subst hjoining
      exact howned.join hphase hafter

theorem RoomsOwned.append (howned : RoomsOwned db phases) (op : RoomOp) :
    RoomsOwned db (phases ++ [RoomPhase.start op]) := by
  have hfresh (name creator : String) (roomId : Int) :
      ¬ (RoomPhase.start op).Made name creator roomId := by
    cases op <;> simp [RoomPhase.start, RoomPhase.Made]
  refine ⟨?_, howned.registered, howned.names, howned.made.append hfresh,
    howned.placed, ?_⟩
  · intro hstuck
    rcases List.mem_append.mp hstuck with hold | hnew
    · exact howned.running hold
    · cases op <;> cases List.mem_singleton.mp hnew
  · intro entry hentry
    refine (howned.entered entry hentry).imp_right ?_
    rintro ⟨howing, hfree⟩
    exact ⟨List.mem_append_left _ howing, hfree⟩

end Tables

/-! ## Runs -/

section Runs

variable {state next : RoomState} {move : RoomMove}

def OwnersKept (state : RoomState) : Prop :=
  ∃ phases, ThreadSystem.InPhases RoomPhase.advance RoomPhase.Returns
      RoomPhase.start state phases ∧
    RoomsOwned state.world.db phases

theorem db_of_disturb {world after : NodeWorld} {event : NodeEvent}
    (hdisturb : world.disturb event = some after) :
    after.db.users = world.db.users ∧ after.db.rooms = world.db.rooms ∧
      after.db.roomMembers = world.db.roomMembers := by
  cases event with
  | redis event =>
      obtain ⟨redis, _, rfl⟩ := Option.map_eq_some_iff.mp hdisturb
      exact ⟨rfl, rfl, rfl⟩
  | tick clock =>
      cases hdisturb
      exact ⟨rfl, rfl, rfl⟩

theorem RoomsOwned.congr {db after : Database} {phases : List RoomPhase}
    (howned : RoomsOwned db phases) (husers : after.users = db.users)
    (hrooms : after.rooms = db.rooms)
    (hmembers : after.roomMembers = db.roomMembers) :
    RoomsOwned after phases := by
  constructor
  · exact howned.running
  · unfold Database.Registered
    rw [hrooms, husers]
    exact howned.registered
  · rw [hrooms]
    exact howned.names
  · refine ⟨?_, howned.made.single⟩
    rw [hrooms]
    exact howned.made.made
  · rw [hrooms, hmembers]
    exact howned.placed
  · rw [hrooms, hmembers]
    exact howned.entered

theorem OwnersKept.step (hstate : OwnersKept state)
    (hstep : roomSystem.step state move = some next)
    (hserved : StatementServed state move)
    (hjoins : JoinsAfterOwner state move) : OwnersKept next := by
  obtain ⟨phases, hphases, howned⟩ := hstate
  obtain ⟨after, hnext, hmove⟩ := hphases.step RoomPhase.obeys_program hstep
  refine ⟨after, hnext, ?_⟩
  generalize next.world = world at hmove
  cases hmove with
  | enter op => exact howned.append op
  | @exec index call answer phase _ _ hphase hadvance heffect =>
      have hrunning : phase ≠ .stuck := by
        rintro rfl
        exact howned.running (List.mem_of_getElem? hphase)
      exact howned.exec hphase
        (roomStep_of_advance hrunning hadvance heffect hserved hjoins)
  | disturb hdisturb =>
      obtain ⟨husers, hrooms, hmembers⟩ := db_of_disturb hdisturb
      exact howned.congr husers hrooms hmembers

/-- A room has one successful creation and one row, and at rest its creator
and nobody else is its owner. -/
structure RoomOwnership (state : RoomState) : Prop where
  created : ∀ (i j : Nat) first second name creator creator' result result',
    state.threads[i]? = some first → state.threads[j]? = some second →
      first.op = .createRoom name creator →
      second.op = .createRoom name creator' →
      first.prog = .ret result → second.prog = .ret result' →
      result.success = true → result'.success = true → i = j
  names : (state.world.db.rooms.entries.map fun entry => entry.2.name).Nodup
  owners : state.Quiescent → ∀ entry ∈ state.world.db.rooms.entries, ∀ uid,
    ⟨entry.1, uid, 2⟩ ∈ state.world.db.roomMembers ↔
      uid = entry.2.creatorUid

theorem OwnersKept.ownership (hstate : OwnersKept state) :
    RoomOwnership state := by
  obtain ⟨phases, hphases, howned⟩ := hstate
  have hsucceeded {index : Nat}
      {thread : Thread RoomOp NodeCall NodeCall.Answer RoomResult}
      {name creator : String} {result : RoomResult}
      (hthread : state.threads[index]? = some thread)
      (hop : thread.op = .createRoom name creator)
      (hprog : thread.prog = .ret result)
      (hsuccess : result.success = true) :
      phases[index]? = some (.owned name creator result.roomId) := by
    obtain ⟨phase, hphase, hreturns⟩ := hphases.returned hthread hprog
    rw [hop] at hreturns
    rcases hreturns with rfl | rfl | ⟨hfailed, _⟩ | ⟨hfailed, _⟩
    · exact (howned.running (List.mem_of_getElem? hphase)).elim
    · exact hphase
    · rw [hsuccess] at hfailed
      cases hfailed
    · rw [hsuccess] at hfailed
      cases hfailed
  constructor
  · intro i j first second name creator creator' result result' hfirst
      hsecond hop hop' hprog hprog' hsuccess hsuccess'
    have hphase := hsucceeded hfirst hop hprog hsuccess
    have hphase' := hsucceeded hsecond hop' hprog' hsuccess'
    obtain ⟨room, hroom, hname, _⟩ := howned.made.made _
      (List.mem_of_getElem? hphase) _ _ _ (.inr rfl)
    obtain ⟨room', hroom', hname', _⟩ := howned.made.made _
      (List.mem_of_getElem? hphase') _ _ _ (.inr rfl)
    have hsame := howned.names _ hroom _ hroom' (hname.trans hname'.symm)
    obtain ⟨hroomId, _⟩ := Prod.mk.inj hsame
    rw [← hroomId] at hphase'
    exact howned.made.single i j _ _ _ _ _ _ _ hphase hphase' (.inr rfl)
      (.inr rfl)
  · have hentries : state.world.db.rooms.entries.Nodup :=
      List.Nodup.of_map Prod.fst
        (state.world.db.rooms.increasing.imp fun hlt => hlt.ne)
    exact hentries.map_on fun first hfirst second hsecond hsame =>
      howned.names first hfirst second hsecond hsame
  · intro hquiet entry hentry uid
    constructor
    · intro hmember
      obtain ⟨room, hroom, hcreator⟩ := howned.placed _ hmember
      have hrow : room = entry.2 := room_unique hroom hentry
      rw [← hrow]
      exact (hcreator rfl).symm
    · rintro rfl
      rcases howned.entered entry hentry with hrow | ⟨howing, _⟩
      · exact hrow
      · obtain ⟨op, result, hreturns⟩ := hphases.quiescent hquiet howing
        cases op <;> simp [RoomPhase.Returns] at hreturns

theorem ownersKept_start (users : KeyedTable UserInfo.uid) :
    OwnersKept { world := { db := { users := users } } } := by
  refine ⟨[], .nil, ?_⟩
  constructor
  · simp
  · exact fun entry hentry => nomatch hentry
  · exact fun entry hentry => nomatch hentry
  · exact ⟨by simp, by simp⟩
  · exact fun member hmember => absurd hmember KeyedTable.not_mem_empty
  · exact fun entry hentry => nomatch hentry

def annKnown : KeyedTable UserInfo.uid :=
  KeyedTable.empty.insertIgnore { uid := "ann" }

def queryMoves (index : Nat) (statement : Statement)
    (result : statement.Result) : List RoomMove :=
  [.exec index (.sql .getConnection) true,
    .exec index (.sql (.query statement)) ⟨true, some result⟩,
    .exec index (.sql .returnConnection) ()]

/-- The creation of a room, up to the insertion of the room. -/
def insertedRoom : List RoomMove :=
  [.enter (.createRoom "r" "ann"), .enter (.joinRoom "r" "ann")] ++
    queryMoves 0 (.selectRoomByName "r") none ++
    queryMoves 0 (.insertRoom "r" "ann") (1 : Int)

def ownerEntered : List RoomMove :=
  queryMoves 0 (.insertIgnoreRoomMember 1 "ann" 2) ()

def creatorJoins : List RoomMove :=
  queryMoves 1 (.selectRoomByName "r")
      (some { roomId := 1, name := "r", creatorUid := "ann" }) ++
    queryMoves 1 (.insertIgnoreRoomMember 1 "ann" 0) ()

end Runs

end MuduoChat
