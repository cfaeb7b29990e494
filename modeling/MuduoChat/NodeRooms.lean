import MuduoChat.NodeUsers
import MuduoChat.ServerCaches

/-!
# Rooms in memory and in the database

`RoomService` writes the members of a room to the database, from a worker;
`RoomManager` is told about it later, in a callback, and starts empty.  What
it holds is in the database too, as long as the creator of a room is really
entered there.  What it misses are the members of rooms it has not heard of:
`RoomManager::joinRoom` leaves them out and says so, but nobody listens.
-/

namespace MuduoChat

/-! ## Rooms and members -/

def RoomAt (db : Database) (roomId : Int) (name : String) : Prop :=
  ∃ row, (roomId, row) ∈ db.rooms.entries ∧ row.name = name

/-- The room exists and the user has a row in `room_members` for it. -/
def IsMember (db : Database) (name uid : String) : Prop :=
  ∃ roomId, RoomAt db roomId name ∧ db.roomMembers.HasKey (roomId, uid)

/-- The room exists, and whoever made a room of that name is the user. -/
def CreatedBy (db : Database) (name uid : String) : Prop :=
  (∃ roomId, RoomAt db roomId name) ∧
    ∀ entry ∈ db.rooms.entries, entry.2.name = name →
      entry.2.creatorUid = uid

section Rooms

variable {db after : Database} {roomId : Int} {name uid other : String}

theorem RoomAt.grows (hroom : RoomAt db roomId name)
    (hgrows : db.Grows after) : RoomAt after roomId name := by
  obtain ⟨row, hrow, hname⟩ := hroom
  exact ⟨row, hgrows.rooms hrow, hname⟩

theorem IsMember.grows (hmember : IsMember db name uid)
    (hgrows : db.Grows after) : IsMember after name uid := by
  obtain ⟨roomId, hroom, hkey⟩ := hmember
  exact ⟨roomId, hroom.grows hgrows, hgrows.members _ hkey⟩

theorem CreatedBy.grows (hcreated : CreatedBy db name uid)
    (hgrows : db.Grows after) : CreatedBy after name uid := by
  obtain ⟨⟨roomId, hroom⟩, hcreator⟩ := hcreated
  refine ⟨⟨roomId, hroom.grows hgrows⟩, ?_⟩
  intro entry hentry hname
  rcases hgrows.named entry hentry with hold | hnew
  · exact hcreator entry hold hname
  · obtain ⟨row, hrow, hsame⟩ := hroom
    exact (hnew _ hrow (hsame.trans hname.symm)).elim

theorem CreatedBy.unique (hcreated : CreatedBy db name uid)
    (hother : CreatedBy db name other) : uid = other := by
  obtain ⟨⟨roomId, row, hrow, hname⟩, hcreator⟩ := hcreated
  rw [← hcreator _ hrow hname, hother.2 _ hrow hname]

theorem RoomAt.get? (hroom : RoomAt db roomId name) :
    (db.rooms.get? roomId).isSome = true := by
  obtain ⟨row, hrow, _⟩ := hroom
  exact AutoTable.isSome_get? hrow

theorem roomAt_of_selectRoomByName {room : RoomInfo}
    (hfound : (db.execStatement (.selectRoomByName name)).2 =
      some (some room)) : RoomAt db room.roomId name := by
  obtain ⟨entry, hentry, rfl⟩ :=
    Option.map_eq_some_iff.mp (Option.some.inj hfound)
  have hname : entry.2.name = name := by
    simpa using List.find?_some hentry
  exact ⟨entry.2, List.mem_of_find?_eq_some hentry, hname⟩

theorem created_of_insertRoom
    (hinserted : (db.execStatement (.insertRoom name uid)).2 =
      some roomId) :
    RoomAt (db.execStatement (.insertRoom name uid)).1 roomId name ∧
      CreatedBy (db.execStatement (.insertRoom name uid)).1 name uid := by
  rcases db.insertRoom_cases name uid with ⟨⟨-, hfree⟩, hexec⟩ | hexec
  · rw [hexec] at hinserted ⊢
    cases hinserted
    have hroom : RoomAt { db with
        rooms := db.rooms.insert { name := name, creatorUid := uid } }
        db.rooms.next name :=
      ⟨_, List.mem_append_right _ List.mem_cons_self, rfl⟩
    refine ⟨hroom, ⟨_, hroom⟩, ?_⟩
    intro entry hentry hname
    rcases List.mem_append.mp hentry with hold | hnew
    · exact absurd hname (hfree entry hold)
    · rw [List.mem_singleton.mp hnew]
  · rw [hexec] at hinserted
    cases hinserted

theorem hasKey_of_insertRoomMember (role : Int)
    (hroom : RoomAt db roomId name) (huid : db.Registered uid) :
    (db.execStatement (.insertIgnoreRoomMember roomId uid
      role)).1.roomMembers.HasKey (roomId, uid) := by
  have hexec : (db.execStatement (.insertIgnoreRoomMember roomId uid
      role)).1 = { db with
        roomMembers := db.roomMembers.insertIgnore ⟨roomId, uid, role⟩ } :=
    if_pos ⟨hroom.get?, huid⟩
  rw [hexec]
  exact KeyedTable.hasKey_insertIgnore_self db.roomMembers
    ⟨roomId, uid, role⟩

end Rooms

namespace ChatNode

variable {config : ServerConfig} {node next : ChatNode} {action : Action}

/-! ## What the answers tell about rooms -/

abbrev NodeLog := List (Sigma NodeCall.Answer)

/-- What an answer tells about the rooms of the database. -/
def Told (db : Database) : (call : NodeCall) → call.Answer → Prop
  | .sql (.query (.selectRoomByName name)), outcome =>
      ∀ room, outcome.result = some (some room) →
        RoomAt db room.roomId name
  | .sql (.query (.insertRoom name creator)), outcome =>
      ∀ roomId, outcome.result = some roomId →
        RoomAt db roomId name ∧ CreatedBy db name creator
  | .sql (.query (.insertIgnoreRoomMember roomId uid _)), outcome =>
      outcome.executed = true ∨ outcome.result.isSome = true →
        db.roomMembers.HasKey (roomId, uid)
  | _, _ => True

theorem Told.grows {db after : Database} {call : NodeCall}
    {answer : call.Answer} (htold : Told db call answer)
    (hgrows : db.Grows after) : Told after call answer := by
  unfold Told at htold ⊢
  split at htold
  · intro room hroom
    exact (htold room hroom).grows hgrows
  · intro roomId hroomId
    exact ⟨(htold roomId hroomId).1.grows hgrows,
      (htold roomId hroomId).2.grows hgrows⟩
  · intro hexecuted
    exact hgrows.members _ (htold hexecuted)
  · trivial

/-- A room the log has come across, under some name. -/
def Met (log : NodeLog) (roomId : Int) : Prop :=
  (∃ name outcome room,
    ⟨.sql (.query (.selectRoomByName name)), outcome⟩ ∈ log ∧
      outcome.result = some (some room) ∧ room.roomId = roomId) ∨
  ∃ name creator outcome,
    ⟨.sql (.query (.insertRoom name creator)), outcome⟩ ∈ log ∧
      outcome.result = some roomId

theorem roomAt_of_met {db : Database} {log : NodeLog} {roomId : Int}
    (hlog : ∀ entry ∈ log, Told db entry.1 entry.2)
    (hmet : Met log roomId) : ∃ name, RoomAt db roomId name := by
  rcases hmet with ⟨name, outcome, room, hmem, hresult, rfl⟩ |
    ⟨name, creator, outcome, hmem, hresult⟩
  · have htold : ∀ room, outcome.result = some (some room) →
        RoomAt db room.roomId name := hlog _ hmem
    exact ⟨name, htold room hresult⟩
  · have htold : ∀ roomId, outcome.result = some roomId →
        RoomAt db roomId name ∧ CreatedBy db name creator := hlog _ hmem
    exact ⟨name, (htold roomId hresult).1⟩

theorem told_exec {world after : NodeWorld} {call : NodeCall}
    {answer : call.Answer}
    (heffect : world.effect call answer = some after)
    (hmember : ∀ roomId uid role,
      call = .sql (.query (.insertIgnoreRoomMember roomId uid role)) →
        (∃ name, RoomAt world.db roomId name) ∧
          world.db.Registered uid) :
    Told after.db call answer := by
  unfold Told
  split
  · rename_i name outcome
    intro room hresult
    obtain ⟨db, hdb, rfl⟩ := Option.map_eq_some_iff.mp heffect
    obtain ⟨_, hafter, hfound⟩ := executed_of_result hdb hresult
    rw [hafter]
    exact roomAt_of_selectRoomByName hfound
  · rename_i name creator outcome
    intro roomId hresult
    obtain ⟨db, hdb, rfl⟩ := Option.map_eq_some_iff.mp heffect
    obtain ⟨_, hafter, hinserted⟩ := executed_of_result hdb hresult
    rw [hafter]
    exact created_of_insertRoom hinserted
  · rename_i roomId uid role outcome
    intro hexecuted
    obtain ⟨db, hdb, rfl⟩ := Option.map_eq_some_iff.mp heffect
    obtain ⟨⟨name, hroom⟩, huid⟩ := hmember roomId uid role rfl
    rcases query_of_effect hdb with ⟨_, hafter, _⟩ | ⟨hlost, hnone, _⟩
    · rw [hafter]
      exact hasKey_of_insertRoomMember role hroom huid
    · simp [hlost, hnone] at hexecuted
  · trivial

/-! ## The programs of `RoomService` -/

section Programs

open Prog

theorem ensures_getRoomByName (name : String) :
    (answerRepository (.getRoomByName name)).Ensures fun log found =>
      ∀ room, found = some room → ∃ outcome row,
        ⟨.sql (.query (.selectRoomByName name)), outcome⟩ ∈ log ∧
          outcome.result = some (some row) ∧ row.roomId = room.roomId := by
  intro log found hreaches room hroom
  obtain ⟨-, hnone⟩ | ⟨outcome, hmem, hfound⟩ :=
    ensures_query log found hreaches
  · rw [hroom] at hnone
    cases hnone
  · rw [hroom] at hfound
    obtain ⟨row, hrow, rfl⟩ := Option.map_eq_some_iff.mp hfound.symm
    exact ⟨outcome, row, hmem,
      (Option.getD_eq_iff.mp hrow).resolve_right (by simp), rfl⟩

theorem ensures_insertRoom (name creator : String) :
    (answerRepository (.createRoom name creator)).Ensures fun log roomId =>
      0 < roomId → ∃ outcome,
        ⟨.sql (.query (.insertRoom name creator)), outcome⟩ ∈ log ∧
          outcome.result = some roomId := by
  intro log roomId hreaches hpos
  obtain ⟨-, hzero⟩ | ⟨outcome, hmem, hid⟩ :=
    ensures_query log roomId hreaches
  · exact absurd hzero (ne_of_gt hpos)
  · exact ⟨outcome, hmem, (Option.getD_eq_iff.mp hid.symm).resolve_right
      fun hnone => absurd hnone.2 (ne_of_lt hpos)⟩

/-- Either no connection was there, or the row was sent. -/
theorem ensures_addRoomMember (roomId : Int) (uid : String) (role : Int) :
    (answerRepository (.addRoomMember roomId uid role)).Ensures fun log ok =>
      ∃ entry ∈ log,
        entry = ⟨.sql .getConnection, false⟩ ∧ ok = false ∨
        ∃ outcome, entry =
            ⟨.sql (.query (.insertIgnoreRoomMember roomId uid role)),
              outcome⟩ ∧
          ok = outcome.result.isSome := by
  intro log ok hreaches
  obtain ⟨hmem, hok⟩ | ⟨outcome, hmem, hok⟩ := ensures_query log ok hreaches
  · exact ⟨_, hmem, .inl ⟨rfl, hok⟩⟩
  · exact ⟨_, hmem, .inr ⟨outcome, rfl, hok⟩⟩

theorem ensures_trivial {α : Type} (prog : NodeProg α) :
    prog.Ensures fun _ _ => True :=
  fun _ _ _ => trivial

/-- A room was created, and after that its creator was to be entered. -/
theorem ensures_createRoom (name uid : String) :
    ((RoomService.createRoom name uid).translate answerRepository).Ensures
      fun log result => result.success = true →
        ∃ first entry rest outcome, log = first ++ entry :: rest ∧
          ⟨.sql (.query (.insertRoom name uid)), outcome⟩ ∈ first ∧
          outcome.result = some result.roomId ∧
          (entry = ⟨.sql .getConnection, false⟩ ∨
            ∃ member, entry =
              ⟨.sql (.query (.insertIgnoreRoomMember result.roomId uid 2)),
                member⟩) := by
  unfold RoomService.createRoom
  rw [translate_request_bind]
  refine (ensures_trivial _).bind fun before taken _ => ?_
  cases taken with
  | true => exact ensures_ret.mpr fun hsuccess => nomatch hsuccess
  | false =>
      show Ensures (Prog.translate answerRepository
        (repository (.createRoom name uid) >>= _)) _
      rw [translate_request_bind]
      refine (ensures_insertRoom name uid).bind fun log roomId hroom => ?_
      by_cases hpos : roomId ≤ 0
      · rw [if_pos hpos]
        exact ensures_ret.mpr fun hsuccess => nomatch hsuccess
      · rw [if_neg hpos, translate_request_bind]
        refine (ensures_addRoomMember roomId uid 2).bind
          fun entered ok hentered => ?_
        refine ensures_ret.mpr fun _ => ?_
        obtain ⟨outcome, hmem, hresult⟩ := hroom (Int.not_le.mp hpos)
        obtain ⟨entry, hentry, hkind⟩ := hentered
        obtain ⟨first, rest, rfl⟩ := List.append_of_mem hentry
        refine ⟨before ++ log ++ first, entry, rest, outcome, by simp, ?_,
          hresult, ?_⟩
        · simp [hmem]
        · rcases hkind with ⟨hconn, _⟩ | ⟨member, hsent, _⟩
          · exact .inl hconn
          · exact .inr ⟨member, hsent⟩

theorem ensures_joinRoom (name uid : String) :
    ((RoomService.joinRoom name uid).translate answerRepository).Ensures
      fun log result => result.success = true →
        ∃ room outcome member,
          ⟨.sql (.query (.selectRoomByName name)), outcome⟩ ∈ log ∧
          outcome.result = some (some room) ∧
          ⟨.sql (.query (.insertIgnoreRoomMember room.roomId uid 0)),
            member⟩ ∈ log ∧
          member.result.isSome = true := by
  unfold RoomService.joinRoom
  rw [translate_request_bind]
  refine (ensures_getRoomByName name).bind fun log found hfound => ?_
  cases found with
  | none => exact ensures_ret.mpr fun hsuccess => nomatch hsuccess
  | some room =>
      show Ensures (Prog.translate answerRepository
        (repository (.addRoomMember room.roomId uid 0) >>= _)) _
      rw [translate_request_bind]
      refine (ensures_addRoomMember room.roomId uid 0).bind
        fun entered ok hentered => ?_
      refine ensures_ret.mpr fun hsuccess => ?_
      obtain ⟨outcome, row, hmem, hresult, hsame⟩ := hfound room rfl
      obtain ⟨entry, hentry, ⟨_, hfalse⟩ | ⟨member, rfl, hok⟩⟩ := hentered
      · rw [hfalse] at hsuccess
        cases hsuccess
      · refine ⟨row, outcome, ?_⟩
        rw [hsame]
        exact ⟨member, by simp [hmem], hresult, by simp [hentry],
          hok ▸ hsuccess⟩

/-- Members are only added to rooms the program has met. -/
def MeetsFirst (log : NodeLog) (call : NodeCall) : Prop :=
  ∀ roomId uid role,
    call = .sql (.query (.insertIgnoreRoomMember roomId uid role)) →
      Met log roomId

theorem issues_of_sends {call : RepositoryCall}
    {pre : NodeLog → NodeCall → Prop}
    (hpre : ∀ log inner, inner.Sends call.Sends → pre log inner) :
    (answerRepository call).Issues pre := by
  intro log inner next hreaches
  exact hpre log inner
    (onlyCalls_answerRepository call log inner next hreaches)

theorem issues_createRoom (name uid : String) :
    ((RoomService.createRoom name uid).translate answerRepository).Issues
      MeetsFirst := by
  unfold RoomService.createRoom
  rw [translate_request_bind]
  refine Issues.bind (issues_of_sends ?_) (ensures_trivial _) ?_
  · rintro log inner hsends roomId other role rfl
    cases hsends
  intro before taken _
  cases taken with
  | true => exact issues_ret
  | false =>
      show Issues (Prog.translate answerRepository
        (repository (.createRoom name uid) >>= _)) _
      rw [translate_request_bind]
      refine Issues.bind (issues_of_sends ?_) (ensures_insertRoom name uid)
        ?_
      · rintro log inner hsends roomId other role rfl
        cases hsends
      intro log roomId hroom
      by_cases hpos : roomId ≤ 0
      · rw [if_pos hpos]
        exact issues_ret
      · rw [if_neg hpos, translate_request_bind]
        refine Issues.bind (issues_of_sends ?_) (ensures_trivial _)
          fun _ _ _ => issues_ret
        rintro rest inner hsends other member role rfl
        cases hsends
        obtain ⟨outcome, hmem, hresult⟩ := hroom (Int.not_le.mp hpos)
        exact .inr ⟨name, uid, outcome, by simp [hmem], hresult⟩

theorem issues_joinRoom (name uid : String) :
    ((RoomService.joinRoom name uid).translate answerRepository).Issues
      MeetsFirst := by
  unfold RoomService.joinRoom
  rw [translate_request_bind]
  refine Issues.bind (issues_of_sends ?_) (ensures_getRoomByName name) ?_
  · rintro log inner hsends roomId other role rfl
    cases hsends
  intro log found hfound
  cases found with
  | none => exact issues_ret
  | some room =>
      show Issues (Prog.translate answerRepository
        (repository (.addRoomMember room.roomId uid 0) >>= _)) _
      rw [translate_request_bind]
      refine Issues.bind (issues_of_sends ?_) (ensures_trivial _)
        fun _ _ _ => issues_ret
      rintro rest inner hsends other member role rfl
      cases hsends
      obtain ⟨outcome, row, hmem, hresult, hsame⟩ := hfound room rfl
      exact .inl ⟨name, outcome, row, by simp [hmem], hresult, hsame⟩

theorem issues_createRoomTask (nodeId : String) (conn : Conn)
    (uid name : String) :
    (((Task.createRoom conn uid name).program nodeId).translate
      answerRepository).Issues MeetsFirst := by
  rw [Task.program, translate_bind]
  refine (issues_createRoom name uid).bind (ensures_trivial _) ?_
  intro log result _
  exact issues_ret

theorem issues_joinRoomTask (nodeId : String) (conn : Conn)
    (uid name : String) :
    (((Task.joinRoom conn uid name).program nodeId).translate
      answerRepository).Issues MeetsFirst := by
  rw [Task.program, translate_bind]
  refine (issues_joinRoom name uid).bind (ensures_trivial _) ?_
  intro log result _
  exact issues_ret

/-- What lies behind a room callback that reports success. -/
def Shows (log : NodeLog) : Callback → Prop
  | .createRoom _ uid name result => result.success = true →
      ∃ first entry rest outcome, log = first ++ entry :: rest ∧
        ⟨.sql (.query (.insertRoom name uid)), outcome⟩ ∈ first ∧
        outcome.result = some result.roomId ∧
        (entry = ⟨.sql .getConnection, false⟩ ∨
          ∃ member, entry =
            ⟨.sql (.query (.insertIgnoreRoomMember result.roomId uid 2)),
              member⟩)
  | .joinRoom _ uid name result => result.success = true →
      ∃ room outcome member,
        ⟨.sql (.query (.selectRoomByName name)), outcome⟩ ∈ log ∧
        outcome.result = some (some room) ∧
        ⟨.sql (.query (.insertIgnoreRoomMember room.roomId uid 0)),
          member⟩ ∈ log ∧
        member.result.isSome = true
  | _ => True

theorem ensures_shows (nodeId : String) (task : Task) :
    ((task.program nodeId).translate answerRepository).Ensures
      fun log callback => ∀ done, callback = some done → Shows log done := by
  cases task with
  | createRoom conn uid name =>
      rw [Task.program, translate_bind]
      refine (ensures_createRoom name uid).bind fun log result hresult => ?_
      refine ensures_ret.mpr fun done hdone => ?_
      cases hdone
      rw [List.append_nil]
      exact hresult
  | joinRoom conn uid name =>
      rw [Task.program, translate_bind]
      refine (ensures_joinRoom name uid).bind fun log result hresult => ?_
      refine ensures_ret.mpr fun done hdone => ?_
      cases hdone
      rw [List.append_nil]
      exact hresult
  | _ =>
      rw [Task.program, translate_bind]
      refine (ensures_trivial _).bind fun log result _ => ?_
      refine ensures_ret.mpr fun done hdone => ?_
      cases hdone <;> trivial

end Programs

end ChatNode

/-! ## Rooms in memory -/

/-- The callback reports that the user is in the room now. -/
inductive Callback.Enters : Callback → String → String → Prop
  | created {conn : Conn} {uid name : String} {result : RoomResult}
      (hsuccess : result.success = true) :
      Enters (.createRoom conn uid name result) name uid
  | joined {conn : Conn} {uid name : String} {result : RoomResult}
      (hsuccess : result.success = true) :
      Enters (.joinRoom conn uid name result) name uid

section Memory

variable {rooms : RoomManager} {name other uid member : String}
  {callback : Callback}

theorem mem_createRoom :
    member ∈ (rooms.createRoom name uid).getRoomMembers other ↔
      member ∈ rooms.getRoomMembers other ∨
        other = name ∧ rooms.rooms name = none ∧ member = uid := by
  unfold RoomManager.createRoom RoomManager.getRoomMembers
  cases hroom : rooms.rooms name with
  | some members => simp
  | none =>
      by_cases hname : other = name
      · subst hname
        simp only [Function.update_self, hroom, Option.getD_some,
          Option.getD_none, OrderedSet.mem_insert, true_and]
        exact or_comm
      · simp [hname]

theorem mem_joinRoom :
    member ∈ (rooms.joinRoom name uid).getRoomMembers other ↔
      member ∈ rooms.getRoomMembers other ∨
        other = name ∧ (rooms.rooms name).isSome = true ∧ member = uid := by
  unfold RoomManager.joinRoom RoomManager.getRoomMembers
  cases hroom : rooms.rooms name with
  | none => simp
  | some members =>
      by_cases hname : other = name
      · subst hname
        simp only [Function.update_self, hroom, Option.getD_some,
          OrderedSet.mem_insert, true_and, Option.isSome_some]
        exact or_comm
      · simp [hname]

theorem isSome_createRoom :
    ((rooms.createRoom name uid).rooms other).isSome = true ↔
      (rooms.rooms other).isSome = true ∨ other = name := by
  unfold RoomManager.createRoom
  cases hroom : rooms.rooms name with
  | some members =>
      by_cases hname : other = name
      · simp [hname, hroom]
      · simp [hname]
  | none =>
      by_cases hname : other = name
      · simp [hname]
      · simp [hname]

theorem isSome_joinRoom :
    ((rooms.joinRoom name uid).rooms other).isSome = true ↔
      (rooms.rooms other).isSome = true := by
  unfold RoomManager.joinRoom
  cases hroom : rooms.rooms name with
  | none => rfl
  | some members =>
      by_cases hname : other = name
      · simp [hname, hroom]
      · simp [hname]

theorem mem_enterRoom_of_mem
    (hmember : member ∈ rooms.getRoomMembers name) :
    member ∈ (callback.enterRoom rooms).getRoomMembers name := by
  unfold Callback.enterRoom
  split
  · split
    · exact mem_createRoom.mpr (.inl hmember)
    · exact hmember
  · split
    · exact mem_joinRoom.mpr (.inl hmember)
    · exact hmember
  · exact hmember

theorem enters_of_mem_enterRoom
    (hmember : member ∈ (callback.enterRoom rooms).getRoomMembers name) :
    member ∈ rooms.getRoomMembers name ∨ callback.Enters name member := by
  unfold Callback.enterRoom at hmember
  split at hmember
  · split at hmember
    · rename_i hsuccess
      rcases mem_createRoom.mp hmember with hold | ⟨rfl, _, rfl⟩
      · exact .inl hold
      · exact .inr (.created hsuccess)
    · exact .inl hmember
  · split at hmember
    · rename_i hsuccess
      rcases mem_joinRoom.mp hmember with hold | ⟨rfl, _, rfl⟩
      · exact .inl hold
      · exact .inr (.joined hsuccess)
    · exact .inl hmember
  · exact .inl hmember

/-- Rooms come into memory by being created. -/
theorem created_of_isSome_enterRoom
    (hroom : ((callback.enterRoom rooms).rooms name).isSome = true) :
    (rooms.rooms name).isSome = true ∨
      ∃ conn uid result, callback = .createRoom conn uid name result ∧
        result.success = true := by
  unfold Callback.enterRoom at hroom
  split at hroom
  · split at hroom
    · rename_i hsuccess
      rcases isSome_createRoom.mp hroom with hold | rfl
      · exact .inl hold
      · exact .inr ⟨_, _, _, rfl, hsuccess⟩
    · exact .inl hroom
  · split at hroom
    · exact .inl (isSome_joinRoom.mp hroom)
    · exact .inl hroom
  · exact .inl hroom

end Memory

namespace ChatNode

variable {config : ServerConfig} {node next : ChatNode} {action : Action}

/-! ## Members in both places -/

/-- Whoever was told to be in a room is so in memory, is reached there by
what is sent to the room, and whoever is in a room in memory has a row for
it. -/
structure MembersAgree (node : ChatNode) : Prop where
  entered : ∀ entry ∈ node.finished, ∀ callback name uid,
    entry.2 = some callback → callback.Enters name uid →
      uid ∈ node.server.rooms.getRoomMembers name
  reached : ∀ entry ∈ node.finished, ∀ callback name uid,
    entry.2 = some callback → callback.Enters name uid →
      ∀ conn msg, node.server.sessions.getConnection uid = some conn →
        (conn, msg) ∈ ServerReplies.toMembers node.server.sessions
          (node.server.rooms.getRoomMembers name) msg
  stored : ∀ name uid, uid ∈ node.server.rooms.getRoomMembers name →
    IsMember node.world.db name uid

def RoomsAgree (node : ChatNode) : Prop :=
  node.Quiescent → MembersAgree node

def RoomMade (log : NodeLog) : Prop :=
  ∃ name creator outcome roomId,
    ⟨.sql (.query (.insertRoom name creator)), outcome⟩ ∈ log ∧
      outcome.result = some roomId

/-- The call that should enter the creator of a room does not. -/
def Lost : (call : NodeCall) → call.Answer → Prop
  | .sql .getConnection, conn => conn = false
  | .sql (.query (.insertIgnoreRoomMember ..)), outcome =>
      outcome.executed = false
  | _, _ => False

/-- Who is entered into a room is registered. -/
def MembersRegistered (node : ChatNode) : Action → Prop
  | .exec _ (.sql (.query (.insertIgnoreRoomMember _ uid _))) _ =>
      node.world.db.Registered uid
  | _ => True

/-- Once a task has made a room, its creator is entered; and a user who has
joined a room is told to `RoomManager` when the room is known there. -/
def RoomsServed (node : ChatNode) : Action → Prop
  | .exec index call answer =>
      ∀ thread, node.threads[index]? = some thread →
        RoomMade thread.log → ¬ Lost call answer
  | .callback loop _ =>
      ∀ functor rest, node.server.loops loop = functor :: rest →
        ∀ conn uid name result,
          functor.callback = .joinRoom conn uid name result →
            result.success = true →
              (node.server.rooms.rooms name).isSome = true
  | _ => True

/-! ## The invariant -/

def Served (log : NodeLog) : Prop :=
  ∀ first entry rest, log = first ++ entry :: rest → RoomMade first →
    ¬ Lost entry.1 entry.2

theorem Served.snoc {log : NodeLog} {last : Sigma NodeCall.Answer}
    (hlog : Served log) (hlast : RoomMade log → ¬ Lost last.1 last.2) :
    Served (log ++ [last]) := by
  intro first entry rest heq hmade
  rcases List.eq_nil_or_concat rest with rfl | ⟨middle, final, rfl⟩
  · have hsplit := List.append_inj' heq rfl
    obtain ⟨rfl, hentry⟩ := hsplit
    cases hentry
    exact hlast hmade
  · rw [List.concat_eq_append, ← List.cons_append, ← List.append_assoc]
      at heq
    exact hlog first entry middle (List.append_inj' heq rfl).1 hmade

/-- The callback tells nothing the database does not know. -/
structure Confirmed (db : Database) (callback : Callback) : Prop where
  member : ∀ name uid, callback.Enters name uid → IsMember db name uid
  creator : ∀ conn uid name result,
    callback = .createRoom conn uid name result →
      result.success = true → CreatedBy db name uid

theorem Confirmed.grows {db after : Database} {callback : Callback}
    (hconfirmed : Confirmed db callback) (hgrows : db.Grows after) :
    Confirmed after callback := by
  constructor
  · intro name uid henters
    exact (hconfirmed.member name uid henters).grows hgrows
  · intro conn uid name result hcallback hsuccess
    exact (hconfirmed.creator conn uid name result hcallback
      hsuccess).grows hgrows

theorem confirmed_of_shows {db : Database} {log : NodeLog}
    {callback : Callback}
    (htold : ∀ entry ∈ log, Told db entry.1 entry.2)
    (hserved : Served log) (hshows : Shows log callback) :
    Confirmed db callback := by
  have hmade {uid name : String} {conn : Conn} {result : RoomResult}
      (hcallback : callback = .createRoom conn uid name result)
      (hsuccess : result.success = true) :
      IsMember db name uid ∧ CreatedBy db name uid := by
    subst hcallback
    obtain ⟨first, entry, rest, outcome, rfl, hmem, hresult, hkind⟩ :=
      hshows hsuccess
    have hinserted : ∀ roomId, outcome.result = some roomId →
        RoomAt db roomId name ∧ CreatedBy db name uid :=
      htold _ (List.mem_append_left _ hmem)
    obtain ⟨hroom, hcreated⟩ := hinserted result.roomId hresult
    have hkept := hserved first entry rest rfl
      ⟨name, uid, outcome, result.roomId, hmem, hresult⟩
    rcases hkind with rfl | ⟨member, rfl⟩
    · exact (hkept rfl).elim
    · have hentered : member.executed = true ∨
          member.result.isSome = true →
            db.roomMembers.HasKey (result.roomId, uid) :=
        htold _ (List.mem_append_right first List.mem_cons_self)
      have hexecuted : member.executed = true := by
        cases hcase : member.executed with
        | true => rfl
        | false => exact (hkept hcase).elim
      exact ⟨⟨result.roomId, hroom, hentered (.inl hexecuted)⟩, hcreated⟩
  constructor
  · intro name uid henters
    cases henters with
    | created hsuccess => exact (hmade rfl hsuccess).1
    | joined hsuccess =>
        obtain ⟨room, outcome, member, hmem, hresult, hsent, hsome⟩ :=
          hshows hsuccess
        have hfound : ∀ room, outcome.result = some (some room) →
            RoomAt db room.roomId name := htold _ hmem
        have hentered : member.executed = true ∨
            member.result.isSome = true →
              db.roomMembers.HasKey (room.roomId, uid) := htold _ hsent
        exact ⟨room.roomId, hfound room hresult, hentered (.inr hsome)⟩
  · intro conn uid name result hcallback hsuccess
    exact (hmade hcallback hsuccess).2

structure RoomsKept (config : ServerConfig) (node : ChatNode) : Prop where
  faithful : ∀ thread ∈ node.threads, (system config).Faithful thread
  told : ∀ thread ∈ node.threads, ∀ entry ∈ thread.log,
    Told node.world.db entry.1 entry.2
  served : ∀ thread ∈ node.threads, Served thread.log
  waiting : ∀ loop, ∀ functor ∈ node.server.loops loop,
    Confirmed node.world.db functor.callback
  created : ∀ name, (node.server.rooms.rooms name).isSome = true →
    ∃ uid ∈ node.server.rooms.getRoomMembers name,
      CreatedBy node.world.db name uid
  stored : ∀ name uid, uid ∈ node.server.rooms.getRoomMembers name →
    IsMember node.world.db name uid
  done : ∀ entry ∈ node.finished, ∀ callback name uid,
    entry.2 = some callback → callback.Enters name uid →
      (∃ loop, ∃ functor ∈ node.server.loops loop,
        functor.callback = callback) ∨
      uid ∈ node.server.rooms.getRoomMembers name

theorem member_of_exec {index : Nat} {thread : NodeThread} {call : NodeCall}
    {answer : call.Answer} {rest : call.Answer → NodeProg (Option Callback)}
    (hnode : RoomsKept config node) (hmem : thread ∈ node.threads)
    (hprog : thread.prog = .call call rest)
    (henters : MembersRegistered node (.exec index call answer))
    (roomId : Int) (uid : String) (role : Int)
    (hcall : call =
      .sql (.query (.insertIgnoreRoomMember roomId uid role))) :
    (∃ name, RoomAt node.world.db roomId name) ∧
      node.world.db.Registered uid := by
  subst hcall
  have hfaithful := hnode.faithful thread hmem
  have hreaches : Prog.Reaches
      ((thread.op.task.program config.nodeId).translate answerRepository)
      thread.log (.call _ rest) := hprog ▸ hfaithful
  obtain ⟨call, hmakes, hsends⟩ := sends_of_faithful hfaithful hprog
  have hmet : Met thread.log roomId := by
    cases hsends
    generalize htask : thread.op.task = task at hmakes hreaches
    cases hmakes with
    | addCreator conn uid name roomId =>
        exact issues_createRoomTask config.nodeId conn uid name _ _ _
          hreaches roomId uid 2 rfl
    | addRoomMember conn uid name roomId =>
        exact issues_joinRoomTask config.nodeId conn uid name _ _ _
          hreaches roomId uid 0 rfl
  exact ⟨roomAt_of_met (hnode.told thread hmem) hmet, henters⟩

theorem rooms_afterCallback (node : ChatNode) (loop now : Nat)
    (functor : Functor) (rest : List Functor) :
    (node.afterCallback loop now functor rest).server.rooms =
      functor.callback.enterRoom node.server.rooms :=
  (ChatServer.caches_runCallback _ functor.request now
    functor.callback).1

/-- A callback that is run enters the user it speaks of. -/
theorem RoomsKept.entered {callback : Callback} {name uid : String}
    (hnode : RoomsKept config node)
    (hconfirmed : Confirmed node.world.db callback)
    (hjoined : ∀ conn uid name result,
      callback = .joinRoom conn uid name result → result.success = true →
        (node.server.rooms.rooms name).isSome = true)
    (henters : callback.Enters name uid) :
    uid ∈ (callback.enterRoom node.server.rooms).getRoomMembers name := by
  cases henters with
  | @created conn uid name result hsuccess =>
      simp only [Callback.enterRoom, hsuccess, if_true]
      rw [mem_createRoom]
      cases hroom : node.server.rooms.rooms name with
      | none => exact .inr ⟨rfl, rfl, rfl⟩
      | some members =>
          obtain ⟨creator, hmember, hcreated⟩ :=
            hnode.created name (by rw [hroom]; rfl)
          have hsame : creator = uid := hcreated.unique
            (hconfirmed.creator conn uid name result rfl hsuccess)
          exact .inl (hsame ▸ hmember)
  | @joined conn uid name result hsuccess =>
      simp only [Callback.enterRoom, hsuccess, if_true]
      rw [mem_joinRoom]
      exact .inr ⟨rfl, hjoined conn uid name result rfl hsuccess, rfl⟩

theorem RoomsKept.callback {loop now : Nat} {functor : Functor}
    {rest : List Functor} (hnode : RoomsKept config node)
    (hloop : node.server.loops loop = functor :: rest)
    (hserved : RoomsServed node (.callback loop now)) :
    RoomsKept config (node.afterCallback loop now functor rest) := by
  obtain ⟨_, hloops, _⟩ := afterCallback_frame node loop now functor rest
  have hrooms := rooms_afterCallback node loop now functor rest
  have hconfirmed : Confirmed node.world.db functor.callback :=
    hnode.waiting loop functor (hloop ▸ List.mem_cons_self)
  refine ⟨hnode.faithful, hnode.told, hnode.served, ?_, ?_, ?_, ?_⟩
  · intro other each heach
    rw [hloops] at heach
    exact hnode.waiting other each (mem_loops_of_mem_rest hloop heach)
  · intro name hroom
    rw [hrooms] at hroom ⊢
    rcases created_of_isSome_enterRoom hroom with
      hold | ⟨conn, uid, result, hcallback, hsuccess⟩
    · obtain ⟨uid, hmember, hcreated⟩ := hnode.created name hold
      exact ⟨uid, mem_enterRoom_of_mem hmember, hcreated⟩
    · have henters : functor.callback.Enters name uid := by
        rw [hcallback]
        exact .created hsuccess
      exact ⟨uid, hnode.entered hconfirmed (hserved functor rest hloop)
        henters, hconfirmed.creator conn uid name result hcallback hsuccess⟩
  · intro name uid hmember
    rw [hrooms] at hmember
    rcases enters_of_mem_enterRoom hmember with hold | henters
    · exact hnode.stored name uid hold
    · exact hconfirmed.member name uid henters
  · intro entry hentry callback name uid hcallback henters
    rw [hrooms, hloops]
    rcases hnode.done entry hentry callback name uid hcallback henters with
      ⟨other, each, heach, rfl⟩ | hmember
    · by_cases hsame : each = functor
      · subst hsame
        exact .inr (hnode.entered hconfirmed (hserved each rest hloop)
          henters)
      · exact .inl ⟨other, each, mem_rest_of_ne hloop heach hsame, rfl⟩
    · exact .inr (mem_enterRoom_of_mem hmember)

theorem RoomsKept.finish {index : Nat} {thread : NodeThread}
    {callback : Option Callback} (hnode : RoomsKept config node)
    (hthread : node.threads[index]? = some thread)
    (hprog : thread.prog = .ret callback) :
    RoomsKept config { node with
      server := node.server.queueInLoop config thread.op.request callback
      threads := node.threads.eraseIdx index
      finished := (thread.op, callback) :: node.finished } := by
  have hmem := List.mem_of_getElem? hthread
  have hrooms :=
    queueInLoop_rooms config node.server thread.op.request callback
  refine ⟨?_, ?_, ?_, ?_, ?_, ?_, ?_⟩
  · intro other hother
    exact hnode.faithful other (List.mem_of_mem_eraseIdx hother)
  · intro other hother
    exact hnode.told other (List.mem_of_mem_eraseIdx hother)
  · intro other hother
    exact hnode.served other (List.mem_of_mem_eraseIdx hother)
  · intro loop functor hfunctor
    rcases mem_loops_queueInLoop hfunctor with hold | ⟨hdone, _⟩
    · exact hnode.waiting loop functor hold
    · have hreaches : Prog.Reaches
          ((thread.op.task.program config.nodeId).translate
            answerRepository) thread.log (.ret callback) :=
        hprog ▸ hnode.faithful thread hmem
      exact confirmed_of_shows (hnode.told thread hmem)
        (hnode.served thread hmem)
        (ensures_shows config.nodeId thread.op.task _ _ hreaches _ hdone)
  · intro name hroom
    rw [hrooms] at hroom ⊢
    exact hnode.created name hroom
  · intro name uid hmember
    rw [hrooms] at hmember
    exact hnode.stored name uid hmember
  · intro entry hentry done name uid hdone henters
    rw [hrooms]
    rcases List.mem_cons.mp hentry with rfl | hold
    · cases hdone
      exact .inl ⟨_, _, mem_loops_queueInLoop_self _ _ done, rfl⟩
    · rcases hnode.done entry hold done name uid hdone henters with
        ⟨loop, functor, hfunctor, hsame⟩ | hmember
      · exact .inl ⟨loop, functor, mem_loops_queueInLoop_of_mem hfunctor,
          hsame⟩
      · exact .inr hmember

theorem RoomsKept.withWorld {world : NodeWorld}
    (hnode : RoomsKept config node)
    (hgrows : node.world.db.Grows world.db) :
    RoomsKept config { node with world := world } := by
  refine ⟨hnode.faithful, ?_, hnode.served, ?_, ?_, ?_, hnode.done⟩
  · intro thread hthread entry hentry
    exact (hnode.told thread hthread entry hentry).grows hgrows
  · intro loop functor hfunctor
    exact (hnode.waiting loop functor hfunctor).grows hgrows
  · intro name hroom
    obtain ⟨uid, hmember, hcreated⟩ := hnode.created name hroom
    exact ⟨uid, hmember, hcreated.grows hgrows⟩
  · intro name uid hmember
    exact (hnode.stored name uid hmember).grows hgrows

theorem RoomsKept.exec {index : Nat} {call : NodeCall}
    {answer : call.Answer} {thread : NodeThread} {world : NodeWorld}
    {rest : call.Answer → NodeProg (Option Callback)}
    (hnode : RoomsKept config node)
    (hthread : node.threads[index]? = some thread)
    (hprog : thread.prog = .call call rest)
    (heffect : node.world.effect call answer = some world)
    (hgrows : node.world.db.Grows world.db)
    (hfaithful : ∀ other ∈ node.threads.set index
      (thread.advance call answer (rest answer)),
        (system config).Faithful other)
    (henters : MembersRegistered node (.exec index call answer))
    (hserved : RoomsServed node (.exec index call answer)) :
    RoomsKept config { node with
      world := world
      threads := node.threads.set index
        (thread.advance call answer (rest answer)) } := by
  have hmem := List.mem_of_getElem? hthread
  have hgrown := hnode.withWorld hgrows
  refine ⟨hfaithful, ?_, ?_, hgrown.waiting, hgrown.created, hgrown.stored,
    hnode.done⟩
  · intro other hother entry hentry
    rcases List.mem_or_eq_of_mem_set hother with hold | rfl
    · exact hgrown.told other hold entry hentry
    · rcases List.mem_append.mp hentry with hold | hnew
      · exact hgrown.told thread hmem entry hold
      · rw [List.mem_singleton.mp hnew]
        exact told_exec heffect
          (member_of_exec hnode hmem hprog henters)
  · intro other hother
    rcases List.mem_or_eq_of_mem_set hother with hold | rfl
    · exact hnode.served other hold
    · exact (hnode.served thread hmem).snoc (hserved thread hthread)

theorem RoomsKept.step (hnode : RoomsKept config node)
    (hstep : step config node action = some next)
    (henters : MembersRegistered node action)
    (hserved : RoomsServed node action) : RoomsKept config next := by
  have hfaithful := faithful_step hstep hnode.faithful
  have hgrows := database_step hnode.faithful hstep
  cases steps_of_step hstep with
  | receive conn envelope =>
      have hrooms :=
        (ChatServer.cachesKept_receive node.server conn envelope).rooms
      have hloops := loops_receive node.server conn envelope
      refine ⟨hfaithful, hnode.told, hnode.served, ?_, ?_, ?_, ?_⟩
      · intro loop functor hfunctor
        rw [hloops] at hfunctor
        exact hnode.waiting loop functor hfunctor
      · intro name hroom
        rw [hrooms] at hroom ⊢
        exact hnode.created name hroom
      · intro name uid hmember
        rw [hrooms] at hmember
        exact hnode.stored name uid hmember
      · intro entry hentry callback name uid hcallback henters
        rw [hrooms, hloops]
        exact hnode.done entry hentry callback name uid hcallback henters
  | start item rest hqueue =>
      refine ⟨hfaithful, ?_, ?_, hnode.waiting, hnode.created, hnode.stored,
        hnode.done⟩
      · intro thread hthread entry hentry
        rcases List.mem_append.mp hthread with hold | hnew
        · exact hnode.told thread hold entry hentry
        · rw [List.mem_singleton.mp hnew] at hentry
          cases hentry
      · intro thread hthread
        rcases List.mem_append.mp hthread with hold | hnew
        · exact hnode.served thread hold
        · rw [List.mem_singleton.mp hnew]
          intro first entry rest hlog
          simp [ThreadSystem.begin] at hlog
  | exec hthread hprog heffect =>
      exact hnode.exec hthread hprog heffect hgrows hfaithful henters hserved
  | finish hthread hprog => exact hnode.finish hthread hprog
  | callback loop now functor rest hloop =>
      exact hnode.callback hloop hserved
  | disturb hdisturb => exact hnode.withWorld hgrows
  | invalidLength | parseError | close =>
      exact ⟨hfaithful, hnode.told, hnode.served, hnode.waiting, hnode.created,
        hnode.stored, hnode.done⟩

/-! ## Runs -/

theorem mem_toMembers {manager : SessionManager}
    {members : OrderedSet String} {uid : String} {conn : Conn}
    (msg : ServerMessage) (hmember : uid ∈ members)
    (hconn : manager.getConnection uid = some conn) :
    (conn, msg) ∈ ServerReplies.toMembers manager members msg := by
  refine List.mem_flatMap.mpr ⟨uid, hmember, ?_⟩
  simp [ServerReplies.toUser, hconn]

theorem RoomsKept.membersAgree (hnode : RoomsKept config node)
    (hquiet : node.Quiescent) : MembersAgree node := by
  have hentered (entry : PoolTask × Option Callback)
      (hentry : entry ∈ node.finished) (callback : Callback)
      (name uid : String) (hcallback : entry.2 = some callback)
      (henters : callback.Enters name uid) :
      uid ∈ node.server.rooms.getRoomMembers name := by
    rcases hnode.done entry hentry callback name uid hcallback henters with
      ⟨loop, functor, hfunctor, _⟩ | hmember
    · rw [hquiet.loops loop] at hfunctor
      cases hfunctor
    · exact hmember
  refine ⟨hentered, ?_, hnode.stored⟩
  intro entry hentry callback name uid hcallback henters conn msg hconn
  exact mem_toMembers msg
    (hentered entry hentry callback name uid hcallback henters) hconn

theorem roomsKept_start (world : NodeWorld) :
    RoomsKept config { world := world } := by
  refine ⟨?_, ?_, ?_, ?_, ?_, ?_, ?_⟩ <;>
    simp [ChatServer.initial, RoomManager.getRoomMembers]

/-- The rooms of `RoomManager` over whole runs: as long as members are
registered, creators are entered and joins reach rooms that are known in
memory, the members in memory and in the database agree whenever the node is
idle. -/
theorem rooms_agree_of_served (config : ServerConfig) (world : NodeWorld)
    (actions : List Action)
    (henters : Runs.EachStep (step config) MembersRegistered
      { world := world } actions)
    (hserved : Runs.EachStep (step config) RoomsServed { world := world }
      actions) :
    Runs.Always (step config) RoomsAgree { world := world } actions := by
  have hsteps : Runs.EachStep (step config)
      (fun node action => MembersRegistered node action ∧
        RoomsServed node action) { world := world } actions :=
    fun before action state next hinit hrun hstep =>
      ⟨henters before action state next hinit hrun hstep,
        hserved before action state next hinit hrun hstep⟩
  have hkept : Runs.Always (step config) (RoomsKept config)
      { world := world } actions :=
    Runs.always_of_eachStep (roomsKept_start world)
      (fun _ _ _ hstep hnode hok => hnode.step hstep hok.1 hok.2) hsteps
  intro before state hinit hrun hquiet
  exact (hkept before state hinit hrun).membersAgree hquiet

/-- A request to create the room and its task. -/
def createCalls (name uid : String) : List Action :=
  [.receive 0 (.createRoom { name := name }), .start] ++
    queryOf 0 (.selectRoomByName name) none ++
    queryOf 0 (.insertRoom name uid) (1 : Int) ++
    queryOf 0 (.insertIgnoreRoomMember 1 uid 2) () ++ [.finish 0]

/-- A request to join the room and its task. -/
def joinCalls (name uid : String) : List Action :=
  [.receive 0 (.joinRoom { roomName := name }), .start] ++
    queryOf 0 (.selectRoomByName name)
      (some { roomId := 1, name := name, creatorUid := "ann" }) ++
    queryOf 0 (.insertIgnoreRoomMember 1 uid 0) () ++ [.finish 0]

/-- Actions that are served wherever they happen. -/
def Unlost : Action → Prop
  | .exec _ call answer => ¬ Lost call answer
  | .callback .. => False
  | _ => True

theorem unlost_getConnection {index : Nat} :
    Unlost (.exec index (.sql .getConnection) true) :=
  Bool.noConfusion

theorem Unlost.roomsServed (hunlost : Unlost action) :
    RoomsServed node action := by
  cases action with
  | exec index call answer => exact fun _ _ _ => hunlost
  | callback loop now => exact hunlost.elim
  | _ => trivial

theorem eachStep_of_unlost {actions : List Action}
    (hunlost : ∀ action ∈ actions, Unlost action) :
    Runs.EachStep (step config) RoomsServed node actions :=
  Runs.eachStep_of_forall fun action haction _ =>
    (hunlost action haction).roomsServed

theorem roomsServed_callback {loop now : Nat} {functor : Functor}
    (hloop : node.server.loops loop = [functor])
    (hjoined : ∀ conn uid name result,
      functor.callback = .joinRoom conn uid name result →
        (node.server.rooms.rooms name).isSome = true) :
    RoomsServed node (.callback loop now) := by
  intro other rest hother conn uid name result hcallback _
  rw [hloop] at hother
  cases hother
  exact hjoined conn uid name result hcallback

/-- Actions that enter nobody but this user. -/
def EntersOnly (uid : String) : Action → Prop
  | .exec _ (.sql (.query (.insertIgnoreRoomMember _ member _))) _ =>
      member = uid
  | _ => True

theorem eachStep_membersRegistered {world : NodeWorld} {uid : String}
    {actions : List Action} (huid : world.db.Registered uid)
    (hactions : ∀ action ∈ actions, EntersOnly uid action) :
    Runs.EachStep (step config) MembersRegistered { world := world }
      actions := by
  intro before action state next hinit hrun _
  have hstate : (∀ thread ∈ state.threads, (system config).Faithful thread) ∧
      state.world.db.Registered uid := by
    refine @Runs.invariant_of_run _ _ (step config) (fun node =>
      (∀ thread ∈ node.threads, (system config).Faithful thread) ∧
        node.world.db.Registered uid) _ _ _ ⟨by simp, huid⟩ ?_ hrun
    rintro node action after hstep ⟨hfaithful, hregistered⟩
    exact ⟨faithful_step hstep hfaithful,
      (database_step hfaithful hstep).users uid hregistered⟩
  have hactor : EntersOnly uid action := hactions action (hinit.subset
    (List.mem_append_right before List.mem_cons_self))
  unfold MembersRegistered
  split
  · have hsame : _ = uid := hactor
    rw [hsame]
    exact hstate.2
  · trivial

/-- The user creates a room and joins it. -/
def createAndJoin : List Action :=
  annLogin.dropLast ++ .callback 0 0 :: createCalls "r" "ann" ++
    .callback 0 0 :: joinCalls "r" "ann" ++ [.callback 0 0]

theorem eachStep_createAndJoin :
    Runs.EachStep (step twoWorkers) RoomsServed
      { world := { db := annRegistered } } createAndJoin := by
  have hrun : ∃ first second third fourth fifth : ChatNode,
      ∃ login created joined,
      Runs.runFrom (step twoWorkers) { world := { db := annRegistered } }
        annLogin.dropLast = some first ∧
      first.server.loops 0 = [⟨0, .login 0 login⟩] ∧
      step twoWorkers first (.callback 0 0) = some second ∧
      Runs.runFrom (step twoWorkers) second (createCalls "r" "ann") =
        some third ∧
      third.server.loops 0 = [⟨1, .createRoom 0 "ann" "r" created⟩] ∧
      step twoWorkers third (.callback 0 0) = some fourth ∧
      Runs.runFrom (step twoWorkers) fourth (joinCalls "r" "ann") =
        some fifth ∧
      fifth.server.loops 0 = [⟨2, .joinRoom 0 "ann" "r" joined⟩] ∧
      (fifth.server.rooms.rooms "r").isSome = true :=
    ⟨_, _, _, _, _, _, _, _, rfl, rfl, rfl, rfl, rfl, rfl, rfl, rfl, rfl⟩
  obtain ⟨first, second, third, fourth, fifth, login, created, joined,
    hfirst, hlogin, hsecond, hthird, hcreated, hfourth, hfifth, hjoined,
    hroom⟩ := hrun
  have hunlostLogin : ∀ action ∈ annLogin.dropLast, Unlost action := by
    have hsplit : annLogin.dropLast =
        [.receive 0 (.loginReq { uid := "ann", passwd := "secret" }), .start] ++
          loginCalls 0 "ann" "secret" "t" ++ collectCalls 0 "ann" [] ++
            [.finish 0] := rfl
    rw [hsplit]
    simp only [List.forall_mem_append, List.forall_mem_cons]
    exact ⟨⟨⟨⟨trivial, trivial, List.forall_mem_nil _⟩,
      forall_mem_loginCalls unlost_getConnection id id id id id id id
        fun _ => id⟩,
      forall_mem_collectCalls unlost_getConnection id id id id⟩, trivial,
      List.forall_mem_nil _⟩
  have hunlostCreate : ∀ action ∈ createCalls "r" "ann", Unlost action := by
    simp only [createCalls, List.forall_mem_append, List.forall_mem_cons]
    exact ⟨⟨⟨⟨⟨trivial, trivial, List.forall_mem_nil _⟩,
      forall_mem_queryOf unlost_getConnection id id⟩,
      forall_mem_queryOf unlost_getConnection id id⟩,
      forall_mem_queryOf unlost_getConnection id Bool.noConfusion⟩, trivial,
      List.forall_mem_nil _⟩
  have hunlostJoin : ∀ action ∈ joinCalls "r" "ann", Unlost action := by
    simp only [joinCalls, List.forall_mem_append, List.forall_mem_cons]
    exact ⟨⟨⟨⟨trivial, trivial, List.forall_mem_nil _⟩,
      forall_mem_queryOf unlost_getConnection id id⟩,
      forall_mem_queryOf unlost_getConnection id Bool.noConfusion⟩, trivial,
      List.forall_mem_nil _⟩
  have hjoin : Runs.EachStep (step twoWorkers) RoomsServed fourth
      (joinCalls "r" "ann" ++ [.callback 0 0]) := by
    refine Runs.EachStep.append (eachStep_of_unlost hunlostJoin) ?_
    intro middle hmiddle
    rw [hfifth] at hmiddle
    cases hmiddle
    refine Runs.eachStep_cons.mpr fun last _ =>
      ⟨roomsServed_callback hjoined ?_, Runs.eachStep_nil⟩
    intro conn uid name result hcallback
    cases hcallback
    exact hroom
  have hcreate : Runs.EachStep (step twoWorkers) RoomsServed second
      (createCalls "r" "ann" ++
        .callback 0 0 :: (joinCalls "r" "ann" ++ [.callback 0 0])) := by
    refine Runs.EachStep.append (eachStep_of_unlost hunlostCreate) ?_
    intro middle hmiddle
    rw [hthird] at hmiddle
    cases hmiddle
    refine Runs.EachStep.cons hfourth (roomsServed_callback hcreated ?_)
      hjoin
    intro conn uid name result hcallback
    cases hcallback
  have hall : Runs.EachStep (step twoWorkers) RoomsServed
      { world := { db := annRegistered } }
      (annLogin.dropLast ++ .callback 0 0 :: (createCalls "r" "ann" ++
        .callback 0 0 :: (joinCalls "r" "ann" ++ [.callback 0 0]))) := by
    refine Runs.EachStep.append (eachStep_of_unlost hunlostLogin) ?_
    intro middle hmiddle
    rw [hfirst] at hmiddle
    cases hmiddle
    refine Runs.EachStep.cons hsecond (roomsServed_callback hlogin ?_)
      hcreate
    intro conn uid name result hcallback
    cases hcallback
  simpa [createAndJoin] using hall

theorem entersOnly_createAndJoin :
    ∀ action ∈ createAndJoin, EntersOnly "ann" action := by
  have hlogin : ∀ action ∈ annLogin.dropLast, EntersOnly "ann" action := by
    intro action haction
    refine forall_mem_quietLogin trivial trivial ?_ ?_ trivial trivial action
      (List.mem_of_mem_dropLast haction)
    · exact forall_mem_loginCalls trivial trivial trivial trivial trivial
        trivial trivial trivial fun _ => trivial
    · exact forall_mem_collectCalls trivial trivial trivial trivial trivial
  have hcreate : ∀ action ∈ createCalls "r" "ann",
      EntersOnly "ann" action := by
    simp only [createCalls, List.forall_mem_append, List.forall_mem_cons]
    exact ⟨⟨⟨⟨⟨trivial, trivial, List.forall_mem_nil _⟩,
      forall_mem_queryOf trivial trivial trivial⟩,
      forall_mem_queryOf trivial trivial trivial⟩,
      forall_mem_queryOf trivial trivial rfl⟩, trivial,
      List.forall_mem_nil _⟩
  have hjoin : ∀ action ∈ joinCalls "r" "ann", EntersOnly "ann" action := by
    simp only [joinCalls, List.forall_mem_append, List.forall_mem_cons]
    exact ⟨⟨⟨⟨trivial, trivial, List.forall_mem_nil _⟩,
      forall_mem_queryOf trivial trivial trivial⟩,
      forall_mem_queryOf trivial trivial rfl⟩, trivial,
      List.forall_mem_nil _⟩
  simp only [createAndJoin, List.forall_mem_append, List.forall_mem_cons]
  exact ⟨⟨⟨hlogin, trivial, hcreate⟩, trivial, hjoin⟩, trivial,
    List.forall_mem_nil _⟩

theorem rooms_agree_createAndJoin : ∃ last,
    Runs.runFrom (step twoWorkers) { world := { db := annRegistered } }
        createAndJoin = some last ∧
      last.Quiescent ∧ MembersAgree last ∧
      "ann" ∈ last.server.rooms.getRoomMembers "r" := by
  have hrun : ∃ last,
      Runs.runFrom (step twoWorkers) { world := { db := annRegistered } }
          createAndJoin = some last ∧
        last.Quiescent ∧ "ann" ∈ last.server.rooms.getRoomMembers "r" := by
    refine ⟨_, rfl, ⟨rfl, rfl, ?_⟩, .head _⟩
    intro loop
    cases loop <;> rfl
  obtain ⟨last, hlast, hquiet, hmember⟩ := hrun
  refine ⟨last, hlast, hquiet, ?_, hmember⟩
  exact rooms_agree_of_served twoWorkers { db := annRegistered }
    createAndJoin (eachStep_membersRegistered ⟨_, .head _, rfl⟩
      entersOnly_createAndJoin) eachStep_createAndJoin createAndJoin last
    (List.prefix_refl _) hlast hquiet

def annAndRoom : Database :=
  { annRegistered with
    rooms := AutoTable.empty.insert { name := "r", creatorUid := "ann" } }

/-- A room that was there before the server started is not known to it: its
new member is not in it. -/
theorem rooms_agree_fails_oldRoom :
    ¬ Runs.Always (step twoWorkers) RoomsAgree
      { world := { db := annAndRoom } }
      (annLogin ++ joinCalls "r" "ann" ++ [.callback 0 0]) := by
  intro hagree
  have hrun : ∃ last item conn result,
      Runs.runFrom (step twoWorkers) { world := { db := annAndRoom } }
          (annLogin ++ joinCalls "r" "ann" ++ [.callback 0 0]) =
        some last ∧
      last.Quiescent ∧
      (item, some (.joinRoom conn "ann" "r" result)) ∈ last.finished ∧
      result.success = true ∧
      "ann" ∉ last.server.rooms.getRoomMembers "r" := by
    refine ⟨_, _, _, _, rfl, ⟨rfl, rfl, ?_⟩, .head _, rfl, ?_⟩
    · intro loop
      cases loop <;> rfl
    · exact List.not_mem_nil
  obtain ⟨last, item, conn, result, hlast, hquiet, hdone, hsuccess,
    hmissing⟩ := hrun
  have hmembers := hagree _ last (List.prefix_refl _) hlast hquiet
  exact hmissing (hmembers.entered _ hdone _ "r" "ann" rfl
    (.joined hsuccess))

end ChatNode

end MuduoChat
