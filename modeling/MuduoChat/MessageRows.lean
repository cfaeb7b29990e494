import MuduoChat.NodeUsers

/-!
# Rows of messages

A message keeps its room and its number there for good: a recall changes
other columns, and no statement takes a message away.  The tasks of a node
never queue an offline message, so that whatever a login pushes was stored
before the node started.
-/

namespace MuduoChat

namespace Database

/-- The room of a message and its number there. -/
def Filed (db : Database) (msgId : Int) (roomId : Option Int) (seq : Int) :
    Prop :=
  ∃ row, db.messages.get? msgId = some row ∧ row.roomId = roomId ∧
    row.seq = seq

variable {db after : Database} {msgId seq roomId : Int}

theorem Filed.unique {room other : Option Int} {number : Int}
    (hfiled : db.Filed msgId room seq) (hagain : db.Filed msgId other number) :
    room = other ∧ seq = number := by
  obtain ⟨row, hrow, rfl, rfl⟩ := hfiled
  obtain ⟨same, hsame, rfl, rfl⟩ := hagain
  rw [hrow] at hsame
  cases hsame
  exact ⟨rfl, rfl⟩

theorem Filed.mem_roomSeqs (hfiled : db.Filed msgId (some roomId) seq) :
    seq ∈ db.roomSeqs roomId := by
  obtain ⟨row, hrow, hroom, rfl⟩ := hfiled
  refine List.mem_map.mpr ⟨(msgId, row), ?_, rfl⟩
  rw [List.mem_filter]
  exact ⟨AutoTable.mem_of_get? hrow, by simpa using hroom⟩

/-- The next number of a room is larger than all that are in use. -/
theorem Filed.lt_next (hfiled : db.Filed msgId (some roomId) seq) :
    seq < (db.roomSeqs roomId).max?.getD 0 + 1 := by
  have hmem := hfiled.mem_roomSeqs
  cases hmax : (db.roomSeqs roomId).max? with
  | none =>
      rw [List.max?_eq_none_iff] at hmax
      rw [hmax] at hmem
      cases hmem
  | some largest =>
      have hle : seq ≤ largest :=
        (List.max?_eq_some_iff.mp hmax).2 seq hmem
      simp only [Option.getD_some]
      omega

structure KeepsMessages (db after : Database) : Prop where
  next : db.messages.next ≤ after.messages.next
  filed : ∀ msgId < db.messages.next, ∀ roomId seq,
    after.Filed msgId roomId seq ↔ db.Filed msgId roomId seq
  offline : ∀ entry ∈ after.offlineMessages.entries,
    ∃ old ∈ db.offlineMessages.entries, old.2.msgId = entry.2.msgId

namespace KeepsMessages

theorem of_eq (hmessages : after.messages = db.messages)
    (hoffline : after.offlineMessages = db.offlineMessages) :
    db.KeepsMessages after where
  next := hmessages ▸ le_rfl
  filed msgId _ roomId seq := by
    unfold Filed
    rw [hmessages]
  offline entry hentry := ⟨entry, hoffline ▸ hentry, rfl⟩

theorem insertMessage (seq : Int) (roomId : Option Int) (sender : String)
    (recipient : Option String) (content : String) :
    db.KeepsMessages (db.execStatement
      (.insertMessage seq roomId sender recipient content)).1 := by
  unfold Database.execStatement
  dsimp only
  split
  · refine ⟨?_, ?_, fun entry hentry => ⟨entry, hentry, rfl⟩⟩
    · show db.messages.next ≤ db.messages.next + 1
      omega
    · intro msgId hlt room number
      unfold Filed
      dsimp only
      rw [AutoTable.get?_insert, if_neg (Int.ne_of_lt hlt)]
  · exact of_eq rfl rfl

theorem updateRecalled (msgId : Int) (uid : String) :
    db.KeepsMessages (db.execStatement (.updateRecalled msgId uid)).1 := by
  refine ⟨le_rfl, ?_, fun entry hentry => ⟨entry, hentry, rfl⟩⟩
  intro other _ roomId seq
  unfold Filed Database.execStatement
  dsimp only
  rw [AutoTable.get?_update]
  constructor
  · rintro ⟨row, hrow, rfl, rfl⟩
    obtain ⟨old, hold, rfl⟩ := Option.map_eq_some_iff.mp hrow
    refine ⟨old, hold, ?_, ?_⟩ <;> split <;> rfl
  · rintro ⟨row, hrow, rfl, rfl⟩
    refine ⟨_, Option.map_eq_some_iff.mpr ⟨row, hrow, rfl⟩, ?_, ?_⟩ <;>
      split <;> rfl

theorem markDelivered (uid : String) :
    db.KeepsMessages (db.execStatement (.updateDelivered uid)).1 := by
  refine ⟨le_rfl, fun _ _ _ _ => Iff.rfl, ?_⟩
  intro entry hentry
  obtain ⟨old, hold, rfl⟩ := List.mem_map.mp hentry
  refine ⟨old, hold, ?_⟩
  dsimp only
  split <;> rfl

theorem execStatement {task : Task} {statement : Statement}
    (hsends : task.Sends statement) :
    db.KeepsMessages (db.execStatement statement).1 := by
  obtain ⟨call, hmakes, hsends⟩ := hsends
  cases hsends with
  | insertMessage => exact insertMessage _ _ _ _ _
  | updateRecalled msgId uid => exact updateRecalled msgId uid
  | updateDelivered uid => exact markDelivered uid
  | insertOfflineMessage => cases hmakes
  | insertRequest | insertMirror | insertUser | insertRoom
  | insertIgnoreRoomMember =>
      simp only [Database.execStatement]
      split <;> exact of_eq rfl rfl
  | _ => exact of_eq rfl rfl

end KeepsMessages

theorem mem_undelivered {uid : String} {messages : List MessageInfo}
    {info : MessageInfo}
    (hresult : (db.execStatement (.selectUndelivered uid)).2 = some messages)
    (hinfo : info ∈ messages) :
    ∃ entry ∈ db.offlineMessages.entries, entry.2.msgId = info.msgId := by
  cases hresult
  obtain ⟨entry, hentry, hfound⟩ := List.mem_filterMap.mp hinfo
  obtain ⟨row, _, rfl⟩ := Option.map_eq_some_iff.mp hfound
  exact ⟨entry, (List.mem_filter.mp hentry).1, rfl⟩

end Database

namespace ChatNode

variable {config : ServerConfig} {node next : ChatNode} {action : Action}

theorem keepsMessages_step
    (hnode : ∀ thread ∈ node.threads, (system config).Faithful thread)
    (hstep : step config node action = some next) :
    node.world.db.KeepsMessages next.world.db :=
  related_step (fun _ _ => .of_eq rfl rfl)
    (fun _ _ _ hsends => .execStatement hsends) hnode hstep

end ChatNode

end MuduoChat
