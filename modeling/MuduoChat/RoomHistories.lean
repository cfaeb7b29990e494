import MuduoChat.NodeRooms
import MuduoChat.SetHistories

/-!
# Histories of rooms

All of `RoomManager` under arbitrary calls.  The server uses two of its
methods only; the others let users leave and enter a room that nobody has
created.  A room that is there once is there for good, also when its last
member has left, so that its name can never be given to a creator again.
-/

namespace MuduoChat

namespace RoomManager

/-! ## The other methods -/

/-- The body of the two methods that take a member out. -/
def eraseMember (manager : RoomManager) (name uid : String) : RoomManager :=
  match manager.rooms name with
  | none => manager
  | some members =>
      { rooms := Function.update manager.rooms name
          (some (members.erase uid)) }

def leaveRoom : RoomManager → String → String → RoomManager := eraseMember

def removeRoomMember : RoomManager → String → String → RoomManager :=
  eraseMember

def addRoomMember (manager : RoomManager) (name uid : String) :
    RoomManager :=
  { rooms := Function.update manager.rooms name
      (some ((manager.getRoomMembers name).insert uid)) }

def roomExists (manager : RoomManager) (name : String) : Bool :=
  (manager.rooms name).isSome

def isInRoom (manager : RoomManager) (name uid : String) : Bool :=
  match manager.rooms name with
  | none => false
  | some members => uid ∈ members

end RoomManager

inductive RoomCall where
  | createRoom (name creator : String)
  | joinRoom (name uid : String)
  | leaveRoom (name uid : String)
  | addRoomMember (name uid : String)
  | removeRoomMember (name uid : String)

namespace RoomCall

def apply (manager : RoomManager) : RoomCall → RoomManager
  | createRoom name creator => manager.createRoom name creator
  | joinRoom name uid => manager.joinRoom name uid
  | leaveRoom name uid => manager.leaveRoom name uid
  | addRoomMember name uid => manager.addRoomMember name uid
  | removeRoomMember name uid => manager.removeRoomMember name uid

/-- What the method returns, unless it returns nothing. -/
def returns (manager : RoomManager) : RoomCall → Option Bool
  | createRoom name _ => some (!manager.roomExists name)
  | joinRoom name _ | leaveRoom name _ => some (manager.roomExists name)
  | addRoomMember .. | removeRoomMember .. => none

def outcome (calls : List RoomCall) : RoomManager :=
  calls.foldl apply {}

/-! ## What the calls say -/

/-- After the call there is a room of this name. -/
def Opens (name : String) : RoomCall → Prop
  | createRoom other _ | addRoomMember other _ => other = name
  | _ => False

def Opened (calls : List RoomCall) (name : String) : Prop :=
  ∃ call ∈ calls, call.Opens name

/-- The call lets the user into the room: as the creator of a room that was
not there, as somebody who joins one that was, or unconditionally. -/
def Admits (name uid : String) (before : List RoomCall) : RoomCall → Prop
  | createRoom other creator =>
      other = name ∧ creator = uid ∧ ¬ Opened before name
  | joinRoom other user => other = name ∧ user = uid ∧ Opened before name
  | addRoomMember other user => other = name ∧ user = uid
  | _ => False

def Expels (name uid : String) : RoomCall → Prop
  | leaveRoom other user | removeRoomMember other user =>
      other = name ∧ user = uid
  | _ => False

theorem opened_concat {calls : List RoomCall} {call : RoomCall}
    {name : String} :
    Opened (calls ++ [call]) name ↔ Opened calls name ∨ call.Opens name := by
  simp [Opened, or_and_right, exists_or]

/-! ## One call -/

variable {manager : RoomManager} {name uid : String} {call : RoomCall}

theorem roomExists_apply :
    (call.apply manager).roomExists name = true ↔
      manager.roomExists name = true ∨ call.Opens name := by
  cases call with
  | createRoom other creator =>
      refine isSome_createRoom.trans (or_congr_right ?_)
      exact eq_comm
  | joinRoom other user =>
      exact isSome_joinRoom.trans (or_false _).symm.to_iff
  | leaveRoom other user | removeRoomMember other user =>
      show ((manager.eraseMember other user).rooms name).isSome = true ↔
        (manager.rooms name).isSome = true ∨ False
      unfold RoomManager.eraseMember
      cases hroom : manager.rooms other with
      | none => simp
      | some members =>
          by_cases hname : name = other
          · simp [hname, hroom]
          · simp [hname]
  | addRoomMember other user =>
      by_cases hname : name = other
      · simp [apply, RoomManager.roomExists, RoomManager.addRoomMember,
          Opens, hname]
      · simp [apply, RoomManager.roomExists, RoomManager.addRoomMember,
          Opens, hname, Ne.symm hname]

theorem mem_eraseMember {other member : String} :
    member ∈ (manager.eraseMember name uid).getRoomMembers other ↔
      member ∈ manager.getRoomMembers other ∧
        ¬ (name = other ∧ uid = member) := by
  unfold RoomManager.eraseMember RoomManager.getRoomMembers
  cases hroom : manager.rooms name with
  | none =>
      by_cases hname : name = other
      · subst hname
        simp [hroom]
      · simp [hname]
  | some members =>
      by_cases hname : name = other
      · subst hname
        simp [hroom, eq_comm]
      · simp [hname, Ne.symm hname]

theorem mem_addRoomMember {other member : String} :
    member ∈ (manager.addRoomMember name uid).getRoomMembers other ↔
      name = other ∧ uid = member ∨
        member ∈ manager.getRoomMembers other := by
  unfold RoomManager.addRoomMember RoomManager.getRoomMembers
  by_cases hname : name = other
  · subst hname
    simp [eq_comm]
  · simp [hname, Ne.symm hname]

theorem isInRoom_iff :
    manager.isInRoom name uid = true ↔ uid ∈ manager.getRoomMembers name := by
  unfold RoomManager.isInRoom RoomManager.getRoomMembers
  cases manager.rooms name <;> simp

/-- The calls so far matter only in that they may have opened the room. -/
theorem mem_apply {before : List RoomCall}
    (hopened : manager.roomExists name = true ↔ Opened before name) :
    uid ∈ (call.apply manager).getRoomMembers name ↔
      call.Admits name uid before ∨
        uid ∈ manager.getRoomMembers name ∧ ¬ call.Expels name uid := by
  cases call with
  | createRoom other creator =>
      have hfree : manager.rooms other = none ∧ name = other ↔
          other = name ∧ ¬ Opened before name := by
        rw [← hopened, RoomManager.roomExists]
        constructor
        · rintro ⟨hnone, rfl⟩
          simp [hnone]
        · rintro ⟨rfl, hnone⟩
          exact ⟨by simpa using hnone, rfl⟩
      simp only [apply, mem_createRoom, Admits, Expels, not_false_eq_true,
        and_true]
      tauto
  | joinRoom other user =>
      have hthere : (manager.rooms other).isSome = true ∧ name = other ↔
          other = name ∧ Opened before name := by
        rw [← hopened, RoomManager.roomExists]
        constructor
        · rintro ⟨hsome, rfl⟩
          exact ⟨rfl, hsome⟩
        · rintro ⟨rfl, hsome⟩
          exact ⟨hsome, rfl⟩
      simp only [apply, mem_joinRoom, Admits, Expels, not_false_eq_true,
        and_true]
      tauto
  | leaveRoom other user | removeRoomMember other user =>
      exact mem_eraseMember.trans (false_or _).symm.to_iff
  | addRoomMember other user =>
      simp only [apply, mem_addRoomMember, Admits, Expels, not_false_eq_true,
        and_true]

/-! ## All calls -/

theorem outcome_concat (calls : List RoomCall) (call : RoomCall) :
    outcome (calls ++ [call]) = call.apply (outcome calls) := by
  rw [outcome, List.foldl_append]
  rfl

theorem roomExists_outcome (calls : List RoomCall) (name : String) :
    (outcome calls).roomExists name = true ↔ Opened calls name := by
  induction calls using List.reverseRecOn with
  | nil => simp [outcome, RoomManager.roomExists, Opened]
  | append_singleton calls call ih =>
      rw [outcome_concat, roomExists_apply, ih, opened_concat]

theorem mem_outcome (calls : List RoomCall) (name uid : String) :
    uid ∈ (outcome calls).getRoomMembers name ↔
      Since (Admits name uid) (Expels name uid) calls := by
  induction calls using List.reverseRecOn with
  | nil => simp [outcome, RoomManager.getRoomMembers]
  | append_singleton calls call ih =>
      rw [outcome_concat, mem_apply (roomExists_outcome calls name), ih,
        since_concat]

/-- A room is there once a call has opened it, its members are the users who
were admitted and have not been taken out since, and a name is given to a
creator only if it was never used before. -/
theorem rooms_follow_calls (calls : List RoomCall) :
    (∀ name, (outcome calls).roomExists name = true ↔ Opened calls name) ∧
    (∀ name uid, (outcome calls).isInRoom name uid = true ↔
      Since (Admits name uid) (Expels name uid) calls) ∧
    (∀ name uid, uid ∈ (outcome calls).getRoomMembers name ↔
      (outcome calls).isInRoom name uid = true) ∧
    ∀ name creator,
      (createRoom name creator).returns (outcome calls) = some true ↔
        ∀ call ∈ calls, ¬ call.Opens name := by
  refine ⟨roomExists_outcome calls, ?_, fun name uid => isInRoom_iff.symm, ?_⟩
  · intro name uid
    exact isInRoom_iff.trans (mem_outcome calls name uid)
  · intro name creator
    have hopened := roomExists_outcome calls name
    simp only [Opened] at hopened
    rw [returns, Option.some.injEq, Bool.not_eq_true', ← Bool.not_eq_true,
      hopened]
    simp only [not_exists, not_and]

/-! ## The calls of the server -/

/-- The two methods that the server uses. -/
def Used : RoomCall → Prop
  | createRoom .. | joinRoom .. => True
  | _ => False

def OfServer (rooms : RoomManager) : Prop :=
  ∃ calls : List RoomCall, (∀ call ∈ calls, call.Used) ∧
    rooms = outcome calls

theorem OfServer.apply {rooms : RoomManager} (hrooms : OfServer rooms)
    (hused : call.Used) : OfServer (call.apply rooms) := by
  obtain ⟨calls, hcalls, rfl⟩ := hrooms
  refine ⟨calls ++ [call], ?_, (outcome_concat calls call).symm⟩
  exact List.forall_mem_append.mpr ⟨hcalls, by simpa using hused⟩

theorem OfServer.enterRoom {rooms : RoomManager} (hrooms : OfServer rooms)
    (callback : Callback) : OfServer (callback.enterRoom rooms) := by
  unfold Callback.enterRoom
  split
  · rename_i uid name result
    split
    · exact @OfServer.apply (.createRoom name uid) rooms hrooms trivial
    · exact hrooms
  · rename_i uid name result
    split
    · exact @OfServer.apply (.joinRoom name uid) rooms hrooms trivial
    · exact hrooms
  · exact hrooms

/-- The rooms of a server are what some calls of these two leave; nobody is
ever taken out of them. -/
theorem ofServer_of_run {config : ServerConfig}
    {actions : List ChatServer.Action} {server : ChatServer}
    (hrun : Runs.runFrom (ChatServer.step config) ChatServer.initial
      actions = some server) :
    OfServer server.rooms := by
  refine @Runs.invariant_of_run _ _ _ (fun server => OfServer server.rooms)
    _ _ _ ⟨[], by simp, rfl⟩ ?_ hrun
  intro server action next hstep hrooms
  cases ChatServer.steps_of_step hstep with
  | receive conn envelope =>
      rw [(ChatServer.cachesKept_receive server conn envelope).rooms]
      exact hrooms
  | close conn =>
      rw [(ChatServer.cachesKept_close server conn).rooms]
      exact hrooms
  | finish index request task callback hworker =>
      rw [ChatNode.queueInLoop_rooms]
      exact hrooms
  | callback loop now request callback rest hloop =>
      rw [(ChatServer.caches_runCallback _ request now callback).1]
      exact hrooms.enterRoom callback
  | _ => exact hrooms

end RoomCall

end MuduoChat
