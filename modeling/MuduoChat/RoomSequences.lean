import MuduoChat.LabelledRuns
import MuduoChat.MySQLRepos
import Mathlib.Data.List.Range

/-!
# Sequence numbers of a room

`storeMessage` numbers a room message with one more than the largest number
it finds in the room, in a statement of its own, and inserts the message with
another.  Any number of writers do so at the same time, each on a connection
of its own, and their statements interleave freely.

The numbers of a room are 1 to n, each once, along exactly those
interleavings in which no message is inserted into the room between a
writer's SELECT and its INSERT.
-/

namespace MuduoChat

/-! ## Consecutive numbers -/

def Consecutive (seqs : List Int) : Prop :=
  seqs = (List.range seqs.length).map fun index : Nat => (index : Int) + 1

def Numbered (seqs : List Int) : Prop :=
  seqs.Nodup ∧ ∀ seq, seq ∈ seqs ↔ 1 ≤ seq ∧ seq ≤ seqs.length

theorem consecutive_nil : Consecutive [] := rfl

theorem Consecutive.mem_iff {seqs : List Int} (hseqs : Consecutive seqs)
    {seq : Int} : seq ∈ seqs ↔ 1 ≤ seq ∧ seq ≤ seqs.length := by
  rw [hseqs]
  simp only [List.mem_map, List.mem_range, List.length_map, List.length_range]
  constructor
  · rintro ⟨index, hindex, rfl⟩
    omega
  · rintro ⟨hpos, hle⟩
    exact ⟨(seq - 1).toNat, by omega, by omega⟩

theorem Consecutive.nodup {seqs : List Int} (hseqs : Consecutive seqs) :
    seqs.Nodup := by
  rw [hseqs]
  apply List.nodup_range.map
  intro first second heq
  have hcast : (first : Int) + 1 = second + 1 := heq
  omega

theorem Consecutive.numbered {seqs : List Int} (hseqs : Consecutive seqs) :
    Numbered seqs :=
  ⟨hseqs.nodup, fun _ => hseqs.mem_iff⟩

theorem Consecutive.append_iff {seqs : List Int} (hseqs : Consecutive seqs)
    (seq : Int) :
    Consecutive (seqs ++ [seq]) ↔ seq = seqs.length + 1 := by
  unfold Consecutive at hseqs ⊢
  rw [List.length_append, List.length_singleton, List.range_succ,
    List.map_append, ← hseqs]
  simp

theorem Consecutive.eq_of_numbered_append {seqs : List Int} {seq : Int}
    (hseqs : Consecutive seqs) (hnumbered : Numbered (seqs ++ [seq])) :
    seq = seqs.length + 1 := by
  have hbounds := (hnumbered.2 seq).mp (by simp)
  have hnew : seq ∉ seqs := by
    intro hmem
    exact (List.nodup_append.mp hnumbered.1).2.2 seq hmem seq (by simp) rfl
  rw [hseqs.mem_iff] at hnew
  simp only [List.length_append, List.length_singleton] at hbounds
  omega

theorem Consecutive.max_eq {seqs : List Int} (hseqs : Consecutive seqs) :
    seqs.max?.getD 0 = seqs.length := by
  cases hmax : seqs.max? with
  | none =>
      rw [List.max?_eq_none_iff.mp hmax]
      rfl
  | some largest =>
      obtain ⟨hmem, hle⟩ := List.max?_eq_some_iff.mp hmax
      have hlargest := hseqs.mem_iff.mp hmem
      have hlast : (seqs.length : Int) ∈ seqs :=
        hseqs.mem_iff.mpr ⟨by omega, le_rfl⟩
      have hbound := hle _ hlast
      simp only [Option.getD_some]
      omega

/-! ## The statements of `storeMessage` -/

/-- What `storeMessage` may do next, given the calls it has made: a row for a
room carries the number the SELECT just before it returned. -/
inductive StoreCall (sender : String) (log : List (Sigma DbCall.Answer)) :
    DbCall → Prop
  | getConnection : StoreCall sender log .getConnection
  | returnConnection : StoreCall sender log .returnConnection
  | selectRoomId (name : String) :
      StoreCall sender log (.query (.selectRoomId name))
  | selectNextSeq (roomId : Int) :
      StoreCall sender log (.query (.selectNextSeq roomId))
  | insertPrivate (seq : Int) (toUid : Option String) (content : String) :
      StoreCall sender log
        (.query (.insertMessage seq none sender toUid content))
  | insertRoom (roomId : Int) (answer : Option Int)
      (before : List (Sigma DbCall.Answer)) (toUid : Option String)
      (content : String)
      (hlog : log = before ++ [⟨.query (.selectNextSeq roomId), answer⟩]) :
      StoreCall sender log
        (.query (.insertMessage (answer.getD 1) (some roomId) sender toUid
          content))

section Statements

open Prog

theorem issues_storeMessage (sender recipient room content : String) :
    (MySQLMessageRepo.storeMessage sender recipient room content).Issues
      (StoreCall sender) := by
  simp only [MySQLMessageRepo.storeMessage, withConnection, request_bind,
    issues_call]
  refine ⟨.getConnection, fun conn => ?_⟩
  split
  · simp
  · unfold MySQLMessageRepo.lookupRoom
    split
    · simp only [MySQLMessageRepo.nextSeq, request_bind, call_bind,
        issues_call, pure_eq, ret_bind, gt_iff_lt, lt_irrefl, if_false]
      exact ⟨.insertPrivate _ _ _, fun _ =>
        ⟨.returnConnection, fun _ => issues_ret⟩⟩
    · simp only [request_bind, call_bind, issues_call, pure_eq, ret_bind]
      refine ⟨.selectRoomId room, fun rows => ?_⟩
      unfold MySQLMessageRepo.nextSeq
      split
      · rename_i hroom
        simp only [request_bind, call_bind, issues_call, pure_eq, ret_bind,
          hroom, if_true]
        refine ⟨.selectNextSeq _, fun answer => ?_⟩
        exact ⟨.insertRoom _ answer [_, _] _ _ rfl, fun _ =>
          ⟨.returnConnection, fun _ => issues_ret⟩⟩
      · rename_i hroom
        simp only [call_bind, issues_call, pure_eq, ret_bind, hroom,
          if_false]
        exact ⟨.insertPrivate _ _ _, fun _ =>
          ⟨.returnConnection, fun _ => issues_ret⟩⟩

end Statements

/-! ## Interleaved writers -/

structure MessageWriter where
  prog : DbProg Int
  log : List (Sigma DbCall.Answer) := []

/-- The writers share the database; `trace` lists who made which call, newest
first. -/
structure MessageWriters where
  db : Database
  writers : List MessageWriter := []
  trace : List (Nat × DbCall) := []

namespace MessageWriters

inductive Action where
  /-- A pool thread enters `storeMessage` for a registered sender. -/
  | enter (sender recipient room content : String)
  /-- A writer makes its next call. -/
  | exec (index : Nat)
  deriving DecidableEq

def step (state : MessageWriters) : Action → Option MessageWriters
  | .enter sender recipient room content =>
      if state.db.Registered sender then
        some { state with
          writers := state.writers ++
            [{ prog := MySQLMessageRepo.storeMessage sender recipient room
                content }] }
      else none
  | .exec index =>
      match state.writers[index]? with
      | some ⟨.call call next, log⟩ =>
          let (db, answer) := state.db.exec call
          some
            { db := db
              writers := state.writers.set index
                ⟨next answer, log ++ [⟨call, answer⟩]⟩
              trace := (index, call) :: state.trace }
      | _ => none

def start (users : KeyedTable UserInfo.uid) (rooms : AutoTable RoomRow) :
    MessageWriters :=
  { db := { users := users, rooms := rooms } }

/-- In every room the numbers of the messages are 1 to n, each once. -/
def RoomsNumbered (state : MessageWriters) : Prop :=
  ∀ roomId, Numbered (state.db.roomSeqs roomId)

def insertedSeqs (roomId : Int) : DbCall → List Int
  | .query (.insertMessage seq (some room) _ _ _) =>
      if room = roomId then [seq] else []
  | _ => []

/-- The number of messages inserted into the room since the writer last asked
for the room's next number. -/
def insertsSince (index : Nat) (roomId : Int) : List (Nat × DbCall) → Nat
  | [] => 0
  | (writer, call) :: older =>
      if writer = index ∧ call = .query (.selectNextSeq roomId) then 0
      else insertsSince index roomId older +
        (insertedSeqs roomId call).length

/-- A message is inserted into a room only if none has been since its writer
asked for the number. -/
def Undisturbed (state : MessageWriters) : Action → Prop
  | .exec index =>
      ∀ seq roomId fromUid toUid content rest log,
        state.writers[index]? =
          some ⟨.call (.query (.insertMessage seq (some roomId) fromUid toUid
            content)) rest, log⟩ →
          insertsSince index roomId state.trace = 0
  | _ => True

/-! ## What a call does -/

section Effects

variable {db : Database} {sender : String}
  {log : List (Sigma DbCall.Answer)} {call : DbCall}

theorem roomSeqs_insert (db : Database) (row : MessageRow) (roomId : Int) :
    Database.roomSeqs { db with messages := db.messages.insert row } roomId =
      db.roomSeqs roomId ++
        if row.roomId = some roomId then [row.seq] else [] := by
  simp only [Database.roomSeqs, AutoTable.insert, List.filter_append,
    List.map_append]
  congr 1
  by_cases hroom : row.roomId = some roomId
  · simp [hroom]
  · simp [hroom]

theorem roomSeqs_exec (hcall : StoreCall sender log call)
    (hsender : db.Registered sender) (roomId : Int) :
    (db.exec call).1.roomSeqs roomId =
      db.roomSeqs roomId ++ insertedSeqs roomId call := by
  cases hcall with
  | insertPrivate seq toUid content =>
      simp [Database.exec, Database.execStatement, hsender, roomSeqs_insert,
        insertedSeqs]
  | insertRoom room answer before toUid content hlog =>
      simp [Database.exec, Database.execStatement, hsender, roomSeqs_insert,
        insertedSeqs]
  | _ => simp [Database.exec, Database.execStatement, insertedSeqs]

theorem users_exec (hcall : StoreCall sender log call) :
    (db.exec call).1.users = db.users := by
  cases hcall <;> simp only [Database.exec, Database.execStatement] <;>
    split_ifs <;> rfl

end Effects

/-! ## The invariant -/

/-- Rooms are numbered in order, every writer is somewhere in `storeMessage`,
and the number a writer has just been given differs from the next one by the
messages inserted since. -/
structure Sequenced (state : MessageWriters) : Prop where
  consecutive : ∀ roomId, Consecutive (state.db.roomSeqs roomId)
  writers : ∀ writer ∈ state.writers,
    ∃ sender recipient room content, state.db.Registered sender ∧
      Prog.Reaches
        (MySQLMessageRepo.storeMessage sender recipient room content)
        writer.log writer.prog
  given : ∀ (index : Nat) writer roomId (answer : Option Int) before,
    state.writers[index]? = some writer →
      writer.log = before ++ [⟨.query (.selectNextSeq roomId), answer⟩] →
        answer.getD 1 + insertsSince index roomId state.trace =
          (state.db.roomSeqs roomId).length + 1

section Preservation

variable {state next : MessageWriters}

theorem exec_eq_some {index : Nat}
    (hstep : state.step (.exec index) = some next) :
    ∃ call rest log,
      state.writers[index]? = some ⟨.call call rest, log⟩ ∧
      next =
        { db := (state.db.exec call).1
          writers := state.writers.set index
            ⟨rest (state.db.exec call).2,
              log ++ [⟨call, (state.db.exec call).2⟩]⟩
          trace := (index, call) :: state.trace } := by
  simp only [step] at hstep
  split at hstep
  · rename_i call rest log hwriter
    exact ⟨call, rest, log, hwriter, (Option.some.inj hstep).symm⟩
  · simp at hstep

theorem Sequenced.storeCall (hsequenced : state.Sequenced) {index : Nat}
    {call : DbCall} {rest : call.Answer → DbProg Int}
    {log : List (Sigma DbCall.Answer)}
    (hwriter : state.writers[index]? = some ⟨.call call rest, log⟩) :
    ∃ sender, state.db.Registered sender ∧ StoreCall sender log call := by
  obtain ⟨sender, recipient, room, content, hsender, hreaches⟩ :=
    hsequenced.writers _ (List.mem_of_getElem? hwriter)
  exact ⟨sender, hsender,
    issues_storeMessage sender recipient room content log call rest hreaches⟩

theorem Sequenced.seq_add_insertsSince (hsequenced : state.Sequenced)
    {index : Nat} {seq roomId : Int} {fromUid : String}
    {toUid : Option String} {content : String}
    {rest : (DbCall.query (.insertMessage seq (some roomId) fromUid toUid
      content)).Answer → DbProg Int}
    {log : List (Sigma DbCall.Answer)}
    (hwriter : state.writers[index]? = some ⟨.call _ rest, log⟩) :
    seq + insertsSince index roomId state.trace =
      (state.db.roomSeqs roomId).length + 1 := by
  obtain ⟨sender, -, hcall⟩ := hsequenced.storeCall hwriter
  cases hcall with
  | insertRoom _ answer before _ _ hlog =>
      exact hsequenced.given index _ roomId answer before hwriter hlog

theorem Sequenced.enter (hsequenced : state.Sequenced)
    {sender : String} (hsender : state.db.Registered sender)
    (recipient room content : String) :
    Sequenced { state with
      writers := state.writers ++
        [{ prog := MySQLMessageRepo.storeMessage sender recipient room
            content }] } where
  consecutive := hsequenced.consecutive
  writers := by
    intro writer hwriter
    rcases List.mem_append.mp hwriter with hold | hnew
    · exact hsequenced.writers writer hold
    · rw [List.mem_singleton] at hnew
      subst hnew
      exact ⟨sender, recipient, room, content, hsender, .refl _⟩
  given := by
    intro index writer roomId answer before hwriter hlog
    rw [List.getElem?_append] at hwriter
    split_ifs at hwriter with hindex
    · exact hsequenced.given index writer roomId answer before hwriter hlog
    · have hnew := List.mem_of_getElem? hwriter
      rw [List.mem_singleton] at hnew
      subst hnew
      simp at hlog

theorem Sequenced.consecutive_exec (hsequenced : state.Sequenced)
    {index : Nat} {call : DbCall} {rest : call.Answer → DbProg Int}
    {log : List (Sigma DbCall.Answer)}
    (hwriter : state.writers[index]? = some ⟨.call call rest, log⟩)
    (hundisturbed : state.Undisturbed (.exec index)) (roomId : Int) :
    Consecutive (state.db.roomSeqs roomId ++ insertedSeqs roomId call) := by
  have hconsecutive := hsequenced.consecutive roomId
  obtain ⟨sender, -, hcall⟩ := hsequenced.storeCall hwriter
  cases hcall with
  | insertRoom room answer before toUid content hlog =>
      simp only [insertedSeqs]
      split_ifs with hroom
      · subst hroom
        have hseq := hsequenced.seq_add_insertsSince hwriter
        rw [hundisturbed _ room sender toUid content rest log hwriter] at hseq
        exact (hconsecutive.append_iff _).mpr (by simpa using hseq)
      · simpa using hconsecutive
  | _ => simpa [insertedSeqs] using hconsecutive

theorem insertsSince_select (index : Nat) (roomId : Int)
    (trace : List (Nat × DbCall)) :
    insertsSince index roomId
      ((index, .query (.selectNextSeq roomId)) :: trace) = 0 := by
  simp [insertsSince]

theorem insertsSince_other {index writer : Nat} (hne : writer ≠ index)
    (roomId : Int) (call : DbCall) (trace : List (Nat × DbCall)) :
    insertsSince index roomId ((writer, call) :: trace) =
      insertsSince index roomId trace +
        (insertedSeqs roomId call).length := by
  simp [insertsSince, hne]

theorem Sequenced.exec (hsequenced : state.Sequenced) {index : Nat}
    (hstep : state.step (.exec index) = some next)
    (hundisturbed : state.Undisturbed (.exec index)) : next.Sequenced := by
  obtain ⟨call, rest, log, hwriter, rfl⟩ := exec_eq_some hstep
  obtain ⟨sender, hsender, hcall⟩ := hsequenced.storeCall hwriter
  have hseqs (roomId : Int) := roomSeqs_exec hcall hsender roomId
  constructor
  · intro roomId
    show Consecutive ((state.db.exec call).1.roomSeqs roomId)
    rw [hseqs]
    exact hsequenced.consecutive_exec hwriter hundisturbed roomId
  · intro writer hmem
    have hregistered (uid : String) (huid : state.db.Registered uid) :
        (state.db.exec call).1.Registered uid := by
      unfold Database.Registered
      rw [users_exec hcall]
      exact huid
    rcases List.mem_or_eq_of_mem_set hmem with hold | rfl
    · obtain ⟨uid, recipient, room, content, huid, hreaches⟩ :=
        hsequenced.writers writer hold
      exact ⟨uid, recipient, room, content, hregistered uid huid, hreaches⟩
    · obtain ⟨uid, recipient, room, content, huid, hreaches⟩ :=
        hsequenced.writers _ (List.mem_of_getElem? hwriter)
      exact ⟨uid, recipient, room, content, hregistered uid huid,
        hreaches.snoc _⟩
  · intro other writer roomId answer before hother hlog
    show answer.getD 1 + insertsSince other roomId
      ((index, call) :: state.trace) =
        ((state.db.exec call).1.roomSeqs roomId).length + 1
    rw [hseqs, List.length_append]
    by_cases hsame : index = other
    · subst hsame
      have hlt : index < state.writers.length :=
        (List.getElem?_eq_some_iff.mp hwriter).1
      rw [List.getElem?_set_self hlt, Option.some.injEq] at hother
      subst hother
      obtain ⟨-, hlast⟩ := List.append_inj' hlog rfl
      cases hlast
      rw [insertsSince_select]
      simp [Database.exec, Database.execStatement, insertedSeqs,
        (hsequenced.consecutive roomId).max_eq]
    · rw [List.getElem?_set_ne hsame] at hother
      rw [insertsSince_other hsame]
      have hgiven :=
        hsequenced.given other writer roomId answer before hother hlog
      push_cast
      omega

theorem Sequenced.step {action : Action} (hsequenced : state.Sequenced)
    (hstep : state.step action = some next)
    (hundisturbed : state.Undisturbed action) : next.Sequenced := by
  cases action with
  | enter sender recipient room content =>
      obtain ⟨hsender, hnext⟩ := Option.ite_none_right_eq_some.mp hstep
      cases hnext
      exact hsequenced.enter hsender recipient room content
  | exec index => exact hsequenced.exec hstep hundisturbed

theorem undisturbed_of_roomsNumbered {action : Action}
    (hstep : state.step action = some next)
    (hsequenced : state.Sequenced) (hnumbered : next.RoomsNumbered) :
    state.Undisturbed action := by
  cases action with
  | enter sender recipient room content => trivial
  | exec index =>
      intro seq roomId fromUid toUid content rest log hwriter
      obtain ⟨call, rest', log', hwriter', rfl⟩ := exec_eq_some hstep
      rw [hwriter] at hwriter'
      cases hwriter'
      obtain ⟨sender, hsender, hcall⟩ := hsequenced.storeCall hwriter
      have hroom := hnumbered roomId
      simp only [roomSeqs_exec hcall hsender, insertedSeqs, if_true] at hroom
      have hnext := (hsequenced.consecutive roomId).eq_of_numbered_append hroom
      have hseq := hsequenced.seq_add_insertsSince hwriter
      omega

end Preservation

theorem start_sequenced (users : KeyedTable UserInfo.uid)
    (rooms : AutoTable RoomRow) : (start users rooms).Sequenced where
  consecutive := fun _ => consecutive_nil
  writers := by simp [start]
  given := by simp [start]

/-- The messages of every room are numbered 1 to n, each number once, along
exactly those interleavings in which no message enters a room between a
writer's SELECT of the next number and its INSERT. -/
theorem rooms_numbered_iff (users : KeyedTable UserInfo.uid)
    (rooms : AutoTable RoomRow) (actions : List Action) :
    Runs.Always step RoomsNumbered (start users rooms) actions ↔
      Runs.EachStep step Undisturbed (start users rooms) actions := by
  apply Runs.always_iff_eachStep_of_inv (start_sequenced users rooms)
  · intro state hsequenced roomId
    exact (hsequenced.consecutive roomId).numbered
  · intro state action next hstep hsequenced hundisturbed
    exact hsequenced.step hstep hundisturbed
  · intro state action next hstep hsequenced hnumbered
    exact undisturbed_of_roomsNumbered hstep hsequenced hnumbered

/-- Two writers ask for the next number before either inserts: both messages
get number 1. -/
theorem concurrent_writers_share_a_number :
    ¬ Runs.Always step RoomsNumbered
        (start ⟨[{ uid := "alice" }, { uid := "bob" }], by decide⟩
          (AutoTable.empty.insert { name := "lobby", creatorUid := "alice" }))
        [.enter "alice" "" "lobby" "hi", .enter "bob" "" "lobby" "hello",
          .exec 0, .exec 0, .exec 0, .exec 1, .exec 1, .exec 1,
          .exec 0, .exec 1] := by
  intro halways
  have hnumbered := halways _ _ (List.prefix_refl _) rfl
  have hnodup := (hnumbered 1).1
  revert hnodup
  decide

end MessageWriters

end MuduoChat
