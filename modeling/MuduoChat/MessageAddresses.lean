import MuduoChat.MessageThreads

/-!
# Whom a message is for

A row of `messages` names a room or a recipient, never both and never
neither; so says the table.  `storeMessage` fills the two columns
independently of each other: the recipient from the request, the room from a
lookup that may find nothing or fail.  It never looks at what it is about to
write.

Any number of calls run next to each other, statement by statement, while
other tasks register users and create rooms.
-/

namespace MuduoChat

/-- The arguments of one call. -/
structure Posting where
  sender : String
  recipient : String
  room : String
  content : String

def isInsertMessage : Statement → Bool
  | .insertMessage .. => true
  | _ => false

namespace Posting

def program (posting : Posting) : NodeProg Int :=
  answerRepository (.storeMessage posting.sender posting.recipient
    posting.room posting.content)

def system : MessageSystem Posting Int :=
  messageSystem program isInsertMessage

abbrev Watched := WatchedThreads Posting Int

abbrev PostingMove := Move Posting Bystander NodeCall NodeCall.Answer

abbrev PostingThread := Thread Posting NodeCall NodeCall.Answer Int

/-- The lookup of the room was answered with this identifier. -/
def LooksUp (log : List (Sigma NodeCall.Answer)) (room : String)
    (roomId : Int) : Prop :=
  ∃ outcome, ⟨.sql (.query (.selectRoomId room)), outcome⟩ ∈ log ∧
    (outcome.result.getD []).head? = some roomId

/-- The message names a recipient and no room, or a room that was found and
no recipient. -/
def AddressesOne (posting : Posting) (log : List (Sigma NodeCall.Answer)) :
    Prop :=
  posting.recipient ≠ "" ∧ posting.room = "" ∨
    posting.recipient = "" ∧ ∃ roomId, LooksUp log posting.room roomId

/-- An INSERT of the call was executed. -/
def Stored (log : List (Sigma NodeCall.Answer)) (msgId : Int) : Prop :=
  ∃ seq roomId fromUid toUid content outcome,
    ⟨.sql (.query (.insertMessage seq roomId fromUid toUid content)),
      outcome⟩ ∈ log ∧ outcome.result = some msgId

/-- Every row has one of the two columns, `getMessage` tells which, and a
call for a message that names nobody or both changes nothing and gets
identifier 0. -/
structure MessagesAddressed (watched : Watched) : Prop where
  rows : ∀ entry ∈ watched.state.world.db.messages.entries,
    entry.2.roomId ≠ none ↔ entry.2.toUid = none
  readBack : ∀ entry ∈ watched.state.world.db.messages.entries, ∃ info,
    (Prog.run Database.exec watched.state.world.db
        (MySQLMessageRepo.getMessage entry.1)).2 = some info ∧
      (info.toUid ≠ "" ↔ info.roomName = "")
  refused : ∀ index thread, watched.state.threads[index]? = some thread →
    ¬ thread.op.AddressesOne thread.log →
      (∀ effect ∈ watched.callEffects index, effect.Unchanged) ∧
        ∀ msgId, thread.prog = .ret msgId → msgId = 0

/-- Whom the message names. -/
def addressee (posting : Posting) : String :=
  if posting.recipient = "" then posting.room else posting.recipient

/-- An INSERT is executed, for a registered sender, only if the message names
a recipient and no room, or a room that was found and no recipient, by a text
that does not begin with a NUL. -/
def InsertsAddressed (watched : Watched) : PostingMove → Prop
  | .exec index (.sql (.query (.insertMessage _ _ fromUid _ _))) outcome =>
      outcome.executed = true →
        watched.state.world.db.Registered fromUid →
          ∀ thread, watched.state.threads[index]? = some thread →
            thread.op.AddressesOne thread.log ∧
              cstr thread.op.addressee ≠ ""
  | _ => True

/-! ## What a call does -/

section Programs

open Prog

variable {posting : Posting} {log : List (Sigma NodeCall.Answer)}

/-- The room column of the row a call inserts. -/
inductive FillsRoom (posting : Posting) (log : List (Sigma NodeCall.Answer)) :
    Option Int → Prop
  | found {roomId : Int} (hroom : posting.room ≠ "")
      (hfound : LooksUp log posting.room roomId) :
      FillsRoom posting log (some roomId)
  | none (hnone : ∀ roomId, LooksUp log posting.room roomId → roomId ≤ 0) :
      FillsRoom posting log .none

/-- What a call may do next, given its log. -/
def Sends (posting : Posting) (log : List (Sigma NodeCall.Answer)) :
    NodeCall → Prop
  | .sql (.query (.insertMessage _ roomId fromUid toUid _)) =>
      fromUid = posting.sender ∧
        toUid = (if posting.recipient = "" then none
          else some posting.recipient) ∧
        FillsRoom posting log roomId
  | .sql (.query (.selectRoomId _)) | .sql (.query (.selectNextSeq _)) => True
  | .sql (.query _) => False
  | _ => True

theorem fillsRoom_of_lookup {rows : QueryOutcome (.selectRoomId posting.room)}
    (hroom : posting.room ≠ "")
    (hlookup : ∀ outcome : QueryOutcome (.selectRoomId posting.room),
      ⟨.sql (.query (.selectRoomId posting.room)), outcome⟩ ∈ log ↔
        outcome = rows) :
    FillsRoom posting log
      (if (rows.result.getD []).head?.getD 0 > 0 then
        some ((rows.result.getD []).head?.getD 0) else none) := by
  cases hhead : (rows.result.getD []).head? with
  | none =>
      refine .none ?_
      rintro roomId ⟨outcome, hmem, hfound⟩
      rw [(hlookup outcome).mp hmem, hhead] at hfound
      cases hfound
  | some found =>
      simp only [Option.getD_some]
      split
      · exact .found hroom ⟨rows, (hlookup rows).mpr rfl, hhead⟩
      · rename_i hpos
        refine .none ?_
        rintro roomId ⟨outcome, hmem, hfound⟩
        rw [(hlookup outcome).mp hmem, hhead] at hfound
        cases hfound
        exact Int.not_lt.mp hpos

theorem issues_program (posting : Posting) :
    posting.program.Issues (Sends posting) := by
  simp only [program, answerRepository, overSql,
    MySQLMessageRepo.storeMessage, withConnection, request_bind,
    Prog.translate, answerSql, issues_call]
  refine ⟨trivial, fun conn => ?_⟩
  split
  · exact issues_ret
  · unfold MySQLMessageRepo.lookupRoom
    split
    · simp only [MySQLMessageRepo.nextSeq, request_bind, call_bind, pure_eq,
        ret_bind, Prog.translate, answerSql, issues_call, gt_iff_lt,
        lt_irrefl, if_false]
      refine ⟨⟨rfl, rfl, .none ?_⟩, fun _ => ⟨trivial, fun _ => issues_ret⟩⟩
      rintro roomId ⟨outcome, hmem, _⟩
      simp at hmem
    · rename_i hroom
      simp only [request_bind, call_bind, pure_eq, ret_bind, Prog.translate,
        answerSql, issues_call]
      refine ⟨trivial, fun rows => ?_⟩
      unfold MySQLMessageRepo.nextSeq
      split
      · simp only [request_bind, call_bind, pure_eq, ret_bind, Prog.translate,
          answerSql, issues_call]
        refine ⟨trivial, fun seq => ⟨⟨rfl, rfl, ?_⟩,
          fun _ => ⟨trivial, fun _ => issues_ret⟩⟩⟩
        exact fillsRoom_of_lookup hroom fun outcome => by
          simp
      · simp only [request_bind, call_bind, pure_eq, ret_bind, Prog.translate,
          answerSql, issues_call]
        refine ⟨⟨rfl, rfl, ?_⟩, fun _ => ⟨trivial, fun _ => issues_ret⟩⟩
        exact fillsRoom_of_lookup hroom fun outcome => by
          simp

theorem ensures_program (posting : Posting) :
    posting.program.Ensures fun log msgId =>
      msgId = 0 ∨ Stored log msgId := by
  have hdone {log : List (Sigma NodeCall.Answer)} {seq : Int}
      {roomId : Option Int} {fromUid content : String}
      {toUid : Option String}
      {outcome : QueryOutcome
        (.insertMessage seq roomId fromUid toUid content)}
      (hmem : ⟨.sql (.query (.insertMessage seq roomId fromUid toUid
        content)), outcome⟩ ∈ log) :
      outcome.result.getD 0 = 0 ∨ Stored log (outcome.result.getD 0) := by
    cases hresult : outcome.result with
    | none => exact .inl rfl
    | some msgId =>
        exact .inr ⟨seq, roomId, fromUid, toUid, content, outcome, hmem,
          hresult⟩
  simp only [program, answerRepository, overSql,
    MySQLMessageRepo.storeMessage, withConnection, request_bind,
    Prog.translate, answerSql, ensures_call]
  intro conn
  split
  · exact ensures_ret.mpr (.inl rfl)
  · unfold MySQLMessageRepo.lookupRoom
    split
    · simp only [MySQLMessageRepo.nextSeq, request_bind, call_bind, pure_eq,
        ret_bind, Prog.translate, answerSql, ensures_call, ensures_ret,
        gt_iff_lt, lt_irrefl, if_false]
      intro outcome returned
      exact hdone (.tail _ (.head _))
    · simp only [request_bind, call_bind, pure_eq, ret_bind, Prog.translate,
        answerSql, ensures_call]
      intro rows
      unfold MySQLMessageRepo.nextSeq
      split
      · simp only [request_bind, call_bind, pure_eq, ret_bind, Prog.translate,
          answerSql, ensures_call, ensures_ret]
        intro seq outcome returned
        exact hdone (.tail _ (.tail _ (.tail _ (.head _))))
      · simp only [request_bind, call_bind, pure_eq, ret_bind, Prog.translate,
          answerSql, ensures_call, ensures_ret]
        intro outcome returned
        exact hdone (.tail _ (.tail _ (.head _)))

end Programs

/-! ## Rows -/

/-- The row names a user, or a room that exists. -/
inductive RowAddressed (db : Database) (row : MessageRow) (name : String) :
    Prop
  | toUser (hroom : row.roomId = none) (hto : row.toUid = some name)
  | toRoom {roomId : Int} (hexists : RoomAt db roomId name)
      (hroom : row.roomId = some roomId) (hto : row.toUid = none)

section Rows

variable {db after : Database} {row other : MessageRow} {name : String}

theorem RowAddressed.mono (hrow : RowAddressed db row name)
    (hrooms : db.rooms.entries ⊆ after.rooms.entries)
    (hroom : other.roomId = row.roomId) (hto : other.toUid = row.toUid) :
    RowAddressed after other name := by
  cases hrow with
  | toUser hnone hsome =>
      exact .toUser (hroom.trans hnone) (hto.trans hsome)
  | toRoom hexists hsome hnone =>
      obtain ⟨found, hfound, hsame⟩ := hexists
      exact .toRoom ⟨found, hrooms hfound, hsame⟩ (hroom.trans hsome)
        (hto.trans hnone)

theorem RowAddressed.oneColumn (hrow : RowAddressed db row name) :
    row.roomId ≠ none ↔ row.toUid = none := by
  cases hrow with
  | toUser hroom hto => simp [hroom, hto]
  | toRoom _ hroom hto => simp [hroom, hto]

/-- `getMessage` tells a user from a room by the text that is not empty. -/
theorem RowAddressed.readBack_iff {msgId : Int}
    (hrow : RowAddressed db row name)
    (hmem : (msgId, row) ∈ db.messages.entries) :
    (∃ info, (Prog.run Database.exec db
        (MySQLMessageRepo.getMessage msgId)).2 = some info ∧
      (info.toUid ≠ "" ↔ info.roomName = "")) ↔ cstr name ≠ "" := by
  have hread : (Prog.run Database.exec db
      (MySQLMessageRepo.getMessage msgId)).2 =
        some (db.messageInfo msgId row).ofRow := by
    have hget : db.messages.get? msgId = some row :=
      AutoTable.get?_of_mem hmem
    simp [MySQLMessageRepo.getMessage, Database.exec,
      Database.execStatement, hget]
  rw [hread]
  cases hrow with
  | toUser hroom hto =>
      simp [Database.messageInfo, Database.roomName, MessageInfo.ofRow, hroom,
        hto]
  | @toRoom roomId hexists hroom hto =>
      obtain ⟨found, hfound, rfl⟩ := hexists
      have hget : db.rooms.get? roomId = some found :=
        AutoTable.get?_of_mem hfound
      simp [Database.messageInfo, Database.roomName, MessageInfo.ofRow, hroom,
        hto, hget]

/-- The row names somebody whose name can be read back. -/
def RowReadable (db : Database) (row : MessageRow) : Prop :=
  ∃ name, RowAddressed db row name ∧ cstr name ≠ ""

theorem RowReadable.mono (hrow : RowReadable db row)
    (hrooms : db.rooms.entries ⊆ after.rooms.entries)
    (hroom : other.roomId = row.roomId) (hto : other.toUid = row.toUid) :
    RowReadable after other := by
  obtain ⟨name, haddressed, hname⟩ := hrow
  exact ⟨name, haddressed.mono hrooms hroom hto, hname⟩

/-- A statement keeps the rows readable if the row it inserts is. -/
theorem rowsReadable_execStatement {statement : Statement}
    (hrows : ∀ entry ∈ db.messages.entries, RowReadable db entry.2)
    (hinsert : ∀ seq roomId fromUid toUid content,
      statement = .insertMessage seq roomId fromUid toUid content →
        db.Registered fromUid → ∀ row : MessageRow, row.roomId = roomId →
          row.toUid = toUid → RowReadable db row) :
    ∀ entry ∈ (db.execStatement statement).1.messages.entries,
      RowReadable (db.execStatement statement).1 entry.2 := by
  have hrooms := rooms_subset_execStatement db statement
  have hafter := messagesAfter_execStatement db statement
  generalize (db.execStatement statement).1.messages = messages at hafter ⊢
  cases hafter with
  | insert seq roomId fromUid toUid content hsender =>
      intro entry hentry
      rcases List.mem_append.mp hentry with hold | hnew
      · exact (hrows entry hold).mono hrooms rfl rfl
      · rw [List.mem_singleton.mp hnew]
        exact (hinsert seq roomId fromUid toUid content rfl hsender
          _ rfl rfl).mono hrooms rfl rfl
  | mark msgId uid =>
      intro entry hentry
      obtain ⟨old, hold, rfl⟩ := List.mem_map.mp hentry
      refine (hrows old hold).mono hrooms ?_ ?_ <;> dsimp only <;> split <;>
        rfl
  | refuse | keep =>
      intro entry hentry
      exact (hrows entry hentry).mono hrooms rfl rfl

/-- The lookup finds rooms of that name. -/
theorem roomAt_of_selectRoomId {name : String} {roomIds : List Int}
    {roomId : Int}
    (hresult : (db.execStatement (.selectRoomId name)).2 = some roomIds)
    (hhead : roomIds.head? = some roomId) :
    0 < roomId ∧ RoomAt db roomId name := by
  cases hresult
  obtain ⟨entry, hentry, rfl⟩ := List.mem_map.mp (List.mem_of_head? hhead)
  obtain ⟨hmem, hname⟩ := List.mem_filter.mp hentry
  exact ⟨(db.rooms.fresh entry hmem).1, entry.2, hmem, by simpa using hname⟩

end Rows

/-! ## The invariant -/

/-- The call has stored nothing. -/
structure Silent (log : List (Sigma NodeCall.Answer))
    (effects : List CallEffect) : Prop where
  unstored : ∀ msgId, ¬ Stored log msgId
  unchanged : ∀ effect ∈ effects, effect.Unchanged

/-- Rows are readable, lookups have found what exists, and only messages that
address one have been stored. -/
structure WellAddressed (watched : Watched) : Prop where
  indexed : watched.Indexed
  faithful : ∀ thread ∈ watched.state.threads, system.Faithful thread
  rows : ∀ entry ∈ watched.state.world.db.messages.entries,
    RowReadable watched.state.world.db entry.2
  looked : ∀ thread ∈ watched.state.threads, ∀ name roomId,
    LooksUp thread.log name roomId →
      0 < roomId ∧ RoomAt watched.state.world.db roomId name
  silent : ∀ index thread, watched.state.threads[index]? = some thread →
    ¬ thread.op.AddressesOne thread.log →
      Silent thread.log (watched.callEffects index)

section Invariant

variable {watched next : Watched} {thread : PostingThread}
  {log : List (Sigma NodeCall.Answer)} {entry : Sigma NodeCall.Answer}

theorem AddressesOne.append {posting : Posting}
    (hone : posting.AddressesOne log) (entry : Sigma NodeCall.Answer) :
    posting.AddressesOne (log ++ [entry]) := by
  rcases hone with hrecipient | ⟨hnone, roomId, outcome, hmem, hfound⟩
  · exact .inl hrecipient
  · exact .inr ⟨hnone, roomId, outcome, List.mem_append_left _ hmem, hfound⟩

theorem WellAddressed.addressed (hwatched : WellAddressed watched) :
    MessagesAddressed watched where
  rows entry hentry := by
    obtain ⟨name, hrow, _⟩ := hwatched.rows entry hentry
    exact hrow.oneColumn
  readBack entry hentry := by
    obtain ⟨name, hrow, hname⟩ := hwatched.rows entry hentry
    exact (hrow.readBack_iff hentry).mpr hname
  refused index thread hthread hnone := by
    have hsilent := hwatched.silent index thread hthread hnone
    refine ⟨hsilent.unchanged, fun msgId hprog => ?_⟩
    have hreaches : Prog.Reaches thread.op.program thread.log (.ret msgId) :=
      hprog ▸ hwatched.faithful thread (List.mem_of_getElem? hthread)
    exact (ensures_program thread.op _ _ hreaches).resolve_right
      (hsilent.unstored msgId)

/-- The row a call inserts for a message that addresses one. -/
theorem WellAddressed.rowAddressed (hwatched : WellAddressed watched)
    (hthread : thread ∈ watched.state.threads) {seq : Int}
    {roomId : Option Int} {fromUid content : String} {toUid : Option String}
    {next : QueryOutcome (.insertMessage seq roomId fromUid toUid content) →
      NodeProg Int}
    (hprog : thread.prog = .call (.sql (.query (.insertMessage seq roomId
      fromUid toUid content))) next)
    (hone : thread.op.AddressesOne thread.log) {row : MessageRow}
    (hroom : row.roomId = roomId) (hto : row.toUid = toUid) :
    RowAddressed watched.state.world.db row thread.op.addressee := by
  have hreaches : Prog.Reaches thread.op.program thread.log
      (.call (.sql (.query (.insertMessage seq roomId fromUid toUid
        content))) next) := hprog ▸ hwatched.faithful thread hthread
  obtain ⟨-, hrecipient, hfills⟩ :=
    issues_program thread.op _ _ _ hreaches
  rcases hone with ⟨hsome, hnoRoom⟩ | ⟨hnone, found, hlooks⟩
  · rw [addressee, if_neg hsome]
    refine .toUser ?_ ?_
    · cases hfills with
      | found hnamed hfound => exact (hnamed hnoRoom).elim
      | none hnone => exact hroom
    · rw [hto, hrecipient, if_neg hsome]
  · rw [addressee, if_pos hnone]
    cases hfills with
    | found hnamed hfound =>
        exact .toRoom (hwatched.looked thread hthread _ _ hfound).2 hroom
          (by rw [hto, hrecipient, if_pos hnone])
    | none hnone =>
        have hpos := (hwatched.looked thread hthread _ _ hlooks).1
        have hle := hnone found hlooks
        omega

/-- Without a registered sender nothing is inserted. -/
theorem insertMessage_refused {db : Database} {seq : Int}
    {roomId : Option Int} {fromUid content : String} {toUid : Option String}
    (hsender : ¬ db.Registered fromUid) :
    (db.execStatement (.insertMessage seq roomId fromUid toUid content)).2 =
        none ∧
      (db.execStatement (.insertMessage seq roomId fromUid toUid
        content)).1.messages = db.messages := by
  simp only [Database.execStatement]
  rw [if_neg hsender]
  exact ⟨rfl, rfl⟩

/-- With one, a row is. -/
theorem insertMessage_changed {db : Database} {fromUid : String} (seq : Int)
    (roomId : Option Int) (toUid : Option String) (content : String)
    (hsender : db.Registered fromUid) :
    ∃ row : MessageRow, row.roomId = roomId ∧ row.toUid = toUid ∧
      (db.execStatement (.insertMessage seq roomId fromUid toUid
        content)).1.messages = db.messages.insert row := by
  simp only [Database.execStatement]
  rw [if_pos hsender]
  exact ⟨_, rfl, rfl, rfl⟩

theorem silent_begin (posting : Posting) :
    Silent (system.begin posting).log [] where
  unstored := by
    rintro msgId ⟨_, _, _, _, _, _, hentry, _⟩
    cases hentry
  unchanged := by simp

section Exec

variable {call : NodeCall} {answer : call.Answer} {world : NodeWorld}
  {index : Nat} {rest : call.Answer → NodeProg Int}

theorem rooms_subset_effect
    (heffect : watched.state.world.effect call answer = some world) :
    watched.state.world.db.rooms.entries ⊆ world.db.rooms.entries := by
  rcases NodeWorld.exec_of_effect heffect with
    hsame | ⟨statement, _, _, _, hdb⟩
  · rw [hsame]
    exact List.Subset.refl _
  · rw [hdb]
    exact rooms_subset_execStatement watched.state.world.db statement

/-- A room that was looked up before or just now stands. -/
theorem WellAddressed.looksUp_append (hwatched : WellAddressed watched)
    (hmem : thread ∈ watched.state.threads)
    (heffect : watched.state.world.effect call answer = some world)
    {name : String} {roomId : Int}
    (hlooks : LooksUp (thread.log ++ [⟨call, answer⟩]) name roomId) :
    0 < roomId ∧ RoomAt watched.state.world.db roomId name := by
  obtain ⟨outcome, hentry, hhead⟩ := hlooks
  rcases List.mem_append.mp hentry with hold | hnew
  · exact hwatched.looked thread hmem name roomId ⟨outcome, hold, hhead⟩
  · cases List.mem_singleton.mp hnew
    cases hrows : outcome.result with
    | none =>
        rw [hrows] at hhead
        cases hhead
    | some roomIds =>
        rw [hrows] at hhead
        rcases NodeWorld.query_of_effect heffect with
          ⟨_, hnone | hresult, _⟩ | ⟨_, hnone, _⟩
        · rw [hrows] at hnone
          cases hnone
        · exact roomAt_of_selectRoomId (hresult.symm.trans hrows) hhead
        · rw [hrows] at hnone
          cases hnone

/-- A call whose message addresses nobody stays silent. -/
theorem WellAddressed.silent_exec (hwatched : WellAddressed watched)
    (hthread : watched.state.threads[index]? = some thread)
    (hprog : thread.prog = .call call rest)
    (heffect : watched.state.world.effect call answer = some world)
    (hallowed : InsertsAddressed watched (.exec index call answer))
    (hnone : ¬ thread.op.AddressesOne (thread.log ++ [⟨call, answer⟩]))
    (hsilent : Silent thread.log (watched.callEffects index)) :
    Silent (thread.log ++ [⟨call, answer⟩])
      (⟨index, watched.state.world, world⟩ ::
        watched.callEffects index) := by
  have hbefore : ¬ thread.op.AddressesOne thread.log :=
    fun hone => hnone (hone.append _)
  have hrefused {seq : Int} {roomId : Option Int} {fromUid content : String}
      {toUid : Option String} {outcome : QueryOutcome
        (.insertMessage seq roomId fromUid toUid content)}
      (hcall : (⟨call, answer⟩ : Sigma NodeCall.Answer) = ⟨.sql (.query
        (.insertMessage seq roomId fromUid toUid content)), outcome⟩)
      (hexecuted : outcome.executed = true) :
      ¬ watched.state.world.db.Registered fromUid := by
    cases hcall
    exact fun hsender =>
      hbefore (hallowed hexecuted hsender thread hthread).1
  constructor
  · rintro msgId ⟨seq, roomId, fromUid, toUid, content, outcome, hentry,
      hresult⟩
    rcases List.mem_append.mp hentry with hold | hnew
    · exact hsilent.unstored msgId
        ⟨seq, roomId, fromUid, toUid, content, outcome, hold, hresult⟩
    · have hcall := (List.mem_singleton.mp hnew).symm
      cases hcall
      rcases NodeWorld.query_of_effect heffect with
        ⟨hexecuted, hfailed | hdone, _⟩ | ⟨_, hfailed, _⟩
      · rw [hresult] at hfailed
        cases hfailed
      · rw [hresult, (insertMessage_refused (hrefused rfl hexecuted)).1]
          at hdone
        cases hdone
      · rw [hresult] at hfailed
        cases hfailed
  · intro effect heffects
    rcases List.mem_cons.mp heffects with rfl | hold
    · show world.db.messages = watched.state.world.db.messages
      rcases NodeWorld.exec_of_effect heffect with
        hsame | ⟨statement, outcome, hcall, hexecuted, hdb⟩
      · rw [hsame]
      · rw [hdb]
        cases hcall
        have hreaches : Prog.Reaches thread.op.program thread.log
            (.call (.sql (.query statement)) rest) :=
          hprog ▸ hwatched.faithful thread (List.mem_of_getElem? hthread)
        have hsends := issues_program thread.op _ _ _ hreaches
        cases statement with
        | insertMessage seq roomId fromUid toUid content =>
            exact (insertMessage_refused (hrefused rfl hexecuted)).2
        | selectRoomId | selectNextSeq => rfl
        | _ => exact hsends.elim
    · exact hsilent.unchanged effect hold

theorem WellAddressed.exec (hwatched : WellAddressed watched)
    (hthread : watched.state.threads[index]? = some thread)
    (hprog : thread.prog = .call call rest)
    (heffect : watched.state.world.effect call answer = some world)
    (hallowed : InsertsAddressed watched (.exec index call answer)) :
    (∀ entry ∈ world.db.messages.entries, RowReadable world.db entry.2) ∧
      ∀ other ∈ watched.state.threads.set index
        (thread.advance call answer (rest answer)), ∀ name roomId,
          LooksUp other.log name roomId →
            0 < roomId ∧ RoomAt world.db roomId name := by
  have hmem := List.mem_of_getElem? hthread
  have hstands {name : String} {roomId : Int}
      (hfound : 0 < roomId ∧ RoomAt watched.state.world.db roomId name) :
      0 < roomId ∧ RoomAt world.db roomId name := by
    obtain ⟨hpos, row, hrow, hname⟩ := hfound
    exact ⟨hpos, row, rooms_subset_effect heffect hrow, hname⟩
  constructor
  · rcases NodeWorld.exec_of_effect heffect with
      hsame | ⟨statement, outcome, hcall, hexecuted, hdb⟩
    · rw [hsame]
      exact hwatched.rows
    · rw [hdb]
      apply rowsReadable_execStatement hwatched.rows
      rintro seq roomId fromUid toUid content rfl hsender row hroom hto
      cases hcall
      obtain ⟨hone, hname⟩ := hallowed hexecuted hsender thread hthread
      exact ⟨_, hwatched.rowAddressed hmem hprog hone hroom hto, hname⟩
  · intro other hother name roomId hlooks
    rcases List.mem_or_eq_of_mem_set hother with hold | rfl
    · exact hstands (hwatched.looked other hold name roomId hlooks)
    · exact hstands (hwatched.looksUp_append hmem heffect hlooks)

end Exec

theorem WellAddressed.step {move : PostingMove}
    (hwatched : WellAddressed watched)
    (hstep : watched.step system move = some next)
    (hallowed : InsertsAddressed watched move) : WellAddressed next := by
  have hindexed := hwatched.indexed.step hstep
  have hsilent := WatchedThreads.forall_threads_step
    (fun thread effects =>
      ¬ thread.op.AddressesOne thread.log → Silent thread.log effects)
    hwatched.indexed hstep (fun op _ => silent_begin op)
    (by
      rintro index call answer thread world rest rfl hthread hprog heffect
        hbefore hnone
      exact hwatched.silent_exec hthread hprog heffect hallowed hnone
        (hbefore fun hone => hnone (hone.append _)))
    hwatched.silent
  obtain ⟨state, hstate, rfl⟩ := Option.map_eq_some_iff.mp hstep
  have hfaithful := ThreadSystem.faithful_step hstate hwatched.faithful
  cases ThreadSystem.stepped_of_step hstate with
  | enter posting =>
      refine ⟨hindexed, hfaithful, hwatched.rows, ?_, hsilent⟩
      intro thread hthread name roomId hlooks
      rcases List.mem_append.mp hthread with hold | hnew
      · exact hwatched.looked thread hold name roomId hlooks
      · rw [List.mem_singleton.mp hnew] at hlooks
        obtain ⟨_, hentry, _⟩ := hlooks
        cases hentry
  | exec hthread hprog heffect =>
      obtain ⟨hrows, hlooked⟩ :=
        hwatched.exec hthread hprog heffect hallowed
      exact ⟨hindexed, hfaithful, hrows, hlooked, hsilent⟩
  | @disturb event world hdisturb =>
      cases event with
      | tick clock =>
          cases hdisturb
          exact ⟨hindexed, hfaithful, fun entry hentry =>
            (hwatched.rows entry hentry).mono (List.Subset.refl _) rfl rfl,
            hwatched.looked, hsilent⟩
      | execute statement =>
          have hother : isInsertMessage statement = false ∧
              { watched.state.world with
                db := (watched.state.world.db.execStatement statement).1 } =
                world := by
            simpa [system, messageSystem, NodeWorld.bystand] using hdisturb
          obtain ⟨hother, rfl⟩ := hother
          refine ⟨hindexed, hfaithful, ?_, ?_, hsilent⟩
          · apply rowsReadable_execStatement hwatched.rows
            rintro seq roomId fromUid toUid content rfl
            cases hother
          · intro thread hthread name roomId hlooks
            obtain ⟨hpos, row, hrow, hname⟩ :=
              hwatched.looked thread hthread name roomId hlooks
            exact ⟨hpos, row, rooms_subset_execStatement
              watched.state.world.db statement hrow, hname⟩

/-- An INSERT that leaves everything addressed was allowed. -/
theorem insertsAddressed_of_addressed {move : PostingMove}
    (hwatched : WellAddressed watched)
    (hstep : watched.step system move = some next)
    (hnext : MessagesAddressed next) : InsertsAddressed watched move := by
  unfold InsertsAddressed
  split
  · rename_i moved index seq roomId fromUid toUid content outcome
    intro hexecuted hsender thread hthread
    obtain ⟨state, hstate, rfl⟩ := Option.map_eq_some_iff.mp hstep
    cases ThreadSystem.stepped_of_step hstate with
    | @exec _ _ _ other world rest hother hprog heffect =>
        rw [hthread] at hother
        cases hother
        obtain ⟨row, hroom, hto, hrow⟩ :=
          insertMessage_changed seq roomId toUid content hsender
        rcases NodeWorld.query_of_effect heffect with
          ⟨_, _, rfl⟩ | ⟨hfailed, _, _⟩
        · have hone : thread.op.AddressesOne thread.log := by
            by_contra hnone
            have hself := List.getElem?_set_self
              (List.getElem?_eq_some_iff.mp hthread).1
              (a := thread.advance _ outcome (rest outcome))
            have hstill : ¬ (thread.advance _ outcome
                (rest outcome)).op.AddressesOne
                  (thread.advance _ outcome (rest outcome)).log := by
              rintro (hrecipient | ⟨hempty, found, old, hentry, hfound⟩)
              · exact hnone (.inl hrecipient)
              · rcases List.mem_append.mp hentry with hold | hnew
                · exact hnone (.inr ⟨hempty, found, old, hold, hfound⟩)
                · cases List.mem_singleton.mp hnew
            have hsame := (hnext.refused index _ hself hstill).1 _
              (List.mem_filter.mpr ⟨List.mem_cons_self, by simp⟩)
            have hlength := congrArg (fun table => table.entries.length)
              (hrow.symm.trans hsame)
            simp [AutoTable.insert] at hlength
          refine ⟨hone, ?_⟩
          have haddressed := hwatched.rowAddressed
            (List.mem_of_getElem? hthread) hprog hone hroom hto
          have hmem : (watched.state.world.db.messages.next, row) ∈
              (watched.state.world.db.execStatement (.insertMessage seq
                roomId fromUid toUid content)).1.messages.entries := by
            rw [hrow]
            exact List.mem_append_right _ (List.mem_singleton.mpr rfl)
          exact ((haddressed.mono (rooms_subset_execStatement
            watched.state.world.db _) rfl rfl).readBack_iff hmem).mp
              (hnext.readBack _ hmem)
        · rw [hfailed] at hexecuted
          cases hexecuted
  · trivial

end Invariant

/-- No messages yet; users, rooms and everything else as in `db`. -/
def start (db : Database) : Watched where
  state := { world := { db := { db with messages := AutoTable.empty } } }

theorem start_wellAddressed (db : Database) : WellAddressed (start db) where
  indexed := by simp [WatchedThreads.Indexed, start]
  faithful := by simp [start]
  rows := by simp [start, AutoTable.empty]
  looked := by simp [start]
  silent := by simp [start]

/-- Every message of a run is for one user or for one room exactly when every
INSERT of the run is made for a message that names a recipient and no room,
or a room that was found and no recipient, by a text that does not begin with
a NUL. -/
theorem messages_addressed_iff (db : Database) (moves : List PostingMove) :
    Runs.Always (WatchedThreads.step system) MessagesAddressed (start db)
        moves ↔
      Runs.EachStep (WatchedThreads.step system) InsertsAddressed (start db)
        moves := by
  apply Runs.always_iff_eachStep_of_inv (start_wellAddressed db)
  · intro watched hwatched
    exact hwatched.addressed
  · intro watched move next hstep hwatched hallowed
    exact hwatched.step hstep hallowed
  · intro watched move next hstep hwatched hnext
    exact insertsAddressed_of_addressed hwatched hstep hnext

/-- Alice writes to a room that does not exist: the row names nobody. -/
theorem messages_addressed_fails_unknownRoom :
    ¬ Runs.Always (WatchedThreads.step system) MessagesAddressed
        (start { users := ⟨[{ uid := "alice" }], by decide⟩ })
        [.enter ⟨"alice", "", "lobby", "hi"⟩,
          .exec 0 (.sql .getConnection) true,
          .exec 0 (.sql (.query (.selectRoomId "lobby"))) ⟨true, some []⟩,
          .exec 0 (.sql (.query (.insertMessage 1 none "alice" none "hi")))
            ⟨true, some (1 : Int)⟩] := by
  intro halways
  have haddressed := halways _ _ (List.prefix_refl _) rfl
  have hcolumns := haddressed.rows (1, _) (List.mem_singleton.mpr rfl)
  exact hcolumns.mpr rfl rfl

end Posting

end MuduoChat
