import MuduoChat.MessageRows
import MuduoChat.NodeOrder

/-!
# The order of one sender's messages

Two messages that arrive on one connection become two tasks of the pool and
two callbacks of the connection's loop.  Workers that hold the two tasks at
the same time may store them in either order, and hand them to the loop in
either order; nothing keeps the order of arrival.  Where a worker does not
take a message while another one still works on a message of the same
connection to the same addressee, the messages are stored, numbered and sent
in the order in which they came.
-/

namespace MuduoChat

/-! ## Posts -/

/-- A chat message under the number of its request. -/
structure ChatPost where
  request : Nat
  conn : Conn
  sender : String
  recipient : String
  room : String
  content : String

namespace ChatPost

def task (post : ChatPost) : Task :=
  .sendMessage post.conn post.sender post.recipient post.room post.content

def callback (post : ChatPost) (result : SendMessageResult) : Callback :=
  .chat post.conn post.sender post.recipient post.room post.content result

end ChatPost

/-- Two messages of one connection to one user or to one room. -/
def Task.SharesAddressee : Task → Task → Prop
  | .sendMessage conn _ recipient room _,
    .sendMessage conn' _ recipient' room' _ =>
      conn = conn' ∧ (recipient ≠ "" ∧ recipient = recipient' ∨
        room ≠ "" ∧ room = room')
  | _, _ => False

namespace Task.SharesAddressee

theorem symm {one other : Task} (hshares : one.SharesAddressee other) :
    other.SharesAddressee one := by
  revert hshares
  unfold Task.SharesAddressee
  split
  · rintro ⟨rfl, ⟨hne, rfl⟩ | ⟨hne, rfl⟩⟩
    · exact ⟨rfl, .inl ⟨hne, rfl⟩⟩
    · exact ⟨rfl, .inr ⟨hne, rfl⟩⟩
  · exact False.elim

theorem not_followUp {one other : Task} (hother : other.IsFollowUp) :
    ¬ one.SharesAddressee other := by
  intro hshares
  revert hother hshares
  unfold Task.SharesAddressee
  split
  · intro hother
    exact hother.elim
  · exact fun _ => id

theorem conn {first second : ChatPost}
    (hshares : first.task.SharesAddressee second.task) :
    first.conn = second.conn := hshares.1

end Task.SharesAddressee

namespace ChatNode

variable {config : ServerConfig} {node next : ChatNode} {action : Action}

/-- The task of the message has ended and the message is stored. -/
def StoredAs (node : ChatNode) (post : ChatPost) (msgId : Int) : Prop :=
  ∃ result, (⟨post.request, post.task⟩, some (post.callback result)) ∈
      node.finished ∧
    result.success = true ∧ result.msgId = msgId

/-- The callback sends the message on a connection: the callback of its own
task does, or a login that pushes it as an offline message. -/
def SendsOn (target : Conn) (post : ChatPost) (msgId : Int)
    (each : RanCallback) : Prop :=
  (∃ result, each.functor = ⟨post.request, post.callback result⟩ ∧
    ∃ msg, .sent target (.chatMsg msg) ∈ each.events) ∨
  ∃ result token,
    ChatServer.entry each.functor.callback = some (target, result, token) ∧
      ∃ info ∈ result.offlineMessages, info.msgId = msgId

/-- Of two messages that came in this order on one connection, to one
addressee, the first has the smaller identifier, and no connection is sent
the first after the second. -/
def PostsInOrder (node : ChatNode) : Prop :=
  ∀ first second firstId secondId, first.request < second.request →
    first.task.SharesAddressee second.task →
    StoredAs node first firstId → StoredAs node second secondId →
      firstId < secondId ∧
        ∀ target, node.ran.Pairwise fun later earlier =>
          SendsOn target second secondId earlier →
            ¬ SendsOn target first firstId later

/-- Of two such messages in one room, the first has the smaller number. -/
def SeqsInOrder (node : ChatNode) : Prop :=
  ∀ first second firstId secondId, first.request < second.request →
    first.task.SharesAddressee second.task →
    StoredAs node first firstId → StoredAs node second secondId →
      ∃ before after, node.world.db.messages.get? firstId = some before ∧
        node.world.db.messages.get? secondId = some after ∧
        (before.roomId = after.roomId → before.roomId ≠ none →
          before.seq < after.seq)

/-- No worker takes a message while another one works on a message of the
same connection to the same addressee. -/
def PostsTakeTurns : ChatNode → Action → Prop :=
  TakesTurns Task.SharesAddressee

/-- The query for the next number of a room is answered. -/
def NumbersAnswered (_ : ChatNode) : Action → Prop
  | .exec _ (.sql (.query (.selectNextSeq _))) outcome =>
      outcome.result ≠ none
  | _ => True

/-! ## The programs -/

section Programs

open Prog

theorem ensures_sendMessage (sender recipient room content : String) :
    (ChatService.sendMessage sender recipient room content).Ensures
      fun log result => result.success = true → 0 < result.msgId ∧
        ⟨.storeMessage sender recipient room content, result.msgId⟩ ∈
          log := by
  simp only [ChatService.sendMessage, repository, request_bind,
    ensures_call]
  intro msgId
  split
  · simp
  · rename_i hid
    have hpositive : 0 < msgId := Int.not_le.mp hid
    simp [hpositive]

theorem ensures_posts (nodeId : String) (task : Task) :
    (task.program nodeId).Ensures fun log callback =>
      ∀ conn sender recipient room content result,
        callback = some (.chat conn sender recipient room content result) →
          task = .sendMessage conn sender recipient room content ∧
            (result.success = true → 0 < result.msgId ∧
              ⟨.storeMessage sender recipient room content, result.msgId⟩ ∈
                log) := by
  cases task with
  | sendMessage conn sender recipient room content =>
      refine (ensures_sendMessage sender recipient room content).bind
        fun log result hresult => ensures_ret.mpr ?_
      intro _ _ _ _ _ _ hdone
      cases hdone
      exact ⟨rfl, fun hsuccess => by simpa using hresult hsuccess⟩
  | _ =>
      have hany {α : Type} (service : ServiceProg α) :
          service.Ensures fun _ _ => True := fun _ _ _ => trivial
      refine (hany _).bind fun log value _ => ensures_ret.mpr ?_
      intro _ _ _ _ _ _ hdone
      cases hdone

/-- A row for a room carries the number that was read for the room. -/
theorem ensures_storeMessage (sender recipient room content : String) :
    (MySQLMessageRepo.storeMessage sender recipient room content).Ensures
      fun log msgId => 0 < msgId → ∃ seq roomId toUid,
        ⟨.query (.insertMessage seq roomId sender toUid content),
          some msgId⟩ ∈ log ∧
        ∀ found, roomId = some found → ∃ numbered,
          ⟨.query (.selectNextSeq found), numbered⟩ ∈ log ∧
            seq = numbered.getD 1 := by
  have hinserted {result : Option Int} (hid : 0 < result.getD 0) :
      result = some (result.getD 0) := by
    cases result with
    | none => cases hid
    | some msgId => rfl
  simp only [MySQLMessageRepo.storeMessage, withConnection, request_bind,
    ensures_call]
  intro conn
  split
  · simp
  · unfold MySQLMessageRepo.lookupRoom
    split
    · simp only [MySQLMessageRepo.nextSeq, request_bind, call_bind,
        ensures_call, pure_eq, ret_bind, gt_iff_lt, lt_irrefl, if_false,
        ensures_ret]
      intro result _ hid
      refine ⟨1, none, if recipient = "" then none else some recipient, ?_,
        by simp⟩
      rw [← hinserted hid]
      simp
    · simp only [request_bind, call_bind, ensures_call, pure_eq, ret_bind]
      intro rows
      generalize (List.head? (Option.getD rows [])).getD 0 = roomId
      unfold MySQLMessageRepo.nextSeq
      by_cases hroom : roomId > 0
      · simp only [request_bind, call_bind, ensures_call, pure_eq, ret_bind,
          if_pos hroom, ensures_ret]
        intro numbered result _ hid
        refine ⟨numbered.getD 1, some roomId,
          if recipient = "" then none else some recipient, ?_, ?_⟩
        · rw [← hinserted hid]
          simpa using hroom
        · intro found hfound
          cases hfound
          exact ⟨numbered, by simp, rfl⟩
      · simp only [call_bind, ensures_call, pure_eq, ret_bind,
          if_neg hroom, ensures_ret]
        intro result _ hid
        refine ⟨1, none, if recipient = "" then none else some recipient,
          ?_, by simp⟩
        rw [← hinserted hid]
        simpa using hroom

end Programs

/-! ## What the log of a message tells -/

/-- A finished task has stored a message. -/
def Stores (entry : PoolTask × Option Callback) (msgId : Int) : Prop :=
  ∃ conn sender recipient room content result,
    entry.2 = some (.chat conn sender recipient room content result) ∧
      result.success = true ∧ result.msgId = msgId

/-- The log has the row of a message, with the identifier it got. -/
def Inserted (log : List (Sigma NodeCall.Answer)) (roomId : Option Int)
    (seq msgId : Int) : Prop :=
  ∃ sender toUid content outcome,
    ⟨.sql (.query (.insertMessage seq roomId sender toUid content)),
      outcome⟩ ∈ log ∧ outcome.result = some msgId

section Logs

variable {thread : NodeThread} {callback : Option Callback}

theorem task_of_chat (hthread : (system config).Faithful thread)
    {conn : Conn} {sender recipient room content : String}
    {result : SendMessageResult}
    (hprog : thread.prog =
      .ret (some (.chat conn sender recipient room content result))) :
    thread.op.task = .sendMessage conn sender recipient room content := by
  obtain ⟨outer, houter, _⟩ := calls_of_done hthread hprog
  exact (ensures_posts config.nodeId thread.op.task outer _ houter conn
    sender recipient room content result rfl).1

theorem inserted_of_stores (hthread : (system config).Faithful thread)
    (hprog : thread.prog = .ret callback) {msgId : Int}
    (hstores : Stores (thread.op, callback) msgId) :
    ∃ roomId seq, Inserted thread.log roomId seq msgId ∧
      ∀ found, roomId = some found → ∃ numbered,
        ⟨.sql (.query (.selectNextSeq found)), numbered⟩ ∈ thread.log ∧
          seq = numbered.result.getD 1 := by
  obtain ⟨conn, sender, recipient, room, content, result, hdone, hsuccess,
    rfl⟩ := hstores
  obtain ⟨outer, houter, hparts⟩ := calls_of_done hthread hprog
  obtain ⟨hid, hcall⟩ := (ensures_posts config.nodeId thread.op.task outer _
    houter conn sender recipient room content result hdone).2 hsuccess
  obtain ⟨part, hpart, hpath⟩ := hparts _ hcall
  obtain ⟨queries, hqueries, hlogged⟩ := queries_of_overSql hpath
  obtain ⟨seq, roomId, toUid, hinsert, hnumber⟩ :=
    ensures_storeMessage sender recipient room content queries _ hqueries hid
  obtain ⟨outcome, hmem, hresult⟩ := hlogged _ _ hinsert
  refine ⟨roomId, seq, ⟨sender, toUid, content, outcome, hpart hmem,
    hresult⟩, ?_⟩
  intro found hfound
  obtain ⟨answer, hselect, rfl⟩ := hnumber found hfound
  obtain ⟨numbered, hread, rfl⟩ := hlogged _ _ hselect
  exact ⟨numbered, hpart hread, rfl⟩

end Logs

/-- What an INSERT has done when its answer arrives. -/
theorem inserted_exec {world after : NodeWorld} {call : NodeCall}
    {answer : call.Answer} {log : List (Sigma NodeCall.Answer)}
    (heffect : world.effect call answer = some after)
    {roomId : Option Int} {seq msgId : Int}
    (hinserted : Inserted (log ++ [⟨call, answer⟩]) roomId seq msgId) :
    Inserted log roomId seq msgId ∨
      msgId = world.db.messages.next ∧
        after.db.messages.next = world.db.messages.next + 1 ∧
        after.db.Filed msgId roomId seq := by
  obtain ⟨sender, toUid, content, outcome, hmem, hresult⟩ := hinserted
  rcases List.mem_append.mp hmem with hold | hnew
  · exact .inl ⟨sender, toUid, content, outcome, hold, hresult⟩
  · cases List.mem_singleton.mp hnew
    obtain ⟨db, hdb, rfl⟩ := Option.map_eq_some_iff.mp heffect
    obtain ⟨_, rfl, hdone⟩ := executed_of_result hdb hresult
    simp only [Database.execStatement] at hdone ⊢
    split at hdone
    · rename_i hregistered
      cases hdone
      rw [if_pos hregistered]
      refine .inr ⟨rfl, rfl, ?_⟩
      exact ⟨_, (AutoTable.get?_insert _ _ _).trans (if_pos rfl), rfl, rfl⟩
    · cases hdone

/-! ## Identifiers -/

/-- A message with its row, stored after the node has started. -/
def Placed (base : Int) (db : Database) (msgId : Int) (roomId : Option Int)
    (seq : Int) : Prop :=
  base ≤ msgId ∧ msgId < db.messages.next ∧ db.Filed msgId roomId seq

theorem Placed.keeps {base : Int} {db after : Database} {msgId seq : Int}
    {roomId : Option Int} (hplaced : Placed base db msgId roomId seq)
    (hkeeps : db.KeepsMessages after) :
    Placed base after msgId roomId seq := by
  obtain ⟨hbase, hlt, hfiled⟩ := hplaced
  exact ⟨hbase, hlt.trans_le hkeeps.next,
    (hkeeps.filed msgId hlt roomId seq).mpr hfiled⟩

structure PostsStored (base : Int) (config : ServerConfig)
    (node : ChatNode) : Prop where
  faithful : ∀ thread ∈ node.threads, (system config).Faithful thread
  later : base ≤ node.world.db.messages.next
  written : ∀ thread ∈ node.threads, ∀ roomId seq msgId,
    Inserted thread.log roomId seq msgId →
      Placed base node.world.db msgId roomId seq
  stored : ∀ entry ∈ node.finished, ∀ msgId, Stores entry msgId →
    ∃ roomId seq, Placed base node.world.db msgId roomId seq
  posted : ∀ entry ∈ node.finished,
    ∀ conn sender recipient room content result,
      entry.2 = some (.chat conn sender recipient room content result) →
        entry.1.task = .sendMessage conn sender recipient room content

theorem not_inserted_nil {roomId : Option Int} {seq msgId : Int} :
    ¬ Inserted [] roomId seq msgId := by
  rintro ⟨_, _, _, _, hmem, _⟩
  cases hmem

theorem PostsStored.step {base : Int} (hnode : PostsStored base config node)
    (hstep : step config node action = some next) :
    PostsStored base config next := by
  have hfaithful := faithful_step hstep hnode.faithful
  have hkeeps := keepsMessages_step hnode.faithful hstep
  have hlater : base ≤ next.world.db.messages.next :=
    hnode.later.trans hkeeps.next
  have hstored : ∀ entry ∈ node.finished, ∀ msgId, Stores entry msgId →
      ∃ roomId seq, Placed base next.world.db msgId roomId seq := by
    intro entry hentry msgId hstores
    obtain ⟨roomId, seq, hplaced⟩ :=
      hnode.stored entry hentry msgId hstores
    exact ⟨roomId, seq, hplaced.keeps hkeeps⟩
  have hwritten : ∀ thread ∈ node.threads, ∀ roomId seq msgId,
      Inserted thread.log roomId seq msgId →
        Placed base next.world.db msgId roomId seq := by
    intro thread hthread roomId seq msgId hinserted
    exact (hnode.written thread hthread roomId seq msgId hinserted).keeps
      hkeeps
  cases steps_of_step hstep with
  | start item rest hqueue =>
      refine ⟨hfaithful, hlater, ?_, hstored, hnode.posted⟩
      intro thread hthread roomId seq msgId hinserted
      rcases List.mem_append.mp hthread with hold | hnew
      · exact hwritten thread hold roomId seq msgId hinserted
      · rw [List.mem_singleton.mp hnew] at hinserted
        exact (not_inserted_nil hinserted).elim
  | @exec index call answer thread world rest hthread hprog heffect =>
      refine ⟨hfaithful, hlater, ?_, hstored, hnode.posted⟩
      intro other hother roomId seq msgId hinserted
      rcases List.mem_or_eq_of_mem_set hother with hold | rfl
      · exact hwritten other hold roomId seq msgId hinserted
      · rcases inserted_exec heffect hinserted with
          hold | ⟨rfl, hnext, hfiled⟩
        · exact hwritten thread (List.mem_of_getElem? hthread) roomId seq
            msgId hold
        · refine ⟨hnode.later, ?_, hfiled⟩
          show _ < world.db.messages.next
          rw [hnext]
          omega
  | @finish index thread callback hthread hprog =>
      have hmem := List.mem_of_getElem? hthread
      refine ⟨hfaithful, hlater, ?_, ?_, ?_⟩
      · intro other hother
        exact hwritten other (List.mem_of_mem_eraseIdx hother)
      · intro entry hentry msgId hstores
        rcases List.mem_cons.mp hentry with rfl | hold
        · obtain ⟨roomId, seq, hinserted, _⟩ := inserted_of_stores
            (hnode.faithful thread hmem) hprog hstores
          exact ⟨roomId, seq,
            hwritten thread hmem roomId seq msgId hinserted⟩
        · exact hstored entry hold msgId hstores
      · intro entry hentry conn sender recipient room content result hdone
        rcases List.mem_cons.mp hentry with rfl | hold
        · have hchat : callback =
              some (.chat conn sender recipient room content result) := hdone
          rw [hchat] at hprog
          exact task_of_chat (hnode.faithful thread hmem) hprog
        · exact hnode.posted entry hold conn sender recipient room content
            result hdone
  | _ => exact ⟨hfaithful, hlater, hwritten, hstored, hnode.posted⟩

theorem postsStored_start (world : NodeWorld) :
    PostsStored world.db.messages.next config { world := world } := by
  refine ⟨?_, le_rfl, ?_, ?_, ?_⟩ <;> simp

/-- The rows of later messages have larger identifiers. -/
def IdsFollow : ChatNode → Prop :=
  Followed Task.SharesAddressee
    (fun _ entry log => ∀ firstId, Stores entry firstId →
      ∀ roomId seq msgId, Inserted log roomId seq msgId → firstId < msgId)
    fun _ earlier later => ∀ firstId secondId, Stores earlier firstId →
      Stores later secondId → firstId < secondId

theorem idsFollow_step {base : Int} (hnode : IdsFollow node)
    (hposts : PostsStored base config node)
    (hturns : InTurn Task.SharesAddressee node)
    (hstep : step config node action = some next) : IdsFollow next := by
  refine Followed.step hnode hturns (fun _ _ => Task.SharesAddressee.symm)
    hstep ?_ (fun _ _ _ => id) ?_ (fun _ _ _ _ => id) ?_
  · intro db entry firstId _ roomId seq msgId hinserted
    exact (not_inserted_nil hinserted).elim
  · intro index call answer thread _ _ heffect entry hentry hbeside firstId
      hstores roomId seq msgId hinserted
    rcases inserted_exec heffect hinserted with hold | ⟨rfl, _, _⟩
    · exact hbeside firstId hstores roomId seq msgId hold
    · obtain ⟨_, _, _, hlt, _⟩ := hposts.stored entry hentry firstId hstores
      exact hlt
  · intro thread hthread callback hprog entry _ hbeside firstId secondId
      hfirst hsecond
    obtain ⟨roomId, seq, hinserted, _⟩ :=
      inserted_of_stores (hposts.faithful thread hthread) hprog hsecond
    exact hbeside firstId hfirst roomId seq secondId hinserted

/-! ## Numbers in rooms -/

/-- The numbers later messages get in a room are larger. -/
def SeqsFollow : ChatNode → Prop :=
  Followed Task.SharesAddressee
    (fun db entry log => ∀ firstId, Stores entry firstId →
      ∀ roomId outcome number,
        ⟨.sql (.query (.selectNextSeq roomId)), outcome⟩ ∈ log →
          outcome.result = some number →
            ∀ seq, db.Filed firstId (some roomId) seq → seq < number)
    fun db earlier later => ∀ firstId secondId, Stores earlier firstId →
      Stores later secondId → ∀ roomId seq number,
        db.Filed firstId (some roomId) seq →
          db.Filed secondId (some roomId) number → seq < number

def SeqsRead (node : ChatNode) : Prop :=
  ∀ thread ∈ node.threads, ∀ roomId outcome,
    ⟨.sql (.query (.selectNextSeq roomId)), outcome⟩ ∈ thread.log →
      outcome.result ≠ none

theorem SeqsRead.step (hnode : SeqsRead node)
    (hstep : step config node action = some next)
    (hanswered : NumbersAnswered node action) : SeqsRead next := by
  cases steps_of_step hstep with
  | start item rest hqueue =>
      intro thread hthread roomId outcome hlog
      rcases List.mem_append.mp hthread with hold | hnew
      · exact hnode thread hold roomId outcome hlog
      · rw [List.mem_singleton.mp hnew] at hlog
        cases hlog
  | @exec index call answer thread world rest hthread hprog heffect =>
      intro other hother roomId outcome hlog
      rcases List.mem_or_eq_of_mem_set hother with hold | rfl
      · exact hnode other hold roomId outcome hlog
      · rcases List.mem_append.mp hlog with hold | hnew
        · exact hnode thread (List.mem_of_getElem? hthread) roomId outcome
            hold
        · cases List.mem_singleton.mp hnew
          exact hanswered
  | finish hthread hprog =>
      intro other hother
      exact hnode other (List.mem_of_mem_eraseIdx hother)
  | _ => exact hnode

theorem seqsFollow_step {base : Int} (hnode : SeqsFollow node)
    (hread : SeqsRead node) (hposts : PostsStored base config node)
    (hturns : InTurn Task.SharesAddressee node)
    (hstep : step config node action = some next) : SeqsFollow next := by
  have hkeeps := keepsMessages_step hposts.faithful hstep
  have hfiled {entry : PoolTask × Option Callback}
      (hentry : entry ∈ node.finished) {msgId : Int}
      (hstores : Stores entry msgId) {roomId : Option Int} {seq : Int}
      (hafter : next.world.db.Filed msgId roomId seq) :
      node.world.db.Filed msgId roomId seq := by
    obtain ⟨_, _, _, hlt, _⟩ := hposts.stored entry hentry msgId hstores
    exact (hkeeps.filed msgId hlt roomId seq).mp hafter
  refine Followed.step hnode hturns (fun _ _ => Task.SharesAddressee.symm)
    hstep ?_ ?_ ?_ ?_ ?_
  · intro db entry firstId _ roomId outcome number hlog
    cases hlog
  · intro entry hentry log hbeside firstId hstores roomId outcome number hlog
      hresult seq hrow
    exact hbeside firstId hstores roomId outcome number hlog hresult seq
      (hfiled hentry hstores hrow)
  · intro index call answer thread _ _ heffect entry hentry hbeside firstId
      hstores roomId outcome number hlog hresult seq hrow
    have hbefore := hfiled hentry hstores hrow
    rcases List.mem_append.mp hlog with hold | hnew
    · exact hbeside firstId hstores roomId outcome number hold hresult seq
        hbefore
    · cases List.mem_singleton.mp hnew
      obtain ⟨db, hdb, _⟩ := Option.map_eq_some_iff.mp heffect
      obtain ⟨_, _, hdone⟩ := executed_of_result hdb hresult
      cases hdone
      exact hbefore.lt_next
  · intro earlier hearlier later hlater hbehind firstId secondId hfirst
      hsecond roomId seq number hrow hother
    exact hbehind firstId secondId hfirst hsecond roomId seq number
      (hfiled hearlier hfirst hrow) (hfiled hlater hsecond hother)
  · intro thread hthread callback hprog entry _ hbeside firstId secondId
      hfirst hsecond roomId seq number hrow hother
    obtain ⟨found, written, hinserted, hnumber⟩ :=
      inserted_of_stores (hposts.faithful thread hthread) hprog hsecond
    obtain ⟨_, _, hplaced⟩ :=
      hposts.written thread hthread found written secondId hinserted
    obtain ⟨rfl, rfl⟩ := hplaced.unique hother
    obtain ⟨outcome, hlog, hseq⟩ := hnumber roomId rfl
    obtain ⟨answer, hanswer⟩ :=
      Option.ne_none_iff_exists'.mp (hread thread hthread roomId outcome hlog)
    rw [hanswer] at hseq
    rw [hseq]
    exact hbeside firstId hfirst roomId outcome answer hlog hanswer seq hrow

/-! ## Offline messages -/

/-- A login pushes only messages from before the start. -/
def PushesOld (base : Int) (callback : Callback) : Prop :=
  ∀ conn result token,
    ChatServer.entry callback = some (conn, result, token) →
      ∀ info ∈ result.offlineMessages, info.msgId < base

structure OfflineOld (base : Int) (node : ChatNode) : Prop where
  rows : ∀ entry ∈ node.world.db.offlineMessages.entries,
    entry.2.msgId < base
  read : ∀ thread ∈ node.threads, ∀ uid outcome messages,
    ⟨.sql (.query (.selectUndelivered uid)), outcome⟩ ∈ thread.log →
      outcome.result = some messages → ∀ info ∈ messages,
        info.msgId < base
  waiting : ∀ loop, ∀ functor ∈ node.server.loops loop,
    PushesOld base functor.callback
  ran : ∀ each ∈ node.ran, PushesOld base each.functor.callback

theorem ensures_getUndelivered (uid : String) :
    (MySQLMessageRepo.getUndeliveredMessages uid).Ensures
      fun log messages => ∀ info ∈ messages, ∃ rows,
        ⟨.query (.selectUndelivered uid), some rows⟩ ∈ log ∧
          ∃ row ∈ rows, row.ofRow = info := by
  simp only [MySQLMessageRepo.getUndeliveredMessages, withConnection,
    mysqlQuery, Prog.request_bind, Prog.ensures_call]
  intro conn
  split
  · simp
  · simp only [Prog.call_bind, Prog.ensures_call, Prog.pure_eq,
      Prog.ret_bind, Prog.ensures_ret]
    intro result _ info hinfo
    cases result with
    | none => cases hinfo
    | some rows => exact ⟨rows, by simp, List.mem_map.mp hinfo⟩

theorem undelivered_of_entry {thread : NodeThread} {done : Callback}
    {conn : Conn} {result : LoginResult} {token : String}
    (hthread : (system config).Faithful thread)
    (hprog : thread.prog = .ret (some done))
    (hentry : ChatServer.entry done = some (conn, result, token))
    {info : MessageInfo} (hinfo : info ∈ result.offlineMessages) :
    ∃ uid outcome rows,
      ⟨.sql (.query (.selectUndelivered uid)), outcome⟩ ∈ thread.log ∧
        outcome.result = some rows ∧ ∃ row ∈ rows, row.ofRow = info := by
  obtain ⟨outer, houter, hparts⟩ := calls_of_done hthread hprog
  obtain ⟨uid, hcollected⟩ := ChatServer.collected_of_entry houter hentry
  obtain ⟨part, hpart, hpath⟩ := hparts _ hcollected.offlineMessages
  obtain ⟨queries, hqueries, hlogged⟩ := queries_of_overSql hpath
  obtain ⟨rows, hquery, hrow⟩ :=
    ensures_getUndelivered uid queries _ hqueries info hinfo
  obtain ⟨outcome, hmem, hresult⟩ := hlogged _ _ hquery
  exact ⟨uid, outcome, rows, hpart hmem, hresult, hrow⟩

theorem OfflineOld.step {base : Int} (hnode : OfflineOld base node)
    (hfaithful : ∀ thread ∈ node.threads, (system config).Faithful thread)
    (hstep : step config node action = some next) :
    OfflineOld base next := by
  have hkeeps := keepsMessages_step hfaithful hstep
  have hrows : ∀ entry ∈ next.world.db.offlineMessages.entries,
      entry.2.msgId < base := by
    intro entry hentry
    obtain ⟨old, hold, hsame⟩ := hkeeps.offline entry hentry
    rw [← hsame]
    exact hnode.rows old hold
  cases steps_of_step hstep with
  | receive conn envelope =>
      refine ⟨hrows, hnode.read, ?_, hnode.ran⟩
      intro loop functor hfunctor
      have hold : functor ∈ node.server.loops loop := by
        rwa [← loops_receive node.server conn envelope]
      exact hnode.waiting loop functor hold
  | start item rest hqueue =>
      refine ⟨hrows, ?_, hnode.waiting, hnode.ran⟩
      intro thread hthread uid outcome messages hlog
      rcases List.mem_append.mp hthread with hold | hnew
      · exact hnode.read thread hold uid outcome messages hlog
      · rw [List.mem_singleton.mp hnew] at hlog
        cases hlog
  | @exec index call answer thread world rest hthread hprog heffect =>
      refine ⟨hrows, ?_, hnode.waiting, hnode.ran⟩
      intro other hother uid outcome messages hlog hresult info hinfo
      rcases List.mem_or_eq_of_mem_set hother with hold | rfl
      · exact hnode.read other hold uid outcome messages hlog hresult info
          hinfo
      · rcases List.mem_append.mp hlog with hold | hnew
        · exact hnode.read thread (List.mem_of_getElem? hthread) uid outcome
            messages hold hresult info hinfo
        · cases List.mem_singleton.mp hnew
          obtain ⟨db, hdb, _⟩ := Option.map_eq_some_iff.mp heffect
          obtain ⟨_, _, hdone⟩ := executed_of_result hdb hresult
          obtain ⟨entry, hentry, hsame⟩ :=
            Database.mem_undelivered hdone hinfo
          rw [← hsame]
          exact hnode.rows entry hentry
  | @finish index thread callback hthread hprog =>
      have hmem := List.mem_of_getElem? hthread
      refine ⟨hrows, ?_, ?_, hnode.ran⟩
      · intro other hother
        exact hnode.read other (List.mem_of_mem_eraseIdx hother)
      · intro loop functor hfunctor
        rcases mem_loops_queueInLoop hfunctor with hold | ⟨hdone, _⟩
        · exact hnode.waiting loop functor hold
        · intro conn result token hentry info hinfo
          rw [hdone] at hprog
          obtain ⟨uid, outcome, rows, hlog, hresult, row, hrow, rfl⟩ :=
            undelivered_of_entry (hfaithful thread hmem) hprog hentry hinfo
          exact hnode.read thread hmem uid outcome rows hlog hresult row hrow
  | callback loop now functor rest hloop =>
      obtain ⟨_, hloops, _⟩ := afterCallback_frame node loop now functor rest
      refine ⟨hrows, hnode.read, ?_, ?_⟩
      · intro other each heach
        rw [hloops] at heach
        exact hnode.waiting other each (mem_loops_of_mem_rest hloop heach)
      · intro each heach
        rcases List.mem_cons.mp heach with rfl | hold
        · exact hnode.waiting loop functor (hloop ▸ List.mem_cons_self)
        · exact hnode.ran each hold
  | _ => exact ⟨hrows, hnode.read, hnode.waiting, hnode.ran⟩

/-! ## Whole runs -/

/-- A database whose offline messages refer to messages, as its foreign keys
demand. -/
structure MessageDatabase where
  db : Database := {}
  referenced : ∀ entry ∈ db.offlineMessages.entries,
    (db.messages.get? entry.2.msgId).isSome = true

theorem offlineOld_start (stored : MessageDatabase) (redis : RedisWorld) :
    OfflineOld stored.db.messages.next
      { world := { db := stored.db, redis := redis } } := by
  refine ⟨?_, ?_, ?_, ?_⟩
  · intro entry hentry
    by_contra hlate
    have hnone := AutoTable.get?_eq_none_of_next_le (Int.not_lt.mp hlate)
    have hfound := stored.referenced entry hentry
    rw [hnone] at hfound
    cases hfound
  · simp
  · simp [ChatServer.initial]
  · simp

structure PostsKept (base : Int) (config : ServerConfig) (node : ChatNode) :
    Prop where
  turns : InTurn Task.SharesAddressee node
  handed : HandedOver config node
  posts : PostsStored base config node
  ids : IdsFollow node
  offline : OfflineOld base node

theorem PostsKept.step {base : Int} (hnode : PostsKept base config node)
    (hstep : step config node action = some next)
    (hturn : PostsTakeTurns node action) : PostsKept base config next where
  turns := hnode.turns.step hstep (fun _ _ => Task.SharesAddressee.symm)
    (fun _ _ => Task.SharesAddressee.not_followUp) hturn
  handed := hnode.handed.step hstep
  posts := hnode.posts.step hstep
  ids := idsFollow_step hnode.ids hnode.posts hnode.turns hstep
  offline := hnode.offline.step hnode.posts.faithful hstep

theorem postsKept_start (stored : MessageDatabase) (redis : RedisWorld) :
    PostsKept stored.db.messages.next config
      { world := { db := stored.db, redis := redis } } where
  turns := inTurn_start _
  handed := handedOver_start config _
  posts := postsStored_start { db := stored.db, redis := redis }
  ids := followed_start _
  offline := offlineOld_start stored redis

theorem StoredAs.stores {post : ChatPost} {msgId : Int}
    (hstored : StoredAs node post msgId) :
    ∃ entry ∈ node.finished, entry.1 = ⟨post.request, post.task⟩ ∧
      Stores entry msgId := by
  obtain ⟨result, hmem, hsuccess, hid⟩ := hstored
  exact ⟨_, hmem, rfl, _, _, _, _, _, _, rfl, hsuccess, hid⟩

/-- The second callback is not that of an earlier message. -/
def SentInOrder (earlier later : Functor) : Prop :=
  ∀ first second firstResult secondResult,
    earlier = ⟨second.request, ChatPost.callback second secondResult⟩ →
    later = ⟨first.request, ChatPost.callback first firstResult⟩ →
    first.task.SharesAddressee second.task → second.request < first.request

theorem PostsKept.sent {base : Int} (hnode : PostsKept base config node) :
    node.ran.Pairwise fun later earlier =>
      SentInOrder earlier.functor later.functor := by
  have hran : node.ran.Pairwise fun later earlier =>
      config.loopOf later.functor.callback.conn =
          config.loopOf earlier.functor.callback.conn →
        SentInOrder earlier.functor later.functor := by
    refine hnode.handed.pairwise_ran
      (hnode.turns.ended.imp_of_mem ?_)
    intro later earlier hlater hearlier hahead last begun hlast hbegun _
      first second firstResult secondResult hsecond hfirst hshares
    obtain ⟨hearly, rfl⟩ := Functor.mk.inj hsecond
    obtain ⟨hlate, rfl⟩ := Functor.mk.inj hfirst
    rw [← hearly, ← hlate]
    refine hahead ?_
    rw [hnode.posts.posted earlier hearlier _ _ _ _ _ _ hbegun,
      hnode.posts.posted later hlater _ _ _ _ _ _ hlast]
    exact hshares.symm
  refine hran.imp ?_
  intro later earlier hordered first second firstResult secondResult
    hearlier hlater hshares
  refine hordered ?_ first second firstResult secondResult hearlier hlater
    hshares
  rw [hearlier, hlater]
  exact congrArg config.loopOf hshares.conn

theorem PostsKept.inOrder {base : Int} (hnode : PostsKept base config node) :
    PostsInOrder node := by
  intro first second firstId secondId hrequest hshares hfirst hsecond
  obtain ⟨earlier, hearlier, hitem, hstored⟩ := hfirst.stores
  obtain ⟨later, hlater, hother, hkept⟩ := hsecond.stores
  have hcompetes : earlier.1.task.SharesAddressee later.1.task := by
    rw [hitem, hother]
    exact hshares
  have hold {entry : PoolTask × Option Callback}
      (hentry : entry ∈ node.finished) {msgId : Int}
      (hstores : Stores entry msgId) {each : RanCallback}
      (heach : each ∈ node.ran) {conn : Conn} {result : LoginResult}
      {token : String}
      (hlogin : ChatServer.entry each.functor.callback =
        some (conn, result, token)) {info : MessageInfo}
      (hinfo : info ∈ result.offlineMessages) : info.msgId ≠ msgId := by
    have hlt := hnode.offline.ran each heach conn result token hlogin info
      hinfo
    obtain ⟨_, _, hbase, _⟩ := hnode.posts.stored entry hentry msgId hstores
    omega
  refine ⟨?_, fun target => ?_⟩
  · exact hnode.ids.behind_of_lt hnode.turns
      (fun _ _ => Task.SharesAddressee.symm) hearlier hlater hcompetes
      (by rw [hitem, hother]; exact hrequest) firstId secondId hstored hkept
  · refine hnode.sent.imp_of_mem ?_
    intro last begun hlast hbegun hordered
    rintro (⟨secondResult, hsecond, _⟩ |
      ⟨result, token, hlogin, info, hinfo, hid⟩)
    · rintro (⟨firstResult, hfirst, _⟩ |
        ⟨result, token, hlogin, info, hinfo, hid⟩)
      · have hback := hordered first second firstResult secondResult hsecond
          hfirst hshares
        omega
      · exact hold hearlier hstored hlast hlogin hinfo hid
    · exact (hold hlater hkept hbegun hlogin hinfo hid).elim

theorem PostsKept.seqsInOrder {base : Int}
    (hnode : PostsKept base config node) (hseqs : SeqsFollow node) :
    SeqsInOrder node := by
  intro first second firstId secondId hrequest hshares hfirst hsecond
  obtain ⟨earlier, hearlier, hitem, hstored⟩ := hfirst.stores
  obtain ⟨later, hlater, hother, hkept⟩ := hsecond.stores
  have hcompetes : earlier.1.task.SharesAddressee later.1.task := by
    rw [hitem, hother]
    exact hshares
  have hfollow := hseqs.behind_of_lt hnode.turns
    (fun _ _ => Task.SharesAddressee.symm) hearlier hlater hcompetes
    (by rw [hitem, hother]; exact hrequest) firstId secondId hstored hkept
  obtain ⟨_, _, _, _, before, hbefore, _⟩ :=
    hnode.posts.stored earlier hearlier firstId hstored
  obtain ⟨_, _, _, _, after, hafter, _⟩ :=
    hnode.posts.stored later hlater secondId hkept
  refine ⟨before, after, hbefore, hafter, ?_⟩
  intro hroom hsome
  obtain ⟨roomId, hroomId⟩ := Option.ne_none_iff_exists'.mp hsome
  exact hfollow roomId before.seq after.seq ⟨before, hbefore, hroomId, rfl⟩
    ⟨after, hafter, hroom ▸ hroomId, rfl⟩

/-- While messages take turns, they are stored and sent in the order in which
they came; where the next number of a room is always read, they are numbered
in that order as well. -/
theorem sender_order_of_turns (config : ServerConfig)
    (stored : MessageDatabase) (redis : RedisWorld) (actions : List Action)
    (hturns : Runs.EachStep (step config) PostsTakeTurns
      { world := { db := stored.db, redis := redis } } actions) :
    Runs.Always (step config) PostsInOrder
        { world := { db := stored.db, redis := redis } } actions ∧
      (Runs.EachStep (step config) NumbersAnswered
          { world := { db := stored.db, redis := redis } } actions →
        Runs.Always (step config) SeqsInOrder
          { world := { db := stored.db, redis := redis } } actions) := by
  have hkept : Runs.Always (step config)
      (PostsKept stored.db.messages.next config)
      { world := { db := stored.db, redis := redis } } actions :=
    Runs.always_of_eachStep (postsKept_start stored redis)
      (fun _ _ _ hstep hnode hturn => hnode.step hstep hturn) hturns
  refine ⟨fun before state hinit hrun =>
    (hkept before state hinit hrun).inOrder, ?_⟩
  intro hanswered
  have hsteps : Runs.EachStep (step config)
      (fun node action => PostsTakeTurns node action ∧
        NumbersAnswered node action)
      { world := { db := stored.db, redis := redis } } actions :=
    fun before action state next hinit hrun hstep =>
      ⟨hturns before action state next hinit hrun hstep,
        hanswered before action state next hinit hrun hstep⟩
  have hnumbers : Runs.Always (step config)
      (fun node => PostsKept stored.db.messages.next config node ∧
        SeqsRead node ∧ SeqsFollow node)
      { world := { db := stored.db, redis := redis } } actions := by
    refine Runs.always_of_eachStep
      ⟨postsKept_start stored redis, by simp [SeqsRead], followed_start _⟩
      ?_ hsteps
    rintro state action next hstep ⟨hnode, hread, hseqs⟩ ⟨hturn, hnumber⟩
    exact ⟨hnode.step hstep hturn, hread.step hstep hnumber,
      seqsFollow_step hseqs hread hnode.posts hnode.turns hstep⟩
  intro before state hinit hrun
  obtain ⟨hnode, _, hseqs⟩ := hnumbers before state hinit hrun
  exact hnode.seqsInOrder hseqs

/-! ## Two messages -/

def oneWorker : ServerConfig := { threads := 1, loopOf := fun _ => 0 }

def annAndTheRoom : MessageDatabase where
  db := { annRegistered with
    rooms := AutoTable.empty.insert { name := "r", creatorUid := "ann" } }
  referenced := by simp [annRegistered, AutoTable.empty]

/-- The calls that store a message of the user in the room. -/
def storeInRoom (content : String) (number : Option Int) (msgId : Int) :
    List Action :=
  [.receive 0 (.chatMsg { room := "r", content := content }), .start,
    .exec 0 (.sql .getConnection) true,
    .exec 0 (.sql (.query (.selectRoomId "r"))) ⟨true, some [1]⟩,
    .exec 0 (.sql (.query (.selectNextSeq 1))) ⟨true, number⟩,
    .exec 0 (.sql (.query (.insertMessage (number.getD 1) (some 1) "ann"
      none content))) ⟨true, some msgId⟩,
    .exec 0 (.sql .returnConnection) (), .finish 0, .callback 0 0]

def twoRoomMessages (number : Option Int) : List Action :=
  quietLogin oneWorker 0 "ann" "secret" "t" [] ++
    storeInRoom "a" (some 1) 1 ++ storeInRoom "b" number 2

def roomPost (request : Nat) (content : String) : ChatPost where
  request := request
  conn := 0
  sender := "ann"
  recipient := ""
  room := "r"
  content := content

theorem sender_order_twoRoomMessages : ∃ last,
    Runs.runFrom (step oneWorker) { world := { db := annAndTheRoom.db } }
        (twoRoomMessages (some 2)) = some last ∧
      StoredAs last (roomPost 1 "a") 1 ∧ StoredAs last (roomPost 2 "b") 2 ∧
      PostsInOrder last ∧ SeqsInOrder last := by
  have hrun : ∃ last,
      Runs.runFrom (step oneWorker) { world := { db := annAndTheRoom.db } }
          (twoRoomMessages (some 2)) = some last ∧
        StoredAs last (roomPost 1 "a") 1 ∧
        StoredAs last (roomPost 2 "b") 2 :=
    ⟨_, rfl, ⟨_, .tail _ (.head _), rfl, rfl⟩, ⟨_, .head _, rfl, rfl⟩⟩
  obtain ⟨last, hlast, hfirst, hsecond⟩ := hrun
  obtain ⟨hposts, hseqs⟩ := sender_order_of_turns oneWorker annAndTheRoom {}
    (twoRoomMessages (some 2)) (eachStep_takesTurns rfl _ _)
  refine ⟨last, hlast, hfirst, hsecond, hposts _ last (List.prefix_refl _)
    hlast, hseqs ?_ _ last (List.prefix_refl _) hlast⟩
  refine Runs.eachStep_of_forall fun action haction _ => ?_
  revert action
  simp only [twoRoomMessages, storeInRoom, quietLogin, loginCalls,
    collectCalls, queryOf, commandOf, List.cons_append, List.nil_append,
    List.forall_mem_cons, NumbersAnswered]
  simp

def privatePost (request : Nat) (content : String) : ChatPost where
  request := request
  conn := 0
  sender := "ann"
  recipient := "ann"
  room := ""
  content := content

def storePrivate (index : Nat) (content : String) (msgId : Int) :
    List Action :=
  queryOf index (.insertMessage 1 none "ann" (some "ann") content) msgId ++
    [.finish index, .callback 0 0]

/-- Two workers take one message each, and the second is faster. -/
def overtaking : List Action :=
  annLogin ++
    [.receive 0 (.chatMsg { recipient := "ann", content := "a" }),
      .receive 0 (.chatMsg { recipient := "ann", content := "b" }),
      .start, .start] ++
    storePrivate 1 "b" 1 ++ storePrivate 0 "a" 2

/-- Two workers store and send the messages of one sender in the wrong order,
and a message whose number is not read gets the number 1 again. -/
theorem sender_order_fails_overtaking :
    ¬ Runs.Always (step twoWorkers) PostsInOrder
        { world := { db := annAndTheRoom.db } } overtaking ∧
      ¬ Runs.Always (step oneWorker) SeqsInOrder
        { world := { db := annAndTheRoom.db } } (twoRoomMessages none) := by
  constructor
  · intro horder
    have hrun : ∃ last,
        Runs.runFrom (step twoWorkers)
            { world := { db := annAndTheRoom.db } } overtaking =
          some last ∧
        StoredAs last (privatePost 1 "a") 2 ∧
        StoredAs last (privatePost 2 "b") 1 :=
      ⟨_, rfl, ⟨_, .head _, rfl, rfl⟩, ⟨_, .tail _ (.head _), rfl, rfl⟩⟩
    obtain ⟨last, hlast, hfirst, hsecond⟩ := hrun
    obtain ⟨hlt, _⟩ := horder _ last (List.prefix_refl _) hlast
      (privatePost 1 "a") (privatePost 2 "b") 2 1 (by decide)
      ⟨rfl, .inl ⟨by decide, rfl⟩⟩ hfirst hsecond
    exact absurd hlt (by decide)
  · intro horder
    have hrun : ∃ last before after,
        Runs.runFrom (step oneWorker) { world := { db := annAndTheRoom.db } }
            (twoRoomMessages none) = some last ∧
        StoredAs last (roomPost 1 "a") 1 ∧
        StoredAs last (roomPost 2 "b") 2 ∧
        last.world.db.messages.get? 1 = some before ∧
        last.world.db.messages.get? 2 = some after ∧
        before.roomId = some 1 ∧ after.roomId = some 1 ∧
        before.seq = 1 ∧ after.seq = 1 :=
      ⟨_, _, _, rfl, ⟨_, .tail _ (.head _), rfl, rfl⟩,
        ⟨_, .head _, rfl, rfl⟩, rfl, rfl, rfl, rfl, rfl, rfl⟩
    obtain ⟨last, before, after, hlast, hfirst, hsecond, hbefore, hafter,
      hroom, hsame, hone, hagain⟩ := hrun
    obtain ⟨row, other, hrow, hother, hlt⟩ := horder _ last
      (List.prefix_refl _) hlast (roomPost 1 "a") (roomPost 2 "b") 1 2
      (by decide) ⟨rfl, .inr ⟨by decide, rfl⟩⟩ hfirst hsecond
    rw [hbefore] at hrow
    rw [hafter] at hother
    cases hrow
    cases hother
    have hless := hlt (hroom.trans hsame.symm) (by simp [hroom])
    omega

end ChatNode

end MuduoChat
