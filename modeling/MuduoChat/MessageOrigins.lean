import MuduoChat.MessageAddresses
import MuduoChat.NodeRequests
import MuduoChat.SenderOrder

/-!
# Where messages come from

A chat message becomes a task, the task calls `storeMessage`, and the row it
inserts gets the next identifier.  Tasks may be interrupted by others between
any two statements, and a statement may have its effect although its answer is
lost.  Still every new row is that of one accepted request, and of no other
row: no message is stored twice, none is stored that nobody sent, and none is
mixed up with another one.

A success names the row of its own request.  Conversely, an idle node has
reported each new row to its sender, unless the answer to an INSERT was lost:
the row is there then, and the sender is told that there is none.
-/

namespace MuduoChat

/-! ## Rows -/

/-- The columns a message is inserted with. -/
structure SameMessage (old row : MessageRow) : Prop where
  roomId : row.roomId = old.roomId
  fromUid : row.fromUid = old.fromUid
  toUid : row.toUid = old.toUid
  content : row.content = old.content

namespace Database

variable {db after : Database}

/-- No message is new, and none has changed but for a recall. -/
structure AddsNoMessage (db after : Database) : Prop where
  next : after.messages.next = db.messages.next
  none : ∀ msgId, db.messages.get? msgId = none →
    after.messages.get? msgId = none
  kept : ∀ msgId old, db.messages.get? msgId = some old →
    ∃ row, after.messages.get? msgId = some row ∧ SameMessage old row

theorem AddsNoMessage.of_eq (hmessages : after.messages = db.messages) :
    db.AddsNoMessage after where
  next := congrArg AutoTable.next hmessages
  none _ hnone := hmessages ▸ hnone
  kept _ old hold := ⟨old, hmessages ▸ hold, rfl, rfl, rfl, rfl⟩

theorem addsNoMessage_mark (msgId : Int) (uid : String) :
    db.AddsNoMessage (db.execStatement (.updateRecalled msgId uid)).1 where
  next := rfl
  none other hnone := by
    simp only [execStatement, AutoTable.get?_update, hnone, Option.map_none]
  kept other old hold := by
    simp only [execStatement, AutoTable.get?_update, hold, Option.map_some]
    refine ⟨_, rfl, ?_⟩
    split <;> exact ⟨rfl, rfl, rfl, rfl⟩

theorem addsNoMessage_execStatement {statement : Statement}
    (hother : isInsertMessage statement = false) :
    db.AddsNoMessage (db.execStatement statement).1 := by
  have hafter := messagesAfter_execStatement db statement
  generalize hmessages : (db.execStatement statement).1.messages = messages
    at hafter
  cases hafter with
  | insert | refuse => cases hother
  | mark msgId uid => exact addsNoMessage_mark msgId uid
  | keep => exact .of_eq hmessages

end Database

/-! ## The program of a message -/

def insertsMessage : NodeCall → Bool
  | .sql (.query statement) => isInsertMessage statement
  | _ => false

/-- An INSERT of a message was sent. -/
def HasInsert (log : List (Sigma NodeCall.Answer)) : Prop :=
  ∃ entry ∈ log, insertsMessage entry.1 = true

section Programs

open Prog

namespace Posting

section Logs

variable {log : List (Sigma NodeCall.Answer)} {msgId : Int}

theorem not_stored_nil : ¬ Stored [] msgId := by
  rintro ⟨_, _, _, _, _, _, hmem, _⟩
  cases hmem

theorem stored_append {rest : List (Sigma NodeCall.Answer)} :
    Stored (log ++ rest) msgId ↔ Stored log msgId ∨ Stored rest msgId := by
  constructor
  · rintro ⟨seq, roomId, fromUid, toUid, content, outcome, hmem, hresult⟩
    rcases List.mem_append.mp hmem with hfirst | hsecond
    · exact .inl ⟨seq, roomId, fromUid, toUid, content, outcome, hfirst,
        hresult⟩
    · exact .inr ⟨seq, roomId, fromUid, toUid, content, outcome, hsecond,
        hresult⟩
  · rintro (⟨seq, roomId, fromUid, toUid, content, outcome, hmem, hresult⟩ |
      ⟨seq, roomId, fromUid, toUid, content, outcome, hmem, hresult⟩)
    · exact ⟨seq, roomId, fromUid, toUid, content, outcome,
        List.mem_append_left _ hmem, hresult⟩
    · exact ⟨seq, roomId, fromUid, toUid, content, outcome,
        List.mem_append_right _ hmem, hresult⟩

theorem stored_cons {entry : Sigma NodeCall.Answer} :
    Stored (entry :: log) msgId ↔ Stored [entry] msgId ∨ Stored log msgId := by
  rw [← List.singleton_append]
  exact stored_append

theorem stored_insert {seq : Int} {roomId : Option Int}
    {fromUid content : String} {toUid : Option String}
    {outcome : QueryOutcome (.insertMessage seq roomId fromUid toUid content)} :
    Stored [⟨.sql (.query (.insertMessage seq roomId fromUid toUid content)),
      outcome⟩] msgId ↔ outcome.result = some msgId := by
  constructor
  · rintro ⟨_, _, _, _, _, _, hmem, hresult⟩
    cases List.mem_singleton.mp hmem
    exact hresult
  · intro hresult
    exact ⟨seq, roomId, fromUid, toUid, content, outcome,
      List.mem_singleton_self _, hresult⟩

theorem not_stored_of_not_insert {entry : Sigma NodeCall.Answer}
    (hentry : insertsMessage entry.1 = false) : ¬ Stored [entry] msgId := by
  rintro ⟨_, _, _, _, _, _, hmem, _⟩
  cases List.mem_singleton.mp hmem
  cases hentry

end Logs

/-- A call sends at most one INSERT. -/
theorem issues_once (posting : Posting) :
    posting.program.Issues fun log call =>
      insertsMessage call = true → ¬ HasInsert log := by
  simp only [program, answerRepository, overSql,
    MySQLMessageRepo.storeMessage, withConnection, request_bind,
    Prog.translate, answerSql, issues_call]
  refine ⟨by simp [HasInsert], fun conn => ?_⟩
  split
  · exact issues_ret
  · unfold MySQLMessageRepo.lookupRoom
    split
    · simp only [MySQLMessageRepo.nextSeq, request_bind, call_bind, pure_eq,
        ret_bind, Prog.translate, answerSql, issues_call, gt_iff_lt,
        lt_irrefl, if_false]
      refine ⟨by simp [HasInsert, insertsMessage], fun _ => ⟨?_, fun _ =>
        issues_ret⟩⟩
      simp [insertsMessage]
    · simp only [request_bind, call_bind, pure_eq, ret_bind, Prog.translate,
        answerSql, issues_call]
      refine ⟨by simp [HasInsert, insertsMessage], fun rows => ?_⟩
      unfold MySQLMessageRepo.nextSeq
      split
      · simp only [request_bind, call_bind, pure_eq, ret_bind, Prog.translate,
          answerSql, issues_call]
        refine ⟨by simp [insertsMessage, isInsertMessage], fun seq =>
          ⟨?_, fun _ => ⟨by simp [insertsMessage], fun _ => issues_ret⟩⟩⟩
        simp [HasInsert, insertsMessage, isInsertMessage]
      · simp only [request_bind, call_bind, pure_eq, ret_bind, Prog.translate,
          answerSql, issues_call]
        refine ⟨?_, fun _ => ⟨by simp [insertsMessage], fun _ =>
          issues_ret⟩⟩
        simp [HasInsert, insertsMessage, isInsertMessage]

/-- A call that has stored a message returns its identifier. -/
theorem ensures_stored (posting : Posting) :
    posting.program.Ensures fun log result =>
      ∀ msgId, Stored log msgId → result = msgId := by
  have hother {call : NodeCall} {answer : call.Answer}
      {log : List (Sigma NodeCall.Answer)} {msgId : Int}
      (hstored : Stored (⟨call, answer⟩ :: log) msgId)
      (hcall : insertsMessage call = false) : Stored log msgId :=
    (stored_cons.mp hstored).resolve_left (not_stored_of_not_insert hcall)
  have hinsert {seq : Int} {roomId : Option Int} {fromUid content : String}
      {toUid : Option String} {outcome : QueryOutcome
        (.insertMessage seq roomId fromUid toUid content)} {msgId : Int}
      (hstored : Stored [⟨.sql (.query (.insertMessage seq roomId fromUid
        toUid content)), outcome⟩, ⟨.sql .returnConnection, ()⟩] msgId) :
      outcome.result.getD 0 = msgId := by
    rcases stored_cons.mp hstored with hfirst | hsecond
    · rw [stored_insert.mp hfirst]
      rfl
    · exact absurd (hother hsecond rfl) not_stored_nil
  simp only [program, answerRepository, overSql,
    MySQLMessageRepo.storeMessage, withConnection, request_bind,
    Prog.translate, answerSql, ensures_call]
  intro conn
  split
  · exact ensures_ret.mpr fun msgId hstored =>
      absurd (hother hstored rfl) not_stored_nil
  · unfold MySQLMessageRepo.lookupRoom
    split
    · simp only [MySQLMessageRepo.nextSeq, request_bind, call_bind, pure_eq,
        ret_bind, Prog.translate, answerSql, ensures_call, ensures_ret,
        gt_iff_lt, lt_irrefl, if_false]
      intro outcome returned msgId hstored
      exact hinsert (hother hstored rfl)
    · simp only [request_bind, call_bind, pure_eq, ret_bind, Prog.translate,
        answerSql, ensures_call]
      intro rows
      unfold MySQLMessageRepo.nextSeq
      split
      · simp only [request_bind, call_bind, pure_eq, ret_bind, Prog.translate,
          answerSql, ensures_call, ensures_ret]
        intro seq outcome returned msgId hstored
        exact hinsert (hother (hother (hother hstored rfl) rfl) rfl)
      · simp only [request_bind, call_bind, pure_eq, ret_bind, Prog.translate,
          answerSql, ensures_call, ensures_ret]
        intro outcome returned msgId hstored
        exact hinsert (hother (hother hstored rfl) rfl)

end Posting

namespace ChatPost

def posting (post : ChatPost) : Posting where
  sender := post.sender
  recipient := post.recipient
  room := post.room
  content := post.content

/-- What the service makes of the identifier. -/
def outcomeOf (msgId : Int) : SendMessageResult :=
  if msgId ≤ 0 then { reason := "store message failed" }
  else { success := true, msgId := msgId }

theorem program_eq (post : ChatPost) (nodeId : String) :
    post.task.program nodeId =
      .call (.storeMessage post.sender post.recipient post.room
        post.content) fun msgId =>
          .ret (some (post.callback (outcomeOf msgId))) := by
  have hservice : ChatService.sendMessage post.sender post.recipient
      post.room post.content =
        .call (.storeMessage post.sender post.recipient post.room
          post.content) fun msgId => .ret (outcomeOf msgId) := by
    simp only [ChatService.sendMessage, repository, request_bind, pure_eq,
      outcomeOf]
    congr 1
    funext msgId
    split <;> rfl
  show ChatService.sendMessage post.sender post.recipient post.room
      post.content >>= _ = _
  rw [hservice]
  rfl

theorem program_task (post : ChatPost) (nodeId : String) :
    (post.task.program nodeId).translate answerRepository =
      post.posting.program >>= fun msgId =>
        .ret (some (post.callback (outcomeOf msgId))) := by
  rw [program_eq]
  rfl

theorem issues_task (post : ChatPost) (nodeId : String)
    {pre : List (Sigma NodeCall.Answer) → NodeCall → Prop}
    (hissues : post.posting.program.Issues pre) :
    ((post.task.program nodeId).translate answerRepository).Issues pre := by
  rw [program_task]
  have hdone : post.posting.program.Ensures fun _ _ => True :=
    fun _ _ _ => trivial
  exact hissues.bind hdone fun _ _ _ => issues_ret

theorem ensures_task (post : ChatPost) (nodeId : String) :
    ((post.task.program nodeId).translate answerRepository).Ensures
      fun log callback => ∀ msgId, Posting.Stored log msgId →
        callback = some (post.callback (outcomeOf msgId)) := by
  rw [program_task]
  refine (Posting.ensures_stored post.posting).bind
    fun log result hresult => ensures_ret.mpr ?_
  intro msgId hstored
  rw [List.append_nil] at hstored
  rw [hresult msgId hstored]

end ChatPost

end Programs

namespace ChatNode

variable {config : ServerConfig} {node next : ChatNode} {action : Action}

/-! ## Threads that store messages -/

section Threads

variable {thread : NodeThread}

theorem post_of_sends {item : PoolTask} {statement : Statement}
    (hsends : item.task.Sends statement)
    (hinsert : isInsertMessage statement = true) :
    ∃ post : ChatPost, item = ⟨post.request, post.task⟩ ∧
      ∃ seq roomId, statement = .insertMessage seq roomId post.sender
        (if post.recipient = "" then none else some post.recipient)
        post.content := by
  obtain ⟨request, task⟩ := item
  obtain ⟨call, hmakes, hsends⟩ := hsends
  cases hsends with
  | insertMessage sender recipient room content seq roomId =>
      cases hmakes with
      | storeMessage conn =>
          exact ⟨⟨request, conn, sender, recipient, room, content⟩, rfl, seq,
            roomId, rfl⟩
  | _ => cases hinsert

theorem post_of_hasInsert (hthread : (system config).Faithful thread)
    (hlog : HasInsert thread.log) :
    ∃ post : ChatPost, thread.op = ⟨post.request, post.task⟩ := by
  obtain ⟨⟨call, answer⟩, hentry, hinsert⟩ := hlog
  match call, answer, hentry, hinsert with
  | .sql (.query statement), outcome, hentry, hinsert =>
      obtain ⟨post, hop, _⟩ :=
        post_of_sends (sends_of_log hthread hentry) hinsert
      exact ⟨post, hop⟩

theorem isAsked_of_hasInsert (hthread : (system config).Faithful thread)
    (hlog : HasInsert thread.log) : isAsked thread.op = true := by
  obtain ⟨post, hop⟩ := post_of_hasInsert hthread hlog
  rw [hop]
  rfl

theorem reaches_of_post (hthread : (system config).Faithful thread)
    {post : ChatPost} (hop : thread.op = ⟨post.request, post.task⟩) :
    Prog.Reaches
      ((post.task.program config.nodeId).translate answerRepository)
      thread.log thread.prog := by
  have hpath : Prog.Reaches
      ((thread.op.task.program config.nodeId).translate answerRepository)
      thread.log thread.prog := hthread
  rw [hop] at hpath
  exact hpath

/-- What an INSERT that is about to be sent is made of. -/
theorem post_of_insert (hthread : (system config).Faithful thread)
    {seq : Int} {roomId : Option Int} {fromUid content : String}
    {toUid : Option String}
    {rest : QueryOutcome
      (.insertMessage seq roomId fromUid toUid content) →
        NodeProg (Option Callback)}
    (hprog : thread.prog = .call (.sql (.query
      (.insertMessage seq roomId fromUid toUid content))) rest) :
    ∃ post : ChatPost, thread.op = ⟨post.request, post.task⟩ ∧
      fromUid = post.sender ∧
      toUid = (if post.recipient = "" then none else some post.recipient) ∧
      content = post.content ∧
      Posting.FillsRoom post.posting thread.log roomId ∧
      ¬ HasInsert thread.log := by
  obtain ⟨post, hop, _, _, hstatement⟩ :=
    post_of_sends (sends_of_faithful hthread hprog) rfl
  have hreaches := reaches_of_post hthread hop
  rw [hprog] at hreaches
  have hfills := post.issues_task config.nodeId
    (Posting.issues_program post.posting) _ _ _ hreaches
  have honce := post.issues_task config.nodeId
    (Posting.issues_once post.posting) _ _ _ hreaches rfl
  cases hstatement
  exact ⟨post, hop, rfl, rfl, rfl, hfills.2.2, honce⟩

/-- A task that has stored a message reports it. -/
theorem stores_of_stored (hthread : (system config).Faithful thread)
    {callback : Option Callback} (hprog : thread.prog = .ret callback)
    {msgId : Int} (hpositive : 0 < msgId)
    (hstored : Posting.Stored thread.log msgId) :
    Stores (thread.op, callback) msgId := by
  have hlog : HasInsert thread.log := by
    obtain ⟨seq, roomId, fromUid, toUid, content, outcome, hmem, _⟩ :=
      hstored
    exact ⟨_, hmem, rfl⟩
  obtain ⟨post, hop⟩ := post_of_hasInsert hthread hlog
  have hreaches := reaches_of_post hthread hop
  rw [hprog] at hreaches
  have hcallback := post.ensures_task config.nodeId _ _ hreaches msgId hstored
  have hsuccess : ChatPost.outcomeOf msgId =
      { success := true, msgId := msgId } :=
    if_neg (Int.not_le.mpr hpositive)
  rw [hsuccess] at hcallback
  exact ⟨_, _, _, _, _, _, hcallback, rfl, rfl⟩

end Threads

/-! ## What a call does to the messages -/

inductive MessageEffect (db after : Database) :
    (call : NodeCall) → call.Answer → Prop
  | insert {seq : Int} {roomId : Option Int} {fromUid content : String}
      {toUid : Option String} {outcome : QueryOutcome
        (.insertMessage seq roomId fromUid toUid content)}
      (hexecuted : outcome.executed = true)
      (hsender : db.Registered fromUid)
      (hresult : outcome.result = none ∨
        outcome.result = some db.messages.next)
      (hmessages : after.messages = db.messages.insert
        { seq := seq
          roomId := roomId
          fromUid := fromUid
          toUid := toUid
          content := content
          createdAt := db.clock }) :
      MessageEffect db after (.sql (.query
        (.insertMessage seq roomId fromUid toUid content))) outcome
  | none {call : NodeCall} {answer : call.Answer}
      (hmessages : db.AddsNoMessage after)
      (hstored : ∀ msgId, ¬ Posting.Stored [⟨call, answer⟩] msgId) :
      MessageEffect db after call answer

theorem messageEffect_query {db after : Database} {statement : Statement}
    {outcome : QueryOutcome statement}
    (heffect : db.effect (.query statement) outcome = some after) :
    MessageEffect db after (.sql (.query statement)) outcome := by
  have hunanswered (hmessages : db.AddsNoMessage after)
      (hnone : outcome.result = .none) :
      MessageEffect db after (.sql (.query statement)) outcome := by
    refine .none hmessages fun msgId hstored => ?_
    obtain ⟨_, _, _, _, _, _, hmem, hsome⟩ := hstored
    cases List.mem_singleton.mp hmem
    rw [hnone] at hsome
    cases hsome
  rcases query_of_effect heffect with
    ⟨hexecuted, rfl, hresult⟩ | ⟨_, hnone, rfl⟩
  · cases hinsert : isInsertMessage statement with
    | false =>
        exact .none (Database.addsNoMessage_execStatement hinsert)
          fun _ => Posting.not_stored_of_not_insert hinsert
    | true =>
        cases statement with
        | insertMessage seq roomId fromUid toUid content =>
            by_cases hsender : db.Registered fromUid
            · simp only [Database.execStatement, if_pos hsender]
                at hresult ⊢
              exact .insert hexecuted hsender hresult rfl
            · simp only [Database.execStatement, if_neg hsender, or_self]
                at hresult hunanswered ⊢
              exact hunanswered (.of_eq rfl) hresult
        | _ => cases hinsert
  · exact hunanswered (.of_eq rfl) hnone

theorem messageEffect {world after : NodeWorld} {call : NodeCall}
    {answer : call.Answer}
    (heffect : world.effect call answer = some after) :
    MessageEffect world.db after.db call answer := by
  cases call with
  | sql call =>
      obtain ⟨db, hdb, rfl⟩ := Option.map_eq_some_iff.mp heffect
      cases call with
      | query statement => exact messageEffect_query hdb
      | _ =>
          cases hdb
          exact .none (.of_eq rfl) fun _ =>
            Posting.not_stored_of_not_insert rfl
  | session call =>
      obtain ⟨redis, _, rfl⟩ := Option.map_eq_some_iff.mp heffect
      exact .none (.of_eq rfl) fun _ => Posting.not_stored_of_not_insert rfl

theorem addsNoMessage_disturb {world after : NodeWorld} {event : NodeEvent}
    (hdisturb : world.disturb event = some after) :
    world.db.AddsNoMessage after.db := by
  cases event with
  | redis event =>
      obtain ⟨redis, _, rfl⟩ := Option.map_eq_some_iff.mp hdisturb
      exact .of_eq rfl
  | tick clock =>
      cases hdisturb
      exact .of_eq rfl

/-! ## Rooms that were looked up -/

/-- Every room a task has looked up exists. -/
def RoomsLooked (node : ChatNode) : Prop :=
  ∀ thread ∈ node.threads, ∀ name roomId,
    Posting.LooksUp thread.log name roomId →
      RoomAt node.world.db roomId name

theorem roomAt_of_lookup {world after : NodeWorld} {call : NodeCall}
    {answer : call.Answer}
    (heffect : world.effect call answer = some after)
    {name : String} {roomId : Int}
    (hlooks : Posting.LooksUp [⟨call, answer⟩] name roomId) :
    RoomAt world.db roomId name := by
  obtain ⟨outcome, hmem, hhead⟩ := hlooks
  cases List.mem_singleton.mp hmem
  cases hresult : outcome.result with
  | none =>
      rw [hresult] at hhead
      cases hhead
  | some roomIds =>
      rw [hresult] at hhead
      obtain ⟨db, hdb, rfl⟩ := Option.map_eq_some_iff.mp heffect
      obtain ⟨_, _, hfound⟩ := executed_of_result hdb hresult
      exact (Posting.roomAt_of_selectRoomId hfound hhead).2

theorem RoomsLooked.step (hnode : RoomsLooked node)
    (hfaithful : ∀ thread ∈ node.threads, (system config).Faithful thread)
    (hstep : step config node action = some next) : RoomsLooked next := by
  have hgrows := database_step hfaithful hstep
  have hkept : ∀ thread ∈ node.threads, ∀ name roomId,
      Posting.LooksUp thread.log name roomId →
        RoomAt next.world.db roomId name :=
    fun thread hthread name roomId hlooks =>
      (hnode thread hthread name roomId hlooks).grows hgrows
  cases steps_of_step hstep with
  | start item rest hqueue =>
      intro thread hthread name roomId hlooks
      rcases List.mem_append.mp hthread with hold | hnew
      · exact hkept thread hold name roomId hlooks
      · rw [List.mem_singleton.mp hnew] at hlooks
        obtain ⟨_, hmem, _⟩ := hlooks
        cases hmem
  | @exec index call answer thread world rest hthread hprog heffect =>
      intro other hother name roomId hlooks
      rcases List.mem_or_eq_of_mem_set hother with hold | rfl
      · exact hkept other hold name roomId hlooks
      · obtain ⟨outcome, hmem, hhead⟩ := hlooks
        rcases List.mem_append.mp hmem with hold | hnew
        · exact hkept thread (List.mem_of_getElem? hthread) name roomId
            ⟨outcome, hold, hhead⟩
        · exact (roomAt_of_lookup heffect ⟨outcome, hnew, hhead⟩).grows
            hgrows
  | finish hthread hprog =>
      intro other hother
      exact hkept other (List.mem_of_mem_eraseIdx hother)
  | _ => exact hkept

/-! ## Who has stored a message -/

/-- The task of the request is past its INSERT. -/
def Written (node : ChatNode) (request : Nat) : Prop :=
  (∃ thread ∈ node.threads, thread.op.request = request ∧
    HasInsert thread.log) ∨
  ∃ entry ∈ node.finished, entry.1.request = request ∧
    isAsked entry.1 = true

/-- The task of the request knows the identifier, or has reported it. -/
def Reports (node : ChatNode) (request : Nat) (msgId : Int) : Prop :=
  (∃ thread ∈ node.threads, thread.op.request = request ∧
    Posting.Stored thread.log msgId) ∨
  ∃ entry ∈ node.finished, entry.1.request = request ∧ Stores entry msgId

section Reported

variable {request : Nat} {msgId : Int} {index : Nat} {thread : NodeThread}
  {call : NodeCall} {answer : call.Answer} {world : NodeWorld}
  {rest : NodeProg (Option Callback)}

/-- The node after a call of a thread. -/
def called (node : ChatNode) (index : Nat) (world : NodeWorld)
    (thread : NodeThread) : ChatNode :=
  { node with world := world, threads := node.threads.set index thread }

theorem mem_called (hthread : node.threads[index]? = some thread)
    {other : NodeThread} (hother : other ∈ node.threads) :
    other ∈ (node.called index world
      (thread.advance call answer rest)).threads ∨ other = thread := by
  obtain ⟨place, hplace⟩ := List.mem_iff_getElem?.mp hother
  by_cases hsame : index = place
  · rw [← hsame, hthread] at hplace
    cases hplace
    exact .inr rfl
  · have hkept : (node.called index world
        (thread.advance call answer rest)).threads[place]? = some other :=
      (List.getElem?_set_ne hsame).trans hplace
    exact .inl (List.mem_of_getElem? hkept)

theorem mem_called_self (hthread : node.threads[index]? = some thread) :
    thread.advance call answer rest ∈ (node.called index world
      (thread.advance call answer rest)).threads :=
  List.mem_set (List.getElem?_eq_some_iff.mp hthread).1 _

theorem Written.called (hnode : Written node request)
    (hthread : node.threads[index]? = some thread) :
    Written (node.called index world (thread.advance call answer rest))
      request := by
  rcases hnode with ⟨other, hother, hrequest, hinsert⟩ | hfinished
  · rcases mem_called hthread hother with hkept | rfl
    · exact .inl ⟨other, hkept, hrequest, hinsert⟩
    · obtain ⟨entry, hentry, hinsert⟩ := hinsert
      exact .inl ⟨_, mem_called_self hthread, hrequest, entry,
        List.mem_append_left _ hentry, hinsert⟩
  · exact .inr hfinished

theorem Reports.called (hnode : Reports node request msgId)
    (hthread : node.threads[index]? = some thread) :
    Reports (node.called index world (thread.advance call answer rest))
      request msgId := by
  rcases hnode with ⟨other, hother, hrequest, hstored⟩ | hfinished
  · rcases mem_called hthread hother with hkept | rfl
    · exact .inl ⟨other, hkept, hrequest, hstored⟩
    · exact .inl ⟨_, mem_called_self hthread, hrequest,
        Posting.stored_append.mpr (.inl hstored)⟩
  · exact .inr hfinished

theorem reports_of_called (hthread : node.threads[index]? = some thread)
    (hnext : Reports (node.called index world
      (thread.advance call answer rest)) request msgId) :
    Reports node request msgId ∨ thread.op.request = request ∧
      Posting.Stored [⟨call, answer⟩] msgId := by
  rcases hnext with ⟨other, hother, hrequest, hstored⟩ | hfinished
  · rcases List.mem_or_eq_of_mem_set hother with hold | rfl
    · exact .inl (.inl ⟨other, hold, hrequest, hstored⟩)
    · rcases Posting.stored_append.mp hstored with hold | hnew
      · exact .inl (.inl ⟨thread, List.mem_of_getElem? hthread, hrequest,
          hold⟩)
      · exact .inr ⟨hrequest, hnew⟩
  · exact .inl (.inr hfinished)

theorem mem_eraseIdx_or_eq {threads : List NodeThread}
    (hthread : threads[index]? = some thread) {other : NodeThread}
    (hother : other ∈ threads) :
    other ∈ threads.eraseIdx index ∨ other = thread := by
  obtain ⟨before, after, rfl, _, herase⟩ := exists_around_getElem? hthread
  rw [herase]
  rcases List.mem_append.mp hother with hbefore | hafter
  · exact .inl (List.mem_append_left _ hbefore)
  · rcases List.mem_cons.mp hafter with rfl | hlater
    · exact .inr rfl
    · exact .inl (List.mem_append_right _ hlater)

theorem Written.step (hnode : Written node request)
    (hfaithful : ∀ thread ∈ node.threads, (system config).Faithful thread)
    (hstep : step config node action = some next) :
    Written next request := by
  cases steps_of_step hstep with
  | start item rest hqueue =>
      rcases hnode with ⟨thread, hthread, hwritten⟩ | hfinished
      · exact .inl ⟨thread, List.mem_append_left _ hthread, hwritten⟩
      · exact .inr hfinished
  | exec hthread hprog heffect => exact hnode.called hthread
  | @finish index thread callback hthread hprog =>
      rcases hnode with ⟨other, hother, hrequest, hinsert⟩ |
        ⟨entry, hentry, hwritten⟩
      · rcases mem_eraseIdx_or_eq hthread hother with hkept | rfl
        · exact .inl ⟨other, hkept, hrequest, hinsert⟩
        · exact .inr ⟨_, List.mem_cons_self, hrequest,
            isAsked_of_hasInsert (hfaithful other hother) hinsert⟩
      · exact .inr ⟨entry, List.mem_cons_of_mem _ hentry, hwritten⟩
  | _ => exact hnode

theorem Reports.step (hnode : Reports node request msgId)
    (hfaithful : ∀ thread ∈ node.threads, (system config).Faithful thread)
    (hpositive : 0 < msgId) (hstep : step config node action = some next) :
    Reports next request msgId := by
  cases steps_of_step hstep with
  | start item rest hqueue =>
      rcases hnode with ⟨thread, hthread, hstored⟩ | hfinished
      · exact .inl ⟨thread, List.mem_append_left _ hthread, hstored⟩
      · exact .inr hfinished
  | exec hthread hprog heffect => exact hnode.called hthread
  | @finish index thread callback hthread hprog =>
      rcases hnode with ⟨other, hother, hrequest, hstored⟩ |
        ⟨entry, hentry, hstores⟩
      · rcases mem_eraseIdx_or_eq hthread hother with hkept | rfl
        · exact .inl ⟨other, hkept, hrequest, hstored⟩
        · exact .inr ⟨_, List.mem_cons_self, hrequest,
            stores_of_stored (hfaithful other hother) hprog hpositive
              hstored⟩
      · exact .inr ⟨entry, List.mem_cons_of_mem _ hentry, hstores⟩
  | _ => exact hnode

/-- Only an INSERT tells a task an identifier. -/
theorem reports_of_step
    (hfaithful : ∀ thread ∈ node.threads, (system config).Faithful thread)
    (hstep : step config node action = some next)
    (hnext : Reports next request msgId) :
    Reports node request msgId ∨
      ∃ index call, ∃ answer : call.Answer, ∃ thread,
        action = .exec index call answer ∧
          node.threads[index]? = some thread ∧
          thread.op.request = request ∧
          Posting.Stored [⟨call, answer⟩] msgId := by
  cases steps_of_step hstep with
  | start item rest hqueue =>
      rcases hnext with ⟨thread, hthread, hrequest, hstored⟩ | hfinished
      · rcases List.mem_append.mp hthread with hold | hnew
        · exact .inl (.inl ⟨thread, hold, hrequest, hstored⟩)
        · rw [List.mem_singleton.mp hnew] at hstored
          exact absurd hstored Posting.not_stored_nil
      · exact .inl (.inr hfinished)
  | @exec index call answer thread world rest hthread hprog heffect =>
      refine (reports_of_called hthread hnext).imp_right ?_
      rintro ⟨hrequest, hstored⟩
      exact ⟨index, call, answer, thread, rfl, hthread, hrequest, hstored⟩
  | @finish index thread callback hthread hprog =>
      refine .inl ?_
      have hmem := List.mem_of_getElem? hthread
      rcases hnext with ⟨other, hother, hreported⟩ |
        ⟨entry, hentry, hrequest, hstores⟩
      · exact .inl ⟨other, List.mem_of_mem_eraseIdx hother, hreported⟩
      · rcases List.mem_cons.mp hentry with rfl | hold
        · obtain ⟨roomId, seq, ⟨sender, toUid, content, outcome, hlog,
            hresult⟩, _⟩ :=
            inserted_of_stores (hfaithful thread hmem) hprog hstores
          exact .inl ⟨thread, hmem, hrequest, seq, roomId, sender, toUid,
            content, outcome, hlog, hresult⟩
        · exact .inr ⟨entry, hold, hrequest, hstores⟩
  | _ => exact .inl hnext

end Reported

/-! ## Accepted requests in work -/

theorem accepted_subset_step
    (hstep : step config node action = some next) :
    accepted node.server.history ⊆ accepted next.server.history := by
  have hsame {after : List PoolTask}
      (hafter : after = accepted node.server.history) :
      accepted node.server.history ⊆ after :=
    hafter ▸ List.Subset.refl _
  cases steps_of_step hstep with
  | receive conn envelope =>
      rw [ChatServer.accepted_receive]
      exact List.subset_append_right _ _
  | finish hthread hprog =>
      rename_i callback
      cases callback <;> exact hsame rfl
  | callback loop now functor rest hloop =>
      refine hsame ((responds_afterCallback node loop now functor
        rest).accepted_eq.trans ?_)
      cases ChatServer.entry functor.callback <;> rfl
  | _ => exact hsame rfl

section Accepted

variable {thread : NodeThread}

theorem requests_nodup (hnode : Handled config node)
    (hordered : AcceptedOrdered node.server) :
    (((takenUp node).filter isAsked).map PoolTask.request).Nodup :=
  (hnode.taken.map PoolTask.request).nodup_iff.mpr hordered.nodup

/-- A request that is worked on is past no other INSERT than its own. -/
theorem hasInsert_of_written (hnode : Handled config node)
    (hordered : AcceptedOrdered node.server)
    (hthread : thread ∈ node.threads) (hasked : isAsked thread.op = true)
    (hwritten : Written node thread.op.request) : HasInsert thread.log := by
  have hnodup := requests_nodup hnode hordered
  rw [takenUp, List.filter_append, List.filter_append, List.map_append,
    List.map_append, List.append_assoc] at hnodup
  have hworked := (List.nodup_append.mp hnodup).2.1
  obtain ⟨hthreads, _, hapart⟩ := List.nodup_append.mp hworked
  have hmine {other : NodeThread} (hother : other ∈ node.threads)
      (hasks : isAsked other.op = true) :
      other.op.request ∈ (((node.threads.map Thread.op).filter
        isAsked).map PoolTask.request) :=
    List.mem_map_of_mem
      (List.mem_filter.mpr ⟨List.mem_map_of_mem hother, hasks⟩)
  rcases hwritten with ⟨other, hother, hrequest, hinsert⟩ |
    ⟨entry, hentry, hrequest, hasks⟩
  · have hasks := isAsked_of_hasInsert (hnode.faithful other hother) hinsert
    rw [List.filter_map, List.map_map] at hthreads
    have hsame : other = thread :=
      List.inj_on_of_nodup_map hthreads
        (List.mem_filter.mpr ⟨hother, hasks⟩)
        (List.mem_filter.mpr ⟨hthread, hasked⟩) hrequest
    exact hsame ▸ hinsert
  · refine absurd hrequest.symm (hapart _ (hmine hthread hasked) _ ?_)
    exact List.mem_map_of_mem
      (List.mem_filter.mpr ⟨List.mem_map_of_mem hentry, hasks⟩)

end Accepted

/-! ## The invariant -/

/-- The row has what the sender wrote, in a room of that name if in any. -/
structure Holds (db : Database) (row : MessageRow) (post : ChatPost) :
    Prop where
  fromUid : row.fromUid = post.sender
  toUid : row.toUid =
    if post.recipient = "" then none else some post.recipient
  content : row.content = post.content
  room : ∀ roomId, row.roomId = some roomId →
    post.room ≠ "" ∧ RoomAt db roomId post.room

theorem Holds.later {db after : Database} {old row : MessageRow}
    {post : ChatPost} (hholds : Holds db old post)
    (hsame : SameMessage old row) (hgrows : db.Grows after) :
    Holds after row post where
  fromUid := hsame.fromUid.trans hholds.fromUid
  toUid := hsame.toUid.trans hholds.toUid
  content := hsame.content.trans hholds.content
  room roomId hroomId :=
    (hholds.room roomId (hsame.roomId ▸ hroomId)).imp_right
      fun hroom => hroom.grows hgrows

/-- An identifier given out since the node has started. -/
def IsNew (start : Database) (node : ChatNode) (msgId : Int) : Prop :=
  start.messages.next ≤ msgId ∧ msgId < node.world.db.messages.next

/-- `origin` tells the request of each new message. -/
structure Credited (start : Database) (node : ChatNode)
    (origin : Int → Nat) : Prop where
  later : start.messages.next ≤ node.world.db.messages.next
  older : ∀ msgId < start.messages.next,
    start.messages.get? msgId = none →
      node.world.db.messages.get? msgId = none
  rows : ∀ msgId, IsNew start node msgId →
    ∃ row, node.world.db.messages.get? msgId = some row ∧
      ∃ post : ChatPost, post.request = origin msgId ∧
        ⟨post.request, post.task⟩ ∈ accepted node.server.history ∧
        Holds node.world.db row post
  single : ∀ first second, IsNew start node first →
    IsNew start node second → origin first = origin second → first = second
  written : ∀ msgId, IsNew start node msgId → Written node (origin msgId)
  reported : ∀ request msgId, Reports node request msgId →
    IsNew start node msgId ∧ origin msgId = request

section Invariant

variable {start : Database} {origin : Int → Nat}

theorem credited_start (world : NodeWorld) :
    Credited world.db { world := world } fun _ => 0 where
  later := le_rfl
  older _ _ hnone := hnone
  rows msgId hnew := absurd hnew.1 (Int.not_le.mpr hnew.2)
  single first second hnew := absurd hnew.1 (Int.not_le.mpr hnew.2)
  written msgId hnew := absurd hnew.1 (Int.not_le.mpr hnew.2)
  reported request msgId hreports := by
    rcases hreports with ⟨thread, hthread, _⟩ | ⟨entry, hentry, _⟩
    · cases hthread
    · cases hentry

/-- Steps that store nothing. -/
theorem Credited.of_addsNoMessage (hnode : Credited start node origin)
    (hmessages : node.world.db.AddsNoMessage next.world.db)
    (hgrows : node.world.db.Grows next.world.db)
    (haccepted : accepted node.server.history ⊆
      accepted next.server.history)
    (hwritten : ∀ request, Written node request → Written next request)
    (hreports : ∀ request msgId, Reports next request msgId →
      Reports node request msgId) : Credited start next origin := by
  have hnew (msgId : Int) :
      IsNew start next msgId ↔ IsNew start node msgId := by
    unfold IsNew
    rw [hmessages.next]
  refine ⟨hmessages.next ▸ hnode.later, ?_, ?_, ?_, ?_, ?_⟩
  · intro msgId hlt hnone
    exact hmessages.none msgId (hnode.older msgId hlt hnone)
  · intro msgId hmsgId
    obtain ⟨old, hold, post, hrequest, hpost, hholds⟩ :=
      hnode.rows msgId ((hnew msgId).mp hmsgId)
    obtain ⟨row, hrow, hsame⟩ := hmessages.kept msgId old hold
    exact ⟨row, hrow, post, hrequest, haccepted hpost,
      hholds.later hsame hgrows⟩
  · intro first second hfirst hsecond
    exact hnode.single first second ((hnew first).mp hfirst)
      ((hnew second).mp hsecond)
  · intro msgId hmsgId
    exact hwritten _ (hnode.written msgId ((hnew msgId).mp hmsgId))
  · intro request msgId hreport
    obtain ⟨hold, horigin⟩ :=
      hnode.reported request msgId (hreports request msgId hreport)
    exact ⟨(hnew msgId).mpr hold, horigin⟩

/-- An INSERT: the row is that of a task that had sent none before. -/
theorem Credited.insert (hnode : Credited start node origin)
    {row : MessageRow} {post : ChatPost}
    (hmessages : next.world.db.messages =
      node.world.db.messages.insert row)
    (hgrows : node.world.db.Grows next.world.db)
    (haccepted : accepted node.server.history ⊆
      accepted next.server.history)
    (hpost : ⟨post.request, post.task⟩ ∈ accepted node.server.history)
    (hholds : Holds next.world.db row post)
    (hfirst : ¬ Written node post.request)
    (hpast : Written next post.request)
    (hwritten : ∀ request, Written node request → Written next request)
    (hreports : ∀ request msgId, Reports next request msgId →
      Reports node request msgId ∨
        post.request = request ∧ msgId = node.world.db.messages.next) :
    Credited start next
      (Function.update origin node.world.db.messages.next
        post.request) := by
  have hnext : next.world.db.messages.next =
      node.world.db.messages.next + 1 := congrArg AutoTable.next hmessages
  have hbase := hnode.later
  have hfresh : Function.update origin node.world.db.messages.next
      post.request node.world.db.messages.next = post.request :=
    Function.update_self ..
  have hold {msgId : Int} (hmsgId : IsNew start node msgId) :
      Function.update origin node.world.db.messages.next post.request
        msgId = origin msgId :=
    Function.update_of_ne (Int.ne_of_lt hmsgId.2) ..
  have hnew {msgId : Int} (hmsgId : IsNew start next msgId) :
      IsNew start node msgId ∨ msgId = node.world.db.messages.next := by
    obtain ⟨hge, hlt⟩ := hmsgId
    rw [hnext] at hlt
    rcases Int.lt_or_eq_of_le (Int.lt_add_one_iff.mp hlt) with hlt | hlast
    · exact .inl ⟨hge, hlt⟩
    · exact .inr hlast
  have hapart {msgId : Int} (hmsgId : IsNew start node msgId) :
      origin msgId ≠ post.request := by
    intro hsame
    exact hfirst (hsame ▸ hnode.written msgId hmsgId)
  refine ⟨by omega, ?_, ?_, ?_, ?_, ?_⟩
  · intro msgId hlt hnone
    rw [hmessages, AutoTable.get?_insert, if_neg (by omega)]
    exact hnode.older msgId hlt hnone
  · intro msgId hmsgId
    rw [hmessages, AutoTable.get?_insert]
    rcases hnew hmsgId with hmsgId | rfl
    · obtain ⟨found, hfound, other, hrequest, hother, hkept⟩ :=
        hnode.rows msgId hmsgId
      rw [if_neg (Int.ne_of_lt hmsgId.2), hold hmsgId]
      exact ⟨found, hfound, other, hrequest, haccepted hother,
        hkept.later ⟨rfl, rfl, rfl, rfl⟩ hgrows⟩
    · rw [if_pos rfl, hfresh]
      exact ⟨row, rfl, post, rfl, haccepted hpost, hholds⟩
  · intro first second hone hother hsame
    rcases hnew hone with hone | rfl
    · rcases hnew hother with hother | rfl
      · rw [hold hone, hold hother] at hsame
        exact hnode.single first second hone hother hsame
      · rw [hold hone, hfresh] at hsame
        exact absurd hsame (hapart hone)
    · rcases hnew hother with hother | rfl
      · rw [hfresh, hold hother] at hsame
        exact absurd hsame.symm (hapart hother)
      · rfl
  · intro msgId hmsgId
    rcases hnew hmsgId with hmsgId | rfl
    · rw [hold hmsgId]
      exact hwritten _ (hnode.written msgId hmsgId)
    · rw [hfresh]
      exact hpast
  · intro request msgId hreport
    rcases hreports request msgId hreport with hkept | ⟨rfl, rfl⟩
    · obtain ⟨hmsgId, horigin⟩ := hnode.reported request msgId hkept
      refine ⟨⟨hmsgId.1, ?_⟩, (hold hmsgId).trans horigin⟩
      rw [hnext]
      exact Int.lt_add_one_iff.mpr (Int.le_of_lt hmsgId.2)
    · exact ⟨⟨hbase, by omega⟩, hfresh⟩

/-- The row an INSERT adds holds what the task was asked to send. -/
theorem holds_insert {thread : NodeThread} {post : ChatPost}
    {db after : Database} {row : MessageRow}
    (hlooked : ∀ name roomId, Posting.LooksUp thread.log name roomId →
      RoomAt db roomId name)
    (hfills : Posting.FillsRoom post.posting thread.log row.roomId)
    (hfrom : row.fromUid = post.sender)
    (hto : row.toUid =
      if post.recipient = "" then none else some post.recipient)
    (hcontent : row.content = post.content) (hgrows : db.Grows after) :
    Holds after row post where
  fromUid := hfrom
  toUid := hto
  content := hcontent
  room roomId hroomId := by
    rw [hroomId] at hfills
    cases hfills with
    | found hroom hfound =>
        exact ⟨hroom, (hlooked _ _ hfound).grows hgrows⟩

theorem Credited.step (hnode : Credited start node origin)
    (hhandled : Handled config node)
    (hordered : AcceptedOrdered node.server) (hlooked : RoomsLooked node)
    (hstep : step config node action = some next) :
    ∃ after, Credited start next after := by
  have hfaithful := hhandled.faithful
  have hgrows := database_step hfaithful hstep
  have haccepted := accepted_subset_step hstep
  have hwritten (request : Nat) (hpast : Written node request) :
      Written next request := hpast.step hfaithful hstep
  have hreports (request : Nat) (msgId : Int)
      (hreport : Reports next request msgId) :=
    reports_of_step hfaithful hstep hreport
  have hnothing (hmessages : node.world.db.AddsNoMessage next.world.db)
      (hnone : ∀ index call (answer : call.Answer),
        action = .exec index call answer →
          ∀ msgId, ¬ Posting.Stored [⟨call, answer⟩] msgId) :
      Credited start next origin := by
    refine hnode.of_addsNoMessage hmessages hgrows haccepted hwritten ?_
    intro request msgId hreport
    refine (hreports request msgId hreport).resolve_right ?_
    rintro ⟨index, call, answer, thread, haction, _, _, hstored⟩
    exact hnone index call answer haction msgId hstored
  cases steps_of_step hstep with
  | @exec index call answer thread world rest hthread hprog heffect =>
      have hmem := List.mem_of_getElem? hthread
      have heffects : MessageEffect node.world.db world.db call answer :=
        messageEffect heffect
      cases heffects with
      | none hmessages hstored =>
          refine ⟨origin, hnothing hmessages ?_⟩
          rintro _ _ _ ⟨⟩
          exact hstored
      | insert hexecuted hsender hresult hmessages =>
          obtain ⟨post, hop, hfrom, hto, hcontent, hfills, honce⟩ :=
            post_of_insert (hfaithful thread hmem) hprog
          have hasked : isAsked thread.op = true := by
            rw [hop]
            rfl
          have hpost : ⟨post.request, post.task⟩ ∈
              accepted node.server.history := by
            rw [← hop]
            refine hhandled.taken.subset (List.mem_filter.mpr ⟨?_, hasked⟩)
            exact List.mem_append_left _
              (List.mem_append_right _ (List.mem_map_of_mem hmem))
          have hrequest : thread.op.request = post.request := by rw [hop]
          have hfirst : ¬ Written node post.request := by
            rw [← hrequest]
            exact fun hpast => honce
              (hasInsert_of_written hhandled hordered hmem hasked hpast)
          refine ⟨_, hnode.insert hmessages hgrows haccepted hpost
            (holds_insert (hlooked thread hmem) hfills hfrom hto hcontent
              hgrows) hfirst ?_ hwritten ?_⟩
          · exact .inl ⟨_, mem_called_self hthread, hrequest, _,
              List.mem_append_right _ (List.mem_singleton_self _), rfl⟩
          · intro request msgId hreport
            refine (hreports request msgId hreport).imp_right ?_
            rintro ⟨_, _, _, other, ⟨⟩, hother, hnumber, hstored⟩
            rw [hthread] at hother
            cases hother
            refine ⟨hrequest.symm.trans hnumber, ?_⟩
            rw [Posting.stored_insert] at hstored
            rcases hresult with hlost | hfound
            · rw [hlost] at hstored
              cases hstored
            · rw [hfound] at hstored
              cases hstored
              rfl
  | disturb hdisturb =>
      exact ⟨origin, hnothing (addsNoMessage_disturb hdisturb) (by simp)⟩
  | _ => exact ⟨origin, hnothing (.of_eq rfl) (by simp)⟩

end Invariant

/-! ## Answers that arrive -/

/-- The answer to an INSERT that has added a row is not lost. -/
def InsertsAnswered (node : ChatNode) : Action → Prop
  | .exec _ (.sql (.query (.insertMessage _ _ fromUid _ _))) outcome =>
      outcome.executed = true → node.world.db.Registered fromUid →
        outcome.result ≠ none
  | _ => True

/-- The task of each new message knows its identifier. -/
def MessagesKnown (start : Database) (node : ChatNode) : Prop :=
  ∀ msgId, IsNew start node msgId → ∃ request, Reports node request msgId

theorem MessagesKnown.step {start : Database} (hnode : MessagesKnown start node)
    (hfaithful : ∀ thread ∈ node.threads, (system config).Faithful thread)
    (hanswered : InsertsAnswered node action)
    (hstep : step config node action = some next) :
    MessagesKnown start next := by
  have hkept {msgId : Int} (hmsgId : IsNew start node msgId) :
      ∃ request, Reports next request msgId := by
    obtain ⟨request, hreport⟩ := hnode msgId hmsgId
    have hpositive := lt_of_lt_of_le start.messages.positive hmsgId.1
    exact ⟨request, hreport.step hfaithful hpositive hstep⟩
  have hnothing (hmessages : node.world.db.AddsNoMessage next.world.db) :
      MessagesKnown start next := by
    intro msgId hmsgId
    refine hkept ⟨hmsgId.1, ?_⟩
    rw [← hmessages.next]
    exact hmsgId.2
  cases steps_of_step hstep with
  | @exec index call answer thread world rest hthread hprog heffect =>
      have heffects : MessageEffect node.world.db world.db call answer :=
        messageEffect heffect
      cases heffects with
      | none hmessages hstored => exact hnothing hmessages
      | insert hexecuted hsender hresult hmessages =>
          have hfound := hresult.resolve_left (hanswered hexecuted hsender)
          intro msgId hmsgId
          have hlt : msgId < node.world.db.messages.next + 1 := by
            have hnext := congrArg AutoTable.next hmessages
            exact lt_of_lt_of_eq hmsgId.2 hnext
          rcases Int.lt_or_eq_of_le (Int.lt_add_one_iff.mp hlt) with
            hold | rfl
          · exact hkept ⟨hmsgId.1, hold⟩
          · refine ⟨thread.op.request, .inl ⟨_, mem_called_self hthread,
              rfl, ?_⟩⟩
            exact Posting.stored_append.mpr
              (.inr (Posting.stored_insert.mpr hfound))
  | disturb hdisturb => exact hnothing (addsNoMessage_disturb hdisturb)
  | _ => exact hnothing (.of_eq rfl)

/-! ## Every message once -/

/-- A message that is there and was not when the node started. -/
def StoredSince (start : Database) (node : ChatNode) (msgId : Int)
    (row : MessageRow) : Prop :=
  start.messages.get? msgId = none ∧
    node.world.db.messages.get? msgId = some row

/-- Every new message is that of one accepted request, and of no other
message; and a success names the message of its own request. -/
structure StoredOnce (start : Database) (node : ChatNode)
    (origin : Int → Nat) : Prop where
  rows : ∀ msgId row, StoredSince start node msgId row →
    ∃ post : ChatPost, post.request = origin msgId ∧
      ⟨post.request, post.task⟩ ∈ accepted node.server.history ∧
      Holds node.world.db row post
  single : ∀ first second row other, StoredSince start node first row →
    StoredSince start node second other → origin first = origin second →
      first = second
  reported : ∀ post msgId, StoredAs node post msgId →
    origin msgId = post.request ∧ ∃ row, StoredSince start node msgId row

section Runs

variable {start : Database} {origin : Int → Nat}

theorem Credited.isNew (hnode : Credited start node origin) {msgId : Int}
    {row : MessageRow} (hstored : StoredSince start node msgId row) :
    IsNew start node msgId := by
  obtain ⟨hnone, hrow⟩ := hstored
  refine ⟨?_, (node.world.db.messages.fresh _
    (AutoTable.mem_of_get? hrow)).2⟩
  by_contra holder
  rw [hnode.older msgId (Int.not_le.mp holder) hnone] at hrow
  cases hrow

theorem StoredAs.reports {post : ChatPost} {msgId : Int}
    (hstored : StoredAs node post msgId) :
    Reports node post.request msgId := by
  obtain ⟨entry, hentry, hitem, hstores⟩ := hstored.stores
  exact .inr ⟨entry, hentry, by rw [hitem], hstores⟩

theorem Credited.storedOnce (hnode : Credited start node origin) :
    StoredOnce start node origin where
  rows msgId row hstored := by
    obtain ⟨found, hfound, hpost⟩ :=
      hnode.rows msgId (hnode.isNew hstored)
    rw [hstored.2] at hfound
    cases hfound
    exact hpost
  single first second _ _ hfirst hsecond :=
    hnode.single first second (hnode.isNew hfirst) (hnode.isNew hsecond)
  reported post msgId hstored := by
    obtain ⟨hnew, horigin⟩ :=
      hnode.reported post.request msgId hstored.reports
    obtain ⟨row, hrow, _⟩ := hnode.rows msgId hnew
    exact ⟨horigin, row, AutoTable.get?_eq_none_of_next_le hnew.1, hrow⟩

/-- An idle node has reported what its tasks knew. -/
theorem storedAs_of_reports (hnode : Handled config node)
    (hthreads : node.threads = []) {request : Nat} {msgId : Int}
    (hreports : Reports node request msgId) :
    ∃ post, StoredAs node post msgId := by
  rcases hreports with ⟨thread, hthread, _⟩ |
    ⟨⟨item, callback⟩, hentry, _, hstores⟩
  · rw [hthreads] at hthread
    cases hthread
  · obtain ⟨conn, sender, recipient, room, content, result, hdone, hsuccess,
      hid⟩ := hstores
    have hcompletes := (hnode.concluded _ hentry).2 _ hdone
    obtain ⟨request, task⟩ := item
    cases hdone
    cases hcompletes
    exact ⟨⟨request, conn, sender, recipient, room, content⟩, result,
      hentry, hsuccess, hid⟩

structure Tracked (config : ServerConfig) (start : Database)
    (node : ChatNode) : Prop where
  handled : Handled config node
  ordered : AcceptedOrdered node.server
  looked : RoomsLooked node
  credited : ∃ origin, Credited start node origin

theorem tracked_start (config : ServerConfig) (world : NodeWorld) :
    Tracked config world.db { world := world } where
  handled := handled_start world
  ordered := ⟨.nil, by simp [ChatServer.initial, accepted]⟩
  looked := by
    intro thread hthread
    cases hthread
  credited := ⟨_, credited_start world⟩

theorem Tracked.step (hnode : Tracked config start node)
    (hstep : step config node action = some next) :
    Tracked config start next where
  handled := hnode.handled.step hstep
  ordered := hnode.ordered.step hstep
  looked := hnode.looked.step hnode.handled.faithful hstep
  credited := by
    obtain ⟨origin, hcredited⟩ := hnode.credited
    exact hcredited.step hnode.handled hnode.ordered hnode.looked hstep

end Runs

end ChatNode

end MuduoChat
