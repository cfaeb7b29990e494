import MuduoChat.KeptRows

/-!
# Registrations

`registerUser` asks whether the uid is taken and inserts the user afterwards,
so that two threads may both find it free.  The key of the table decides: of
all registrations of a uid at most one is reported as a success, and the
account has the password and the profile of this one for good.
-/

namespace MuduoChat

open Prog

/-! ## What a registration sends -/

def nicknameOr (nickname uid : String) : String :=
  if nickname = "" then uid else nickname

theorem ensures_registerUser (uid passwd nickname email : String) :
    (MySQLUserRepo.registerUser uid passwd nickname email).Ensures
      fun queries ok => ok = true →
        ⟨.query (.insertUser uid (nicknameOr nickname uid) email passwd),
          some ()⟩ ∈ queries := by
  simp only [MySQLUserRepo.registerUser, withConnection, request_bind,
    ensures_call]
  intro conn
  split
  · simp
  · simp only [call_bind, ensures_call]
    intro taken
    cases taken with
    | none => simp
    | some rows =>
        dsimp only
        split
        · simp
        · simp only [call_bind, ensures_call, pure_eq, ret_bind,
            ensures_ret]
          intro inserted _ hok
          cases inserted with
          | none => cases hok
          | some _ => simp [nicknameOr]

theorem ensures_registered (nodeId : String) (task : Task) :
    (task.program nodeId).Ensures fun log callback =>
      ∀ conn, callback = some (.register conn true) →
        ∃ uid passwd nickname email,
          task = .registerUser conn uid passwd nickname email ∧
            ⟨.registerUser uid passwd nickname email, true⟩ ∈ log := by
  cases task with
  | registerUser conn uid passwd nickname email =>
      refine ensures_call.mpr fun ok => ensures_ret.mpr ?_
      intro other hdone
      cases hdone
      exact ⟨uid, passwd, nickname, email, rfl, List.mem_cons_self⟩
  | _ =>
      have hany {α : Type} (service : ServiceProg α) :
          service.Ensures fun _ _ => True := fun _ _ _ => trivial
      refine (hany _).bind fun log value _ => ensures_ret.mpr ?_
      intro _ hdone
      cases hdone

/-! ## Accounts -/

namespace Database

variable {db middle after : Database} {uid nickname email passwd : String}

/-- The passwords are a column of the users. -/
def OneTable (db : Database) : Prop :=
  ∀ uid, db.credentials.HasKey uid → db.Registered uid

/-- The row of a user. -/
structure HasAccount (db : Database)
    (uid nickname email passwd : String) : Prop where
  profile : db.users.get? uid =
    some { uid := uid, nickname := nickname, email := email }
  password : db.credentials.get? uid = some ⟨uid, db.sha2 passwd⟩

theorem HasAccount.registered
    (haccount : db.HasAccount uid nickname email passwd) :
    db.Registered uid :=
  ⟨_, (KeyedTable.get?_eq_some.mp haccount.profile).1, rfl⟩

structure Evolves (db after : Database) : Prop where
  keeps : db.Keeps after
  sha2 : after.sha2 = db.sha2
  oneTable : db.OneTable → after.OneTable

theorem Evolves.trans (hfirst : db.Evolves middle)
    (hsecond : middle.Evolves after) : db.Evolves after :=
  ⟨hfirst.keeps.trans hsecond.keeps, hsecond.sha2.trans hfirst.sha2,
    fun hdb => hsecond.oneTable (hfirst.oneTable hdb)⟩

theorem HasAccount.later (haccount : db.HasAccount uid nickname email passwd)
    (hevolves : db.Evolves after) :
    after.HasAccount uid nickname email passwd :=
  ⟨hevolves.keeps.users _ _ haccount.profile,
    hevolves.sha2 ▸ hevolves.keeps.credentials _ _ haccount.password⟩

theorem evolves_insertUser (uid nickname email passwd : String) :
    db.Evolves (db.execStatement
      (.insertUser uid nickname email passwd)).1 := by
  refine ⟨.insertUser uid nickname email passwd, ?_, ?_⟩
  · simp only [execStatement]
    split <;> rfl
  · simp only [execStatement]
    split
    · exact id
    · rintro hdb other ⟨row, hrow, rfl⟩
      rcases KeyedTable.mem_insertIgnore.mp hrow with hold | ⟨_, rfl⟩
      · exact (hdb row.uid ⟨row, hold, rfl⟩).insertIgnore _
      · exact KeyedTable.hasKey_insertIgnore_self _ _

theorem evolves_execStatement {task : Task} {statement : Statement}
    (hsends : task.Sends statement) :
    db.Evolves (db.execStatement statement).1 := by
  have hkeeps : db.Keeps (db.execStatement statement).1 :=
    .execStatement hsends
  obtain ⟨call, _, hsends⟩ := hsends
  cases hsends with
  | insertUser => exact evolves_insertUser _ _ _ _
  | insertRequest | insertMirror | insertMessage | insertRoom
  | insertIgnoreRoomMember | insertOfflineMessage =>
      refine ⟨hkeeps, ?_, ?_⟩
      · simp only [execStatement]
        split <;> rfl
      · simp only [execStatement]
        split <;> exact id
  | _ => exact ⟨hkeeps, rfl, id⟩

/-- The key of the table lets the INSERT through only once. -/
theorem hasAccount_insertUser (hdb : db.OneTable)
    (hdone : (db.execStatement (.insertUser uid nickname email passwd)).2 =
      some ()) :
    ¬ db.Registered uid ∧
      (db.execStatement (.insertUser uid nickname email passwd)).1.HasAccount
        uid nickname email passwd := by
  simp only [execStatement] at hdone ⊢
  split at hdone
  · cases hdone
  · rename_i hfree
    have hnone : ¬ db.credentials.HasKey uid := fun htaken =>
      hfree (hdb uid htaken)
    rw [if_neg hfree]
    refine ⟨hfree, ?_, ?_⟩
    · rw [KeyedTable.get?_insertIgnore, KeyedTable.get?_eq_none.mpr hfree,
        if_pos rfl]
      rfl
    · rw [KeyedTable.get?_insertIgnore, KeyedTable.get?_eq_none.mpr hnone,
        if_pos rfl]
      rfl

end Database

namespace ChatNode

variable {config : ServerConfig} {node next : ChatNode} {action : Action}

/-! ## Who has registered a user -/

/-- The log has the INSERT of a user, which went through. -/
def InsertsUser (log : List (Sigma NodeCall.Answer))
    (uid nickname email passwd : String) : Prop :=
  ∃ outcome, ⟨.sql (.query (.insertUser uid nickname email passwd)),
    outcome⟩ ∈ log ∧ outcome.result = some ()

/-- A finished task reports a registration as a success. -/
def Registers (entry : PoolTask × Option Callback)
    (uid passwd nickname email : String) : Prop :=
  ∃ conn, entry.1.task = .registerUser conn uid passwd nickname email ∧
    entry.2 = some (.register conn true)

theorem insertsUser_of_registers {thread : NodeThread}
    {callback : Option Callback} {uid passwd nickname email : String}
    (hthread : (system config).Faithful thread)
    (hprog : thread.prog = .ret callback)
    (hregisters : Registers (thread.op, callback) uid passwd nickname email) :
    InsertsUser thread.log uid (nicknameOr nickname uid) email passwd := by
  obtain ⟨conn, htask, hdone⟩ := hregisters
  obtain ⟨outer, houter, hparts⟩ := calls_of_done hthread hprog
  obtain ⟨other, word, name, mail, hsame, hcall⟩ :=
    ensures_registered config.nodeId thread.op.task outer _ houter conn hdone
  have hfields := htask.symm.trans hsame
  cases hfields
  obtain ⟨part, hpart, hpath⟩ := hparts _ hcall
  obtain ⟨queries, hqueries, hlogged⟩ := queries_of_overSql hpath
  obtain ⟨outcome, hmem, hresult⟩ := hlogged _ _
    (ensures_registerUser uid passwd nickname email queries _ hqueries rfl)
  exact ⟨outcome, hpart hmem, hresult⟩

/-- The request has registered the user: its task has inserted the row and
goes on, or it has reported a success. -/
def Claims (node : ChatNode) (request : ℕ)
    (uid nickname email passwd : String) : Prop :=
  (∃ thread ∈ node.threads, thread.op.request = request ∧
    InsertsUser thread.log uid nickname email passwd) ∨
  ∃ entry ∈ node.finished, entry.1.request = request ∧
    ∃ name, nicknameOr name uid = nickname ∧
      Registers entry uid passwd name email

/-- Whoever has registered a user stands in the table with it, and nobody
else has. -/
structure Enrolled (config : ServerConfig) (db : Database)
    (node : ChatNode) : Prop where
  faithful : ∀ thread ∈ node.threads, (system config).Faithful thread
  evolved : db.Evolves node.world.db
  account : ∀ request uid nickname email passwd,
    Claims node request uid nickname email passwd → ¬ db.Registered uid ∧
      node.world.db.HasAccount uid nickname email passwd
  single : ∀ first second uid nickname email passwd name mail word,
    Claims node first uid nickname email passwd →
      Claims node second uid name mail word → first = second

theorem evolves_step
    (hnode : ∀ thread ∈ node.threads, (system config).Faithful thread)
    (hstep : step config node action = some next) :
    node.world.db.Evolves next.world.db :=
  related_step
    (fun _ _ => ⟨.of_eq rfl rfl rfl rfl rfl rfl rfl, rfl, id⟩)
    (fun _ _ _ hsends => Database.evolves_execStatement hsends) hnode hstep

/-- What a call adds to the log of its thread. -/
theorem insertsUser_exec {world after : NodeWorld} {call : NodeCall}
    {answer : call.Answer} {log : List (Sigma NodeCall.Answer)}
    {uid nickname email passwd : String} (hdb : world.db.OneTable)
    (heffect : world.effect call answer = some after)
    (hinserts : InsertsUser (log ++ [⟨call, answer⟩]) uid nickname email
      passwd) :
    InsertsUser log uid nickname email passwd ∨
      ¬ world.db.Registered uid ∧
        after.db.HasAccount uid nickname email passwd := by
  obtain ⟨outcome, hmem, hresult⟩ := hinserts
  rcases List.mem_append.mp hmem with hold | hnew
  · exact .inl ⟨outcome, hold, hresult⟩
  · cases List.mem_singleton.mp hnew
    obtain ⟨db, hexec, rfl⟩ := Option.map_eq_some_iff.mp heffect
    obtain ⟨_, rfl, hdone⟩ := executed_of_result hexec hresult
    exact .inr (Database.hasAccount_insertUser hdb hdone)

section Steps

variable {db : Database}

/-- Steps on which nobody new registers. -/
theorem Enrolled.of_claims (hnode : Enrolled config db node)
    (hfaithful : ∀ thread ∈ next.threads, (system config).Faithful thread)
    (hevolves : node.world.db.Evolves next.world.db)
    (hclaims : ∀ request uid nickname email passwd,
      Claims next request uid nickname email passwd →
        Claims node request uid nickname email passwd) :
    Enrolled config db next where
  faithful := hfaithful
  evolved := hnode.evolved.trans hevolves
  account _ _ _ _ _ hclaim :=
    (hnode.account _ _ _ _ _ (hclaims _ _ _ _ _ hclaim)).imp_right
      fun haccount => haccount.later hevolves
  single _ _ _ _ _ _ _ _ _ hfirst hsecond :=
    hnode.single _ _ _ _ _ _ _ _ _ (hclaims _ _ _ _ _ hfirst)
      (hclaims _ _ _ _ _ hsecond)

theorem claims_exec {index : ℕ} {thread : NodeThread} {call : NodeCall}
    {answer : call.Answer} {world : NodeWorld}
    {rest : NodeProg (Option Callback)}
    (hthread : thread ∈ node.threads) (hdb : node.world.db.OneTable)
    (heffect : node.world.effect call answer = some world)
    {request : ℕ} {uid nickname email passwd : String}
    (hclaim : Claims { node with
        world := world
        threads := node.threads.set index (thread.advance call answer rest) }
      request uid nickname email passwd) :
    Claims node request uid nickname email passwd ∨
      request = thread.op.request ∧ ¬ node.world.db.Registered uid ∧
        world.db.HasAccount uid nickname email passwd := by
  rcases hclaim with ⟨other, hother, hrequest, hinserts⟩ | hfinished
  · rcases List.mem_or_eq_of_mem_set hother with hold | rfl
    · exact .inl (.inl ⟨other, hold, hrequest, hinserts⟩)
    · rcases insertsUser_exec hdb heffect hinserts with hold | hnew
      · exact .inl (.inl ⟨thread, hthread, hrequest, hold⟩)
      · exact .inr ⟨hrequest.symm, hnew⟩
  · exact .inl (.inr hfinished)

theorem Enrolled.step (hdb : db.OneTable) (hnode : Enrolled config db node)
    (hstep : step config node action = some next) :
    Enrolled config db next := by
  have hfaithful := faithful_step hstep hnode.faithful
  have hevolves := evolves_step hnode.faithful hstep
  cases steps_of_step hstep with
  | start item rest hqueue =>
      refine hnode.of_claims hfaithful hevolves ?_
      rintro request uid nickname email passwd
        (⟨thread, hthread, hclaim⟩ | hfinished)
      · rcases List.mem_append.mp hthread with hold | hnew
        · exact .inl ⟨thread, hold, hclaim⟩
        · rw [List.mem_singleton.mp hnew] at hclaim
          obtain ⟨_, outcome, hlog, _⟩ := hclaim
          cases hlog
      · exact .inr hfinished
  | @exec index call answer thread world rest hthread hprog heffect =>
      have hmem := List.mem_of_getElem? hthread
      have honeTable := hnode.evolved.oneTable hdb
      refine ⟨hfaithful, hnode.evolved.trans hevolves, ?_, ?_⟩
      · intro request uid nickname email passwd hclaim
        rcases claims_exec hmem honeTable heffect hclaim with
          hold | ⟨_, hfree, haccount⟩
        · exact (hnode.account _ _ _ _ _ hold).imp_right
            fun haccount => haccount.later hevolves
        · refine ⟨fun hregistered => hfree ?_, haccount⟩
          obtain ⟨info, hinfo, huid⟩ := hregistered
          have hfound := hnode.evolved.keeps.users uid info
            (KeyedTable.get?_eq_some.mpr ⟨hinfo, huid⟩)
          exact ⟨info, KeyedTable.get?_eq_some.mp hfound⟩
      · intro first second uid nickname email passwd name mail word hfirst
          hsecond
        rcases claims_exec hmem honeTable heffect hfirst with
          hold | ⟨rfl, hfree, _⟩
        · rcases claims_exec hmem honeTable heffect hsecond with
            hother | ⟨_, hfree, _⟩
          · exact hnode.single _ _ _ _ _ _ _ _ _ hold hother
          · exact absurd (hnode.account _ _ _ _ _ hold).2.registered hfree
        · rcases claims_exec hmem honeTable heffect hsecond with
            hother | ⟨rfl, _, _⟩
          · exact absurd (hnode.account _ _ _ _ _ hother).2.registered hfree
          · rfl
  | @finish index thread callback hthread hprog =>
      have hmem := List.mem_of_getElem? hthread
      refine hnode.of_claims hfaithful hevolves ?_
      rintro request uid nickname email passwd
        (⟨other, hother, hclaim⟩ | ⟨entry, hentry, hclaim⟩)
      · exact .inl ⟨other, List.mem_of_mem_eraseIdx hother, hclaim⟩
      · rcases List.mem_cons.mp hentry with rfl | hold
        · obtain ⟨hrequest, name, rfl, hregisters⟩ := hclaim
          exact .inl ⟨thread, hmem, hrequest,
            insertsUser_of_registers (hnode.faithful thread hmem) hprog
              hregisters⟩
        · exact .inr ⟨entry, hold, hclaim⟩
  | _ =>
      exact hnode.of_claims hfaithful hevolves
        fun _ _ _ _ _ hclaim => hclaim

end Steps

theorem enrolled_start (world : NodeWorld) :
    Enrolled config world.db { world := world } := by
  have hnone : ∀ request uid nickname email passwd,
      ¬ Claims { world := world } request uid nickname email passwd := by
    rintro request uid nickname email passwd
      (⟨thread, hthread, _⟩ | ⟨entry, hentry, _⟩)
    · cases hthread
    · cases hentry
  refine ⟨by simp, ⟨.refl _, rfl, id⟩, ?_, ?_⟩
  · exact fun _ _ _ _ _ hclaim => absurd hclaim (hnone _ _ _ _ _)
  · exact fun _ _ _ _ _ _ _ _ _ hclaim => absurd hclaim (hnone _ _ _ _ _)

/-- However the registrations of a uid interleave: the one that is reported
as a success is the only one, the uid was free before, and the account is
the one it asked for, from then on. -/
theorem registrations_stand {world : NodeWorld} (hdb : world.db.OneTable)
    {actions : List Action}
    (hrun : Runs.runFrom (step config) { world := world } actions =
      some node)
    {entry : PoolTask × Option Callback} (hentry : entry ∈ node.finished)
    {uid passwd nickname email : String}
    (hregisters : Registers entry uid passwd nickname email) :
    ¬ world.db.Registered uid ∧
      node.world.db.HasAccount uid (nicknameOr nickname uid) email passwd ∧
      ∀ other ∈ node.finished, ∀ word name mail,
        Registers other uid word name mail →
          other.1.request = entry.1.request := by
  have hnode : Enrolled config world.db node :=
    Runs.invariant_of_run (enrolled_start world)
      (fun _ _ _ hstep hnode => hnode.step hdb hstep) hrun
  have hclaim : Claims node entry.1.request uid (nicknameOr nickname uid)
      email passwd :=
    .inr ⟨entry, hentry, rfl, nickname, rfl, hregisters⟩
  obtain ⟨hfree, haccount⟩ := hnode.account _ _ _ _ _ hclaim
  refine ⟨hfree, haccount, ?_⟩
  intro other hother word name mail hagain
  exact hnode.single _ _ _ _ _ _ _ _ _
    (.inr ⟨other, hother, rfl, name, rfl, hagain⟩) hclaim

/-- Two threads find the uid free, and one of them is faster. -/
def bobTwice : List Action :=
  [.receive 0 (.registerReq { uid := "bob", passwd := "first" }),
    .receive 1 (.registerReq { uid := "bob", passwd := "second" }),
    .start, .start] ++
    [.exec 0 (.sql .getConnection) true,
      .exec 1 (.sql .getConnection) true,
      .exec 0 (.sql (.query (.selectUid "bob"))) ⟨true, some (some [])⟩,
      .exec 1 (.sql (.query (.selectUid "bob"))) ⟨true, some (some [])⟩,
      .exec 1 (.sql (.query (.insertUser "bob" "bob" "" "second")))
        ⟨true, some ()⟩,
      .exec 0 (.sql (.query (.insertUser "bob" "bob" "" "first")))
        ⟨true, none⟩,
      .exec 0 (.sql .returnConnection) (),
      .exec 1 (.sql .returnConnection) (),
      .finish 0, .finish 0]

theorem registrations_stand_bobTwice : ∃ node entry other,
    Runs.runFrom (step twoWorkers) { world := { db := {} } } bobTwice =
        some node ∧
      node.finished = [entry, other] ∧ entry.1.request = 1 ∧
      entry.2 = some (.register 1 true) ∧
      other.2 = some (.register 0 false) ∧
      node.world.db.HasAccount "bob" "bob" "" "second" := by
  have hdb : Database.OneTable {} := by
    rintro uid ⟨row, hrow, -⟩
    cases hrow
  obtain ⟨node, entry, other, hrun, hfinished, htask, hrequest, hdone,
      hfailed⟩ : ∃ node entry other,
      Runs.runFrom (step twoWorkers) { world := { db := {} } } bobTwice =
          some node ∧
        node.finished = [entry, other] ∧
        entry.1.task = .registerUser 1 "bob" "second" "" "" ∧
        entry.1.request = 1 ∧ entry.2 = some (.register 1 true) ∧
        other.2 = some (.register 0 false) :=
    ⟨_, _, _, rfl, rfl, rfl, rfl, rfl, rfl⟩
  have hentry : entry ∈ node.finished := hfinished ▸ List.mem_cons_self
  have hstands := registrations_stand hdb hrun hentry ⟨1, htask, hdone⟩
  exact ⟨node, entry, other, hrun, hfinished, hrequest, hdone, hfailed,
    hstands.2.1⟩

end ChatNode

end MuduoChat
