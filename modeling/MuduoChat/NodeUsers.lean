import MuduoChat.TaskStatements

/-!
# Users of a node

No task takes a user, a room or a member away.  So the user a login has read
from the table of users is there ever since.  The uid the node goes on with is
the one that was read, up to the first NUL.
-/

namespace MuduoChat

/-! ## A growing database -/

structure Database.Grows (db after : Database) : Prop where
  users : ∀ uid, db.Registered uid → after.Registered uid
  rooms : db.rooms.entries ⊆ after.rooms.entries
  /-- A new room has a new name. -/
  named : ∀ entry ∈ after.rooms.entries, entry ∈ db.rooms.entries ∨
    ∀ other ∈ db.rooms.entries, other.2.name ≠ entry.2.name
  members : ∀ pair, db.roomMembers.HasKey pair →
    after.roomMembers.HasKey pair

namespace Database.Grows

variable {db after : Database}

theorem of_eq (husers : after.users = db.users)
    (hrooms : after.rooms = db.rooms)
    (hmembers : after.roomMembers = db.roomMembers) : db.Grows after where
  users uid huid := by
    unfold Database.Registered
    rw [husers]
    exact huid
  rooms := by
    rw [hrooms]
    exact List.Subset.refl _
  named entry hentry := by
    rw [hrooms] at hentry
    exact .inl hentry
  members pair hpair := by
    rw [hmembers]
    exact hpair

theorem insertUser (uid nickname email passwd : String) :
    db.Grows (db.execStatement
      (.insertUser uid nickname email passwd)).1 := by
  unfold Database.execStatement
  dsimp only
  split
  · exact of_eq rfl rfl rfl
  · refine ⟨?_, List.Subset.refl _, fun _ hentry => .inl hentry,
      fun _ hpair => hpair⟩
    intro other hother
    exact KeyedTable.HasKey.insertIgnore hother _

theorem insertRoom (name creator : String) :
    db.Grows (db.execStatement (.insertRoom name creator)).1 := by
  unfold Database.execStatement
  dsimp only
  split
  · rename_i hallowed
    refine ⟨fun _ huid => huid, ?_, ?_, fun _ hpair => hpair⟩
    · exact List.subset_append_left db.rooms.entries _
    · intro entry hentry
      rcases List.mem_append.mp hentry with hold | hnew
      · exact .inl hold
      · rw [List.mem_singleton.mp hnew]
        exact .inr fun other hother => by
          simpa using List.all_eq_true.mp hallowed.2 other hother
  · exact of_eq rfl rfl rfl

theorem insertRoomMember (roomId : Int) (uid : String) (role : Int) :
    db.Grows (db.execStatement
      (.insertIgnoreRoomMember roomId uid role)).1 := by
  unfold Database.execStatement
  dsimp only
  split
  · refine ⟨fun _ huid => huid, List.Subset.refl _,
      fun _ hentry => .inl hentry, ?_⟩
    intro pair hpair
    exact hpair.insertIgnore _
  · exact of_eq rfl rfl rfl

theorem execStatement {task : Task} {statement : Statement}
    (hsends : task.Sends statement) :
    db.Grows (db.execStatement statement).1 := by
  obtain ⟨call, _, hsends⟩ := hsends
  cases hsends with
  | insertUser uid passwd nickname email nick =>
      exact insertUser uid nick email passwd
  | insertRoom name creator => exact insertRoom name creator
  | insertIgnoreRoomMember roomId uid role =>
      exact insertRoomMember roomId uid role
  | insertRequest | insertMirror | insertMessage | insertOfflineMessage =>
      simp only [Database.execStatement]
      split <;> exact of_eq rfl rfl rfl
  | _ => exact of_eq rfl rfl rfl

end Database.Grows

/-! ## What the log of a login tells -/

namespace ChatNode

variable {config : ServerConfig} {node next : ChatNode} {action : Action}

theorem sends_of_faithful {thread : NodeThread} {statement : Statement}
    {rest : QueryOutcome statement → NodeProg (Option Callback)}
    (hthread : (system config).Faithful thread)
    (hprog : thread.prog = .call (.sql (.query statement)) rest) :
    thread.op.task.Sends statement := by
  have hreaches : Prog.Reaches
      ((thread.op.task.program config.nodeId).translate answerRepository)
      thread.log (.call (.sql (.query statement)) rest) :=
    hprog ▸ hthread
  exact thread.op.task.onlyCalls_sends config.nodeId _ _ _ hreaches

theorem sends_of_log {thread : NodeThread} {statement : Statement}
    {outcome : QueryOutcome statement}
    (hthread : (system config).Faithful thread)
    (hlog : ⟨.sql (.query statement), outcome⟩ ∈ thread.log) :
    thread.op.task.Sends statement :=
  (thread.op.task.onlyCalls_sends config.nodeId).of_mem_log hthread _ hlog

/-- A step relates the databases before and after it as the statements of
the tasks do. -/
theorem related_step {relate : Database → Database → Prop}
    (hsame : ∀ db clock, relate db { db with clock := clock })
    (hexec : ∀ db task statement, Task.Sends task statement →
      relate db (db.execStatement statement).1)
    (hnode : ∀ thread ∈ node.threads, (system config).Faithful thread)
    (hstep : step config node action = some next) :
    relate node.world.db next.world.db := by
  have hstays : relate node.world.db node.world.db :=
    hsame node.world.db node.world.db.clock
  cases steps_of_step hstep with
  | @exec index call answer thread world rest hthread hprog heffect =>
      cases call with
      | sql call =>
          obtain ⟨db, hdb, rfl⟩ := Option.map_eq_some_iff.mp heffect
          cases call with
          | query statement =>
              have hsends := sends_of_faithful
                (hnode thread (List.mem_of_getElem? hthread)) hprog
              rcases query_of_effect hdb with ⟨_, rfl, _⟩ | ⟨_, _, rfl⟩
              · exact hexec _ _ _ hsends
              · exact hstays
          | _ =>
              cases hdb
              exact hstays
      | session call =>
          obtain ⟨redis, _, rfl⟩ := Option.map_eq_some_iff.mp heffect
          exact hstays
  | @disturb event world hdisturb =>
      cases event with
      | redis event =>
          obtain ⟨redis, _, rfl⟩ := Option.map_eq_some_iff.mp hdisturb
          exact hstays
      | tick clock =>
          cases hdisturb
          exact hsame _ clock
  | _ => exact hstays

theorem database_step
    (hnode : ∀ thread ∈ node.threads, (system config).Faithful thread)
    (hstep : step config node action = some next) :
    node.world.db.Grows next.world.db :=
  related_step (fun _ _ => .of_eq rfl rfl rfl)
    (fun _ _ _ hsends => .execStatement hsends) hnode hstep

theorem ensures_getUserInfo (uid : String) :
    (answerRepository (.getUserInfo uid)).Ensures fun log found =>
      ∀ info, found = some info → ∃ outcome row,
        ⟨.sql (.query (.selectUser uid)), outcome⟩ ∈ log ∧
          outcome.result = some (some row) ∧ info = row.ofRow := by
  intro log found hreaches info hinfo
  obtain ⟨-, hnone⟩ | ⟨outcome, hmem, hfound⟩ :=
    ensures_query log found hreaches
  · rw [hinfo] at hnone
    cases hnone
  · rw [hinfo] at hfound
    obtain ⟨row, hrow, rfl⟩ := Option.map_eq_some_iff.mp hfound.symm
    exact ⟨outcome, row, hmem,
      (Option.getD_eq_iff.mp hrow).resolve_right (by simp), rfl⟩

/-- The calls a finished thread has made, each with its part of the log. -/
theorem calls_of_done {thread : NodeThread} {callback : Option Callback}
    (hthread : (system config).Faithful thread)
    (hprog : thread.prog = .ret callback) :
    ∃ outer : List (Sigma RepositoryCall.Answer),
      Prog.Reaches (thread.op.task.program config.nodeId) outer
        (.ret callback) ∧
      ∀ entry ∈ outer, ∃ part, part ⊆ thread.log ∧
        Prog.Reaches (answerRepository entry.1) part (.ret entry.2) := by
  have hreaches : Prog.Reaches
      ((thread.op.task.program config.nodeId).translate answerRepository)
      thread.log (.ret callback) := hprog ▸ hthread
  exact hreaches.of_translate

theorem registered_of_selectUser {db after : Database} {uid : String}
    {outcome : QueryOutcome (.selectUser uid)} {info : UserInfo}
    (heffect : db.effect (.query (.selectUser uid)) outcome = some after)
    (hresult : outcome.result = some (some info)) :
    after.Registered info.uid ∧ info.uid = uid := by
  obtain ⟨_, hafter, hfound⟩ := executed_of_result heffect hresult
  have hsame : after = db := hafter
  subst hsame
  have hfind : after.users.rows.find? (fun user => user.uid = uid) =
      some info := Option.some.inj hfound
  have huid : info.uid = uid := by simpa using List.find?_some hfind
  exact ⟨⟨info, List.mem_of_find?_eq_some hfind, rfl⟩, huid⟩

/-! ## Users that were read -/

/-- The users whom the workers have read are registered. -/
structure UsersRead (config : ServerConfig) (node : ChatNode) : Prop where
  faithful : ∀ thread ∈ node.threads, (system config).Faithful thread
  read : ∀ thread ∈ node.threads, ∀ uid outcome info,
    ⟨.sql (.query (.selectUser uid)), outcome⟩ ∈ thread.log →
      outcome.result = some (some info) →
        node.world.db.Registered info.uid ∧ info.uid = uid

theorem read_exec {thread : NodeThread} {call : NodeCall}
    {answer : call.Answer} {world after : NodeWorld}
    {rest : NodeProg (Option Callback)}
    (heffect : world.effect call answer = some after)
    (hgrows : world.db.Grows after.db)
    (hread : ∀ uid outcome info,
      ⟨.sql (.query (.selectUser uid)), outcome⟩ ∈ thread.log →
        outcome.result = some (some info) →
          world.db.Registered info.uid ∧ info.uid = uid)
    {uid : String} {outcome : QueryOutcome (.selectUser uid)}
    {info : UserInfo}
    (hmem : ⟨.sql (.query (.selectUser uid)), outcome⟩ ∈
      (thread.advance call answer rest).log)
    (hresult : outcome.result = some (some info)) :
    after.db.Registered info.uid ∧ info.uid = uid := by
  rcases List.mem_append.mp hmem with hold | hnew
  · exact (hread uid outcome info hold hresult).imp_left (hgrows.users _)
  · cases List.mem_singleton.mp hnew
    obtain ⟨db, hdb, rfl⟩ := Option.map_eq_some_iff.mp heffect
    exact registered_of_selectUser hdb hresult

theorem UsersRead.step (hnode : UsersRead config node)
    (hstep : step config node action = some next) :
    UsersRead config next := by
  have hfaithful := faithful_step hstep hnode.faithful
  have hgrows := database_step hnode.faithful hstep
  refine ⟨hfaithful, ?_⟩
  cases steps_of_step hstep with
  | start item rest hqueue =>
      intro thread hthread uid outcome info hlog
      rcases List.mem_append.mp hthread with hold | hnew
      · exact hnode.read thread hold uid outcome info hlog
      · rw [List.mem_singleton.mp hnew] at hlog
        cases hlog
  | @exec index call answer thread world rest hthread hprog heffect =>
      intro other hother uid outcome info hlog hresult
      rcases List.mem_or_eq_of_mem_set hother with hold | rfl
      · exact (hnode.read other hold uid outcome info hlog
          hresult).imp_left (hgrows.users _)
      · exact read_exec heffect hgrows
          (hnode.read thread (List.mem_of_getElem? hthread)) hlog hresult
  | finish hthread hprog =>
      intro other hother
      exact hnode.read other (List.mem_of_mem_eraseIdx hother)
  | disturb hdisturb =>
      intro thread hthread uid outcome info hlog hresult
      exact (hnode.read thread hthread uid outcome info hlog
        hresult).imp_left (hgrows.users _)
  | _ => exact hnode.read

theorem usersRead_start (world : NodeWorld) :
    UsersRead config { world := world } := by
  constructor <;> simp

end ChatNode

end MuduoChat
