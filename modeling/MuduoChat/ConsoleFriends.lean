import MuduoChat.ConsoleClient
import MuduoChat.FriendRuns

/-!
# Friends of console users

The console client never learns the uid it is logged in with, and so it fills
the fields for it with the empty string.  The server takes the uids of friend
requests and of answers from these fields.  Nobody is registered under the
empty uid, so that neither leaves a trace in the database.
-/

namespace MuduoChat

namespace KeyedTable

variable {Row Key : Type} {key : Row → Key}

/-- A change that selects no row. -/
theorem update_eq_self {table : KeyedTable key} {selected : Row → Bool}
    {change : Row → Row} {hchange : ∀ row, key (change row) = key row}
    (hselected : ∀ row ∈ table, selected row = false) :
    table.update selected change hchange = table := by
  have hrows : (table.rows.map fun row =>
      if selected row then change row else row) = table.rows := by
    refine (List.map_congr_left fun row hrow => ?_).trans (List.map_id _)
    rw [hselected row hrow]
    rfl
  cases table
  simp only [update, KeyedTable.mk.injEq]
  exact hrows

end KeyedTable

/-- A task for a request whose client left the fields for its own uid
empty. -/
def Task.Nameless : Task → Prop
  | .addFriendRequest _ sender .. => sender = ""
  | .respondFriendRequest _ _ responder _ => responder = ""
  | .removeFriend .. => False
  | .registerUser _ uid .. => uid ≠ ""
  | _ => True

theorem nameless_of_isFollowUp {task : Task} (hfollow : task.IsFollowUp) :
    task.Nameless := by
  cases task <;> first | exact hfollow.elim | trivial

theorem nameless_of_composed {login : Option String} {conn : Conn}
    {raw : RawEnvelope} {envelope : Envelope} {task : Task}
    (hcomposed : Composed raw) (hparse : raw.parse = some envelope)
    (hrequests : Requests login conn envelope task) : task.Nameless := by
  obtain ⟨request, hproper, rfl⟩ := hcomposed
  cases request <;>
    simp only [ClientRequest.envelope, RawEnvelope.parse, stringOf?_nil,
      Option.bind_eq_bind, Option.bind_eq_some_iff, Option.bind_some,
      Option.pure_def, Option.some.injEq] at hparse
  case register uid passwd =>
    obtain ⟨text, htext, _, _, rfl⟩ := hparse
    cases hrequests
    rintro rfl
    exact hproper.1.2 (bytesOf_of_stringOf? htext).symm
  case logout =>
    subst hparse
    cases hrequests
    trivial
  case createRoom name =>
    obtain ⟨_, _, rfl⟩ := hparse
    cases hrequests
    trivial
  case friendResp requester accept =>
    obtain ⟨_, _, rfl⟩ := hparse
    cases hrequests
    rfl
  all_goals
    obtain ⟨_, _, _, _, rfl⟩ := hparse
    cases hrequests <;> first | rfl | trivial

namespace Database

variable {db : Database} {task : Task} {statement : Statement}

/-- The empty uid is free, and no row of the friendships waits for it. -/
structure LeavesEmptyFree (db : Database) : Prop where
  free : ¬ db.Registered ""
  targets : ∀ row ∈ db.friendships, row.targetUid ≠ ""

theorem LeavesEmptyFree.of_eq {after : Database} (hdb : db.LeavesEmptyFree)
    (husers : after.users = db.users)
    (hfriendships : after.friendships = db.friendships) :
    after.LeavesEmptyFree := by
  refine ⟨?_, ?_⟩
  · unfold Registered
    rw [husers]
    exact hdb.free
  · rw [hfriendships]
    exact hdb.targets

theorem LeavesEmptyFree.insertUser (hdb : db.LeavesEmptyFree)
    {uid : String} (huid : uid ≠ "") (nickname email passwd : String) :
    (db.execStatement
      (.insertUser uid nickname email passwd)).1.LeavesEmptyFree := by
  simp only [execStatement]
  split
  · exact hdb
  · refine ⟨?_, hdb.targets⟩
    rintro ⟨row, hrow, hkey⟩
    rcases KeyedTable.mem_insertIgnore.mp hrow with hold | ⟨-, rfl⟩
    · exact hdb.free ⟨row, hold, hkey⟩
    · exact huid hkey

/-- An insertion from or for nobody. -/
theorem insertFriendship_eq (hdb : db.LeavesEmptyFree) {uid : String}
    {status : ℕ} :
    (db.execStatement (.insertIgnoreFriendship "" uid status)).1 = db := by
  have hno : ¬ (db.Registered "" ∧ db.Registered uid) :=
    fun hboth => hdb.free hboth.1
  exact if_neg hno

theorem updateStatus_eq (hdb : db.LeavesEmptyFree) {requester : String}
    {status : ℕ} :
    (db.execStatement (.updateFriendshipStatus status requester "")).1 =
      db := by
  have hnone : ∀ row ∈ db.friendships,
      (decide (row.requesterUid = requester) &&
        decide (row.targetUid = "")) = false := by
    intro row hrow
    simp [hdb.targets row hrow]
  show { db with friendships := db.friendships.update _ _ _ } = db
  rw [KeyedTable.update_eq_self hnone]

theorem nameless_execStatement (hdb : db.LeavesEmptyFree)
    (htask : task.Nameless) (hsends : task.Sends statement) :
    (db.execStatement statement).1.LeavesEmptyFree ∧
      (db.execStatement statement).1.friendships = db.friendships := by
  have hkept (hsame : (db.execStatement statement).1 = db) :
      (db.execStatement statement).1.LeavesEmptyFree ∧
        (db.execStatement statement).1.friendships = db.friendships := by
    rw [hsame]
    exact ⟨hdb, rfl⟩
  obtain ⟨call, hmakes, hsends⟩ := hsends
  cases hsends with
  | insertUser uid passwd nickname email nick =>
      cases hmakes
      refine ⟨hdb.insertUser htask nick email passwd, ?_⟩
      simp only [execStatement]
      split <;> rfl
  | insertRequest sender target message =>
      cases hmakes
      cases htask
      exact hkept (insertFriendship_eq hdb)
  | updateStatus requester responder accepted =>
      cases hmakes
      cases htask
      exact hkept (updateStatus_eq hdb)
  | insertMirror requester responder =>
      cases hmakes
      cases htask
      exact hkept (insertFriendship_eq hdb)
  | deleteFriendships uid₁ uid₂ =>
      cases hmakes
      exact htask.elim
  | insertMessage | insertOfflineMessage | insertRoom
  | insertIgnoreRoomMember =>
      simp only [execStatement]
      split <;> exact ⟨hdb.of_eq rfl rfl, rfl⟩
  | _ => exact ⟨hdb.of_eq rfl rfl, rfl⟩

end Database

/-! ## Nodes that serve console clients -/

namespace ChatNode

variable {config : ServerConfig} {node next : ChatNode} {action : Action}

/-- Whatever arrives was sent by some console client in some run of it. -/
def FromConsole : Action → Prop
  | .receive _ envelope => ∃ stdin actions client,
      Runs.runFrom ChatClient.step { stdin := stdin } actions = some client ∧
        ∃ raw ∈ client.sent, raw.parse = some envelope
  | _ => True

structure FriendsStay (config : ServerConfig)
    (friendships : KeyedTable FriendshipRow.pair) (node : ChatNode) :
    Prop where
  faithful : ∀ thread ∈ node.threads, (system config).Faithful thread
  queued : ∀ item ∈ node.server.queue, item.task.Nameless
  running : ∀ thread ∈ node.threads, thread.op.task.Nameless
  database : node.world.db.LeavesEmptyFree
  friendships : node.world.db.friendships = friendships

theorem FriendsStay.withWorld {friendships : KeyedTable FriendshipRow.pair}
    (hnode : FriendsStay config friendships node) {world : NodeWorld}
    (hdb : world.db.LeavesEmptyFree)
    (hsame : world.db.friendships = node.world.db.friendships) :
    FriendsStay config friendships { node with world := world } :=
  ⟨hnode.faithful, hnode.queued, hnode.running, hdb,
    hsame.trans hnode.friendships⟩

theorem FriendsStay.exec {friendships : KeyedTable FriendshipRow.pair}
    (hnode : FriendsStay config friendships node) {thread : NodeThread}
    (hthread : thread ∈ node.threads) {call : NodeCall}
    {answer : call.Answer} {world : NodeWorld}
    {rest : call.Answer → NodeProg (Option Callback)}
    (hprog : thread.prog = .call call rest)
    (heffect : node.world.effect call answer = some world) :
    FriendsStay config friendships { node with world := world } := by
  cases call with
  | session call =>
      obtain ⟨redis, _, rfl⟩ := Option.map_eq_some_iff.mp heffect
      exact hnode.withWorld hnode.database rfl
  | sql call =>
      obtain ⟨db, hdb, rfl⟩ := Option.map_eq_some_iff.mp heffect
      cases call with
      | query statement =>
          have hsends : thread.op.task.Sends statement :=
            sends_of_faithful (hnode.faithful thread hthread) hprog
          rcases query_of_effect hdb with ⟨_, rfl, _⟩ | ⟨_, _, rfl⟩
          · obtain ⟨hafter, hsame⟩ := Database.nameless_execStatement
              hnode.database (hnode.running thread hthread) hsends
            exact hnode.withWorld hafter hsame
          · exact hnode.withWorld hnode.database rfl
      | _ =>
          cases hdb
          exact hnode.withWorld hnode.database rfl

theorem FriendsStay.step {friendships : KeyedTable FriendshipRow.pair}
    (hnode : FriendsStay config friendships node)
    (hstep : step config node action = some next)
    (hconsole : FromConsole action) : FriendsStay config friendships next := by
  have hfaithful := faithful_step hstep hnode.faithful
  cases steps_of_step hstep with
  | receive conn envelope =>
      obtain ⟨stdin, actions, client, hrun, raw, hsent, hparse⟩ := hconsole
      have hclient := ChatClient.composes_of_run hrun
      have hcomposed := hclient.composed raw (hclient.sent raw hsent)
      refine ⟨hfaithful, ?_, hnode.running, hnode.database,
        hnode.friendships⟩
      intro item hitem
      rcases mem_queue_receive hitem with hold | ⟨_, hrequests⟩
      · exact hnode.queued item hold
      · exact nameless_of_composed hcomposed hparse hrequests
  | start item rest hqueue =>
      have hitems : ∀ other ∈ item :: rest, other.task.Nameless :=
        fun other hother => hnode.queued other (hqueue ▸ hother)
      refine ⟨hfaithful, ?_, ?_, hnode.database, hnode.friendships⟩
      · exact fun other hother =>
          hitems other (List.mem_cons_of_mem item hother)
      · intro thread hthread
        rcases List.mem_append.mp hthread with hold | hnew
        · exact hnode.running thread hold
        · rw [List.mem_singleton.mp hnew]
          exact hitems item List.mem_cons_self
  | @exec index call answer thread world rest hthread hprog heffect =>
      have hmem := List.mem_of_getElem? hthread
      have hworld := hnode.exec hmem hprog heffect
      refine ⟨hfaithful, hnode.queued, ?_, hworld.database,
        hworld.friendships⟩
      intro other hother
      rcases List.mem_or_eq_of_mem_set hother with hold | rfl
      · exact hnode.running other hold
      · exact hnode.running thread hmem
  | @finish index thread callback hthread hprog =>
      refine ⟨hfaithful, ?_, ?_, hnode.database, hnode.friendships⟩
      · intro item hitem
        exact hnode.queued item
          (queueInLoop_queue config node.server _ callback ▸ hitem)
      · exact fun other hother =>
          hnode.running other (List.mem_of_mem_eraseIdx hother)
  | callback loop now functor rest hloop =>
      obtain ⟨-, -, tasks, hqueue, htasks⟩ :=
        afterCallback_frame node loop now functor rest
      refine ⟨hfaithful, ?_, hnode.running, hnode.database,
        hnode.friendships⟩
      intro item hitem
      rw [hqueue] at hitem
      rcases List.mem_append.mp hitem with hold | hnew
      · exact hnode.queued item hold
      · obtain ⟨task, htask, rfl⟩ := List.mem_map.mp hnew
        exact nameless_of_isFollowUp (htasks task htask)
  | @disturb event world hdisturb =>
      cases event with
      | redis event =>
          obtain ⟨redis, _, rfl⟩ := Option.map_eq_some_iff.mp hdisturb
          exact hnode.withWorld hnode.database rfl
      | tick clock =>
          cases hdisturb
          exact hnode.withWorld (hnode.database.of_eq rfl rfl) rfl
  | _ =>
      exact ⟨hfaithful, hnode.queued, hnode.running, hnode.database,
        hnode.friendships⟩

/-- Ann logs in and asks Bob, who is registered, to be her friend. -/
def annAsks : ChatClient :=
  { stdin := bytesOf "1\nann\nsecret\n5\nbob\nhi\n" }

def annIsAsked : List ChatClient.Action :=
  ChatClient.annSends ++
    [.message (.loginResp { ok := true }), .console, .console, .console,
      .console, .console, .console, .flush]

def strangersStored : LinkedDatabase where
  db := { annAndBob with friendships := KeyedTable.empty }
  linked := by
    intro row hrow
    cases hrow

def annsRequest : List Action :=
  quietLogin twoWorkers 0 "ann" "secret" "t" [] ++
    [.receive 0 (.friendReq { toUid := "bob", message := "hi" }), .start] ++
    queryOf 0 (.selectUid "bob") (some ["bob"]) ++
    queryOf 0 (.insertIgnoreFriendship "" "bob" 0) () ++
    [.finish 0, .callback 0 0]

end ChatNode

end MuduoChat
