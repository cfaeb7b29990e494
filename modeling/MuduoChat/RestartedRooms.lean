import MuduoChat.NodeRooms

/-!
# Rooms after a restart

The rooms of `RoomManager` start empty with the server, and are never read
from the database.  A room gets there only by being created, and a room that
is in the database cannot be created again.  So no room outlives the server
that made it: users still join it and write to it, and are not told that
nobody is there.
-/

namespace MuduoChat

/-- The callback reports that the room was created. -/
def Callback.Creates (callback : Callback) (name : String) : Prop :=
  ∃ conn uid result, callback = .createRoom conn uid name result ∧
    result.success = true

/-- The database holds a room of the name. -/
def Database.HasRoom (db : Database) (name : String) : Prop :=
  ∃ entry ∈ db.rooms.entries, entry.2.name = name

theorem Database.HasRoom.grows {db after : Database} {name : String}
    (hroom : db.HasRoom name) (hgrows : db.Grows after) :
    after.HasRoom name := by
  obtain ⟨entry, hentry, hname⟩ := hroom
  exact ⟨entry, hgrows.rooms hentry, hname⟩

theorem Database.hasRoom_insertRoom {db : Database} {name uid : String}
    {roomId : Int}
    (hinserted : (db.execStatement (.insertRoom name uid)).2 =
      some roomId) :
    ¬ db.HasRoom name ∧
      (db.execStatement (.insertRoom name uid)).1.HasRoom name := by
  constructor
  · rintro ⟨entry, hentry, hname⟩
    rcases db.insertRoom_cases name uid with ⟨⟨-, hfree⟩, -⟩ | hexec
    · exact hfree entry hentry hname
    · rw [hexec] at hinserted
      cases hinserted
  · obtain ⟨⟨row, hrow, hname⟩, -⟩ := created_of_insertRoom hinserted
    exact ⟨_, hrow, hname⟩

/-- Nothing is sent to the room, and a recall is confirmed only to whoever
asked for it. -/
structure RanCallback.Unheard (ran : RanCallback) (name : String) :
    Prop where
  chats : ∀ conn sender content result,
    ran.functor.callback = .chat conn sender "" name content result →
      result.success = true → ran.events = []
  recalls : ∀ conn uid msgId result,
    ran.functor.callback = .recallMsg conn uid msgId "" name result →
      ∀ target msg, .sent target msg ∈ ran.events → target = conn

namespace ChatServer

theorem toMembers_empty (manager : SessionManager) (msg : ServerMessage) :
    ServerReplies.toMembers manager .empty msg = [] :=
  rfl

theorem history_chatDone_empty (server : ChatServer) (request : Nat)
    (conn : Conn) (sender content : String) {name : String}
    {result : SendMessageResult} (now : Nat)
    (hmembers : server.rooms.getRoomMembers name = .empty)
    (hsuccess : result.success = true) :
    (server.chatDone request conn sender "" name content result
      now).history = server.history := by
  by_cases hname : name = ""
  · simp [chatDone, hsuccess, hname]
  · simp [chatDone, hsuccess, hname, hmembers, toMembers_empty, sendAll]

theorem history_recallDone_empty (server : ChatServer) (conn : Conn)
    (uid : String) (msgId : Int) {name : String} (result : RecallResult)
    (now : Nat) (hmembers : server.rooms.getRoomMembers name = .empty) :
    ∃ reply, (server.recallDone conn uid msgId "" name result now).history =
      .sent conn reply :: server.history := by
  by_cases hsuccess : result.success = true
  · by_cases hname : name = ""
    · simp [recallDone, hsuccess, hname, sendAll, send, record]
    · simp [recallDone, hsuccess, hname, hmembers, toMembers_empty, sendAll,
        send, record]
  · simp [recallDone, hsuccess, sendError, send, record]

end ChatServer

namespace ChatNode

open ThreadSystem

variable {config : ServerConfig} {node next : ChatNode} {action : Action}
  {name : String}

/-! ## Rooms a node has made -/

/-- The node has made a room of the name: it has inserted it into the
database, has reported it, or knows it in memory. -/
inductive HasMade (node : ChatNode) (name : String) : Prop
  | inserted {thread : NodeThread} {creator : String}
      {outcome : QueryOutcome (.insertRoom name creator)} {roomId : Int}
      (hthread : thread ∈ node.threads)
      (hlog : ⟨.sql (.query (.insertRoom name creator)), outcome⟩ ∈
        thread.log)
      (hresult : outcome.result = some roomId)
  | finished {entry : PoolTask × Option Callback} {callback : Callback}
      (hentry : entry ∈ node.finished) (hdone : entry.2 = some callback)
      (hcreates : callback.Creates name)
  | waiting {loop : Nat} {functor : Functor}
      (hfunctor : functor ∈ node.server.loops loop)
      (hcreates : functor.callback.Creates name)
  | known (hroom : (node.server.rooms.rooms name).isSome = true)

theorem hasMade_of_done {thread : NodeThread} {callback : Callback}
    (hthread : thread ∈ node.threads)
    (hfaithful : (system config).Faithful thread)
    (hprog : thread.prog = .ret (some callback))
    (hcreates : callback.Creates name) : HasMade node name := by
  have hreaches : Prog.Reaches
      ((thread.op.task.program config.nodeId).translate answerRepository)
      thread.log (.ret (some callback)) := hprog ▸ hfaithful
  have hshows := ensures_shows config.nodeId thread.op.task _ _ hreaches
    callback rfl
  obtain ⟨conn, uid, result, rfl, hsuccess⟩ := hcreates
  obtain ⟨first, entry, rest, outcome, hlog, hmem, hresult, -⟩ :=
    hshows hsuccess
  refine .inserted hthread ?_ hresult
  rw [hlog]
  exact List.mem_append_left _ hmem

theorem HasMade.of_frame (hmade : HasMade next name)
    (hthreads : next.threads = node.threads)
    (hfinished : next.finished = node.finished)
    (hloops : next.server.loops = node.server.loops)
    (hrooms : next.server.rooms = node.server.rooms) : HasMade node name := by
  cases hmade with
  | inserted hthread hlog hresult =>
      exact .inserted (hthreads ▸ hthread) hlog hresult
  | finished hentry hdone hcreates =>
      exact .finished (hfinished ▸ hentry) hdone hcreates
  | @waiting loop functor hfunctor hcreates =>
      exact .waiting (congrFun hloops loop ▸ hfunctor) hcreates
  | known hroom => exact .known (hrooms ▸ hroom)

/-- A room is made by a step that inserts it where it was not. -/
theorem HasMade.before
    (hnode : ∀ thread ∈ node.threads, (system config).Faithful thread)
    (hstep : step config node action = some next)
    (hmade : HasMade next name) :
    HasMade node name ∨
      ¬ node.world.db.HasRoom name ∧ next.world.db.HasRoom name := by
  cases steps_of_step hstep with
  | receive conn envelope =>
      exact .inl (hmade.of_frame rfl rfl
        (loops_receive node.server conn envelope)
        (ChatServer.cachesKept_receive node.server conn envelope).rooms)
  | start item rest hqueue =>
      left
      cases hmade with
      | inserted hthread hlog hresult =>
          rcases List.mem_append.mp hthread with hold | hnew
          · exact .inserted hold hlog hresult
          · rw [List.mem_singleton.mp hnew] at hlog
            cases hlog
      | finished hentry hdone hcreates =>
          exact .finished hentry hdone hcreates
      | waiting hfunctor hcreates => exact .waiting hfunctor hcreates
      | known hroom => exact .known hroom
  | @exec index call answer thread world rest hthread hprog heffect =>
      cases hmade with
      | @inserted other creator outcome roomId hother hlog hresult =>
          have hmem := List.mem_of_getElem? hthread
          rcases List.mem_or_eq_of_mem_set hother with hold | rfl
          · exact .inl (.inserted hold hlog hresult)
          rcases List.mem_append.mp hlog with hold | hnew
          · exact .inl (.inserted hmem hold hresult)
          · cases List.mem_singleton.mp hnew
            obtain ⟨db, hexec, rfl⟩ := Option.map_eq_some_iff.mp heffect
            obtain ⟨-, rfl, hinserted⟩ := executed_of_result hexec hresult
            exact .inr (Database.hasRoom_insertRoom hinserted)
      | finished hentry hdone hcreates =>
          exact .inl (.finished hentry hdone hcreates)
      | waiting hfunctor hcreates => exact .inl (.waiting hfunctor hcreates)
      | known hroom => exact .inl (.known hroom)
  | @finish index thread callback hthread hprog =>
      left
      have hmem := List.mem_of_getElem? hthread
      have hfaithful := hnode thread hmem
      cases hmade with
      | inserted hother hlog hresult =>
          exact .inserted (List.mem_of_mem_eraseIdx hother) hlog hresult
      | finished hentry hdone hcreates =>
          rcases List.mem_cons.mp hentry with rfl | hold
          · cases hdone
            exact hasMade_of_done hmem hfaithful hprog hcreates
          · exact .finished hold hdone hcreates
      | waiting hfunctor hcreates =>
          rcases mem_loops_queueInLoop hfunctor with hold | ⟨rfl, -⟩
          · exact .waiting hold hcreates
          · exact hasMade_of_done hmem hfaithful hprog hcreates
      | known hroom =>
          rw [queueInLoop_rooms] at hroom
          exact .known hroom
  | callback loop now functor rest hloop =>
      left
      cases hmade with
      | inserted hthread hlog hresult => exact .inserted hthread hlog hresult
      | finished hentry hdone hcreates =>
          exact .finished hentry hdone hcreates
      | waiting hfunctor hcreates =>
          rw [(afterCallback_frame node loop now functor rest).2.1]
            at hfunctor
          exact .waiting (mem_loops_of_mem_rest hloop hfunctor) hcreates
      | known hroom =>
          rw [rooms_afterCallback] at hroom
          rcases created_of_isSome_enterRoom hroom with hold | hcreates
          · exact .known hold
          · exact .waiting (hloop ▸ List.mem_cons_self) hcreates
  | invalidLength | parseError | close | disturb =>
      exact .inl (hmade.of_frame rfl rfl rfl rfl)

/-! ## Rooms that were there before -/

theorem unheard_afterCallback {loop now : Nat} {functor : Functor}
    {rest : List Functor} {ran : RanCallback}
    (hroom : node.server.rooms.rooms name = none)
    (hran : ran ∈ (node.afterCallback loop now functor rest).ran) :
    ran ∈ node.ran ∨ ran.Unheard name := by
  have hmembers : node.server.rooms.getRoomMembers name = .empty := by
    rw [RoomManager.getRoomMembers, hroom]
    rfl
  rcases List.mem_cons.mp hran with rfl | hold
  · obtain ⟨request, callback⟩ := functor
    right
    constructor
    · intro conn sender content result hcallback hsuccess
      cases hcallback
      have hhistory := ChatServer.history_chatDone_empty
        { node.server with
          loops := Function.update node.server.loops loop rest }
        request conn sender content now hmembers hsuccess
      simp [ChatServer.runCallback, hhistory]
    · intro conn uid msgId result hcallback target msg hsent
      cases hcallback
      obtain ⟨reply, hhistory⟩ := ChatServer.history_recallDone_empty
        { node.server with
          loops := Function.update node.server.loops loop rest }
        conn uid msgId result now hmembers
      simp only [ChatServer.runCallback, hhistory, List.length_cons,
        Nat.add_sub_cancel_left, List.take_succ_cons, List.take_zero,
        List.mem_singleton, Event.sent.injEq] at hsent
      exact hsent.1
  · exact .inl hold

/-- What the database held when the server started, it still holds, and the
node has made none of it. -/
structure RoomsForgotten (config : ServerConfig) (start : Database)
    (node : ChatNode) : Prop where
  faithful : ∀ thread ∈ node.threads, (system config).Faithful thread
  kept : ∀ name, start.HasRoom name → node.world.db.HasRoom name
  made : ∀ name, HasMade node name →
    ¬ start.HasRoom name ∧ node.world.db.HasRoom name
  unheard : ∀ name, start.HasRoom name → ∀ ran ∈ node.ran,
    ran.Unheard name

theorem RoomsForgotten.unknown {start : Database}
    (hnode : RoomsForgotten config start node) (hold : start.HasRoom name) :
    node.server.rooms.rooms name = none := by
  cases hroom : node.server.rooms.rooms name with
  | none => rfl
  | some members =>
      exact absurd hold (hnode.made name (.known (by rw [hroom]; rfl))).1

theorem RoomsForgotten.step {start : Database}
    (hnode : RoomsForgotten config start node)
    (hstep : step config node action = some next) :
    RoomsForgotten config start next := by
  have hgrows := database_step hnode.faithful hstep
  refine ⟨faithful_step hstep hnode.faithful, ?_, ?_, ?_⟩
  · exact fun name hold => (hnode.kept name hold).grows hgrows
  · intro name hmade
    rcases hmade.before hnode.faithful hstep with hearlier | ⟨hfree, hnew⟩
    · obtain ⟨hnone, hroom⟩ := hnode.made name hearlier
      exact ⟨hnone, hroom.grows hgrows⟩
    · exact ⟨fun hold => hfree (hnode.kept name hold), hnew⟩
  · intro name hold ran hran
    cases steps_of_step hstep with
    | callback loop now functor rest hloop =>
        rcases unheard_afterCallback (hnode.unknown hold) hran with
          hearlier | hnew
        · exact hnode.unheard name hold ran hearlier
        · exact hnew
    | _ => exact hnode.unheard name hold ran hran

theorem roomsForgotten_start (world : NodeWorld) :
    RoomsForgotten config world.db { world := world } := by
  refine ⟨by simp, fun _ hold => hold, ?_, by simp⟩
  intro name hmade
  cases hmade with
  | inserted hthread => cases hthread
  | finished hentry => cases hentry
  | waiting hfunctor => cases hfunctor
  | known hroom => cases hroom

theorem roomsForgotten_of_run {world : NodeWorld} {actions : List Action}
    (hrun : Runs.runFrom (step config) { world := world } actions =
      some node) : RoomsForgotten config world.db node :=
  Runs.invariant_of_run (roomsForgotten_start world)
    (fun _ _ _ hstep hnode => hnode.step hstep) hrun

/-- Nobody is in the room, nobody can make it again, and whoever writes to it
is not even told so. -/
structure Forgotten (node : ChatNode) (name : String) : Prop where
  unknown : node.server.rooms.rooms name = none
  refused : ∀ entry ∈ node.finished, ∀ conn uid result,
    entry.2 = some (.createRoom conn uid name result) →
      result.success = false
  unheard : ∀ ran ∈ node.ran, ran.Unheard name

theorem RoomsForgotten.forgotten {start : Database}
    (hnode : RoomsForgotten config start node) (hold : start.HasRoom name) :
    Forgotten node name where
  unknown := hnode.unknown hold
  refused := by
    intro entry hentry conn uid result hdone
    by_contra hsuccess
    have hmade : HasMade node name := .finished hentry hdone
      ⟨conn, uid, result, rfl, eq_true_of_ne_false hsuccess⟩
    exact (hnode.made name hmade).1 hold
  unheard := hnode.unheard name hold

/-- A room that the server has created, once the server has been started
again. -/
theorem forgotten_after_restart {world : NodeWorld}
    {before after : List Action} {last : ChatNode}
    (hbefore : Runs.runFrom (step config) { world := world } before =
      some node)
    {entry : PoolTask × Option Callback} {callback : Callback}
    (hentry : entry ∈ node.finished) (hdone : entry.2 = some callback)
    (hcreates : callback.Creates name)
    (hafter : Runs.runFrom (step config) { world := node.world } after =
      some last) :
    Forgotten last name := by
  have hmade : HasMade node name := .finished hentry hdone hcreates
  have hstored := ((roomsForgotten_of_run hbefore).made name hmade).2
  exact (roomsForgotten_of_run hafter).forgotten hstored

/-- Ann logs in again, joins her room again and writes to it. -/
def annReturns : List Action :=
  quietLogin twoWorkers 0 "ann" "secret" "u" [] ++ joinCalls "r" "ann" ++
    [.callback 0 0, .receive 0 (.chatMsg { room := "r", content := "hi" }),
      .start, .exec 0 (.sql .getConnection) true,
      .exec 0 (.sql (.query (.selectRoomId "r"))) ⟨true, some [1]⟩,
      .exec 0 (.sql (.query (.selectNextSeq 1))) ⟨true, some 1⟩,
      .exec 0 (.sql (.query (.insertMessage 1 (some 1) "ann" none "hi")))
        ⟨true, some 1⟩,
      .exec 0 (.sql .returnConnection) (), .finish 0, .callback 0 0]

theorem forgotten_after_restart_annReturns : ∃ node last,
    Runs.runFrom (step twoWorkers) { world := { db := annRegistered } }
        createAndJoin = some node ∧
      Runs.runFrom (step twoWorkers) { world := node.world } annReturns =
        some last ∧
      last.world.db.messages.entries.length = 1 ∧ Forgotten last "r" := by
  obtain ⟨node, last, hbefore, hafter, hmessages, entry, hentry, conn, uid,
      result, hdone, hsuccess⟩ :
      ∃ node last,
        Runs.runFrom (step twoWorkers) { world := { db := annRegistered } }
            createAndJoin = some node ∧
          Runs.runFrom (step twoWorkers) { world := node.world } annReturns =
            some last ∧
          last.world.db.messages.entries.length = 1 ∧
          ∃ entry ∈ node.finished, ∃ conn uid result,
            entry.2 = some (.createRoom conn uid "r" result) ∧
              result.success = true :=
    ⟨_, _, rfl, rfl, rfl, _, .tail _ (.head _), _, _, _, rfl, rfl⟩
  exact ⟨node, last, hbefore, hafter, hmessages,
    forgotten_after_restart hbefore hentry hdone
      ⟨conn, uid, result, rfl, hsuccess⟩ hafter⟩

end ChatNode

end MuduoChat
