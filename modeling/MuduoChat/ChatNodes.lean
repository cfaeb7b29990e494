import MuduoChat.ChatServerSteps
import MuduoChat.MySQLRepos
import MuduoChat.RedisSessionRepo

/-!
# A chat node

The server together with its stores: users, friends, messages and rooms in
MySQL, sessions in Redis.  The tasks of the pool are carried out statement by
statement and command by command, and the calls of different tasks interleave
in any order.  Each of them may fail, before or after it has had its effect.
The random token, the clock and `mktime` answer as they please.

`finished` lists what the tasks returned and `ran` which callbacks were run,
with the events each of them caused; both are newest first and are not read
by the node.
-/

namespace MuduoChat

/-! ## The calls -/

/-- What `mysql_query` leads to: whether the server executed the statement,
and the result, if one arrived. -/
structure QueryOutcome (statement : Statement) where
  executed : Bool
  result : Option statement.Result

inductive NodeCall where
  | sql (call : DbCall)
  | session (call : LoginCall)
  deriving DecidableEq

abbrev NodeCall.Answer : NodeCall → Type
  | sql .getConnection => Bool
  | sql (.query statement) => QueryOutcome statement
  | sql .returnConnection | sql .closeConnection => Unit
  | session call => call.Answer

abbrev NodeProg := Prog NodeCall NodeCall.Answer

def answerSql : (call : DbCall) → NodeProg call.Answer
  | .getConnection => Prog.request (NodeCall.sql .getConnection)
  | .query statement => do
      let outcome ← Prog.request (NodeCall.sql (.query statement))
      return outcome.result
  | .returnConnection => Prog.request (NodeCall.sql .returnConnection)
  | .closeConnection => Prog.request (NodeCall.sql .closeConnection)

def overSql {α : Type} (prog : DbProg α) : NodeProg α :=
  prog.translate answerSql

def overSession {α : Type} (prog : LoginProg α) : NodeProg α :=
  prog.translate fun call => Prog.request (NodeCall.session call)

/-- The repositories `main` wires to the services. -/
def answerRepository : (call : RepositoryCall) → NodeProg call.Answer
  | .registerUser uid passwd nickname email =>
      overSql (MySQLUserRepo.registerUser uid passwd nickname email)
  | .verifyUser uid passwd => overSql (MySQLUserRepo.verifyUser uid passwd)
  | .userExists uid => overSql (MySQLUserRepo.userExists uid)
  | .getUserInfo uid => overSql (MySQLUserRepo.getUserInfo uid)
  | .addFriendRequest sender target message =>
      overSql (MySQLFriendRepo.addFriendRequest sender target message)
  | .respondFriendRequest requester responder accepted =>
      overSql (MySQLFriendRepo.respondFriendRequest requester responder
        accepted)
  | .removeFriends uid₁ uid₂ =>
      overSql (MySQLFriendRepo.removeFriends uid₁ uid₂)
  | .getFriendList uid => overSql (MySQLFriendRepo.getFriendList uid)
  | .getPendingRequests uid =>
      overSql (MySQLFriendRepo.getPendingRequests uid)
  | .storeMessage sender recipient room content =>
      overSql (MySQLMessageRepo.storeMessage sender recipient room content)
  | .getMessage msgId => overSql (MySQLMessageRepo.getMessage msgId)
  | .recallMessage msgId uid =>
      overSql (MySQLMessageRepo.recallMessage msgId uid)
  | .addOfflineMessage targetUid msgId =>
      overSql (MySQLMessageRepo.addOfflineMessage targetUid msgId)
  | .getUndeliveredMessages uid =>
      overSql (MySQLMessageRepo.getUndeliveredMessages uid)
  | .markMessagesDelivered uid =>
      overSql (MySQLMessageRepo.markMessagesDelivered uid)
  | .createRoom name creator =>
      overSql (MySQLRoomRepo.createRoom name creator)
  | .getRoomByName name => overSql (MySQLRoomRepo.getRoomByName name)
  | .roomExists name => overSql (MySQLRoomRepo.roomExists name)
  | .addRoomMember roomId uid role =>
      overSql (MySQLRoomRepo.addRoomMember roomId uid role)
  | call => overSession (answerSession call)

/-! ## The stores -/

instance (statement : Statement) : DecidableEq statement.Result :=
  match statement with
  | .insertIgnoreFriendship .. | .updateFriendshipStatus ..
  | .deleteFriendships .. | .insertOfflineMessage .. | .updateDelivered _
  | .insertUser .. | .updateLastLogin _ | .insertIgnoreRoomMember ..
  | .deleteRoomMember .. | .insertSession .. | .updateRevokedByToken _
  | .updateRevokedByUid _ | .updateSessionNode .. =>
      inferInstanceAs (DecidableEq Unit)
  | .selectUid _ => inferInstanceAs (DecidableEq (Option (List String)))
  | .selectVerified .. | .selectRoomMembers _ | .selectPendingRequesters _ =>
      inferInstanceAs (DecidableEq (List String))
  | .selectUser _ => inferInstanceAs (DecidableEq (Option UserInfo))
  | .insertRoom .. | .selectNextSeq _ | .insertMessage .. =>
      inferInstanceAs (DecidableEq Int)
  | .selectRoomByName _ | .selectRoomById _ =>
      inferInstanceAs (DecidableEq (Option RoomInfo))
  | .selectUserRooms _ => inferInstanceAs (DecidableEq (List RoomInfo))
  | .selectSession _ => inferInstanceAs (DecidableEq (Option SessionInfo))
  | .selectFriends _ => inferInstanceAs (DecidableEq (List UserInfo))
  | .selectRoomId _ => inferInstanceAs (DecidableEq (List Int))
  | .selectMessage _ => inferInstanceAs (DecidableEq (Option MessageInfo))
  | .updateRecalled .. => inferInstanceAs (DecidableEq Nat)
  | .selectUndelivered _ => inferInstanceAs (DecidableEq (List MessageInfo))

/-- A statement that is executed has its effect even if its result does not
arrive. -/
def Database.effect (db : Database) :
    (call : DbCall) → (NodeCall.sql call).Answer → Option Database
  | .query statement, outcome =>
      if outcome.executed then
        if outcome.result = none ∨
            outcome.result = (db.execStatement statement).2 then
          some (db.execStatement statement).1
        else none
      else if outcome.result = none then some db
      else none
  | _, _ => some db

structure NodeWorld where
  db : Database
  redis : RedisWorld := {}

def NodeWorld.effect (world : NodeWorld) :
    (call : NodeCall) → call.Answer → Option NodeWorld
  | .sql call, answer =>
      (world.db.effect call answer).map fun db => { world with db := db }
  | .session call, answer =>
      (world.redis.effect call answer).map fun redis =>
        { world with redis := redis }

inductive NodeEvent where
  | redis (event : RedisEvent)
  /-- The database's clock advances. -/
  | tick (clock : String)

def NodeWorld.disturb (world : NodeWorld) : NodeEvent → Option NodeWorld
  | .redis event =>
      (world.redis.disturb event).map fun redis =>
        { world with redis := redis }
  | .tick clock =>
      some { world with db := { world.db with clock := clock } }

/-! ## The node -/

abbrev NodeThread :=
  Thread PoolTask NodeCall NodeCall.Answer (Option Callback)

/-- A callback that was run, and the events it caused, newest first. -/
structure RanCallback where
  functor : Functor
  events : List Event

structure ChatNode where
  /-- The server; its tasks run in `threads`. -/
  server : ChatServer := ChatServer.initial
  world : NodeWorld
  threads : List NodeThread := []
  finished : List (PoolTask × Option Callback) := []
  ran : List RanCallback := []

namespace ChatNode

def system (config : ServerConfig) : ThreadSystem NodeWorld PoolTask NodeEvent
    NodeCall NodeCall.Answer (Option Callback) where
  program item :=
    (item.task.program config.nodeId).translate answerRepository
  effect := NodeWorld.effect
  disturb := NodeWorld.disturb

inductive Action where
  | receive (conn : Conn) (envelope : Envelope)
  | invalidLength (conn : Conn)
  | parseError (conn : Conn)
  | close (conn : Conn)
  /-- A free worker takes the oldest task. -/
  | start
  /-- A busy worker makes its next call and gets an answer. -/
  | exec (index : Nat) (call : NodeCall) (answer : call.Answer)
  /-- A worker is done and queues the functor for the loop. -/
  | finish (index : Nat)
  /-- A loop runs its oldest functor. -/
  | callback (loop : Nat) (now : Nat)
  | disturb (event : NodeEvent)

def onServer (config : ServerConfig) (node : ChatNode)
    (action : ChatServer.Action) : Option ChatNode :=
  (node.server.step config action).map fun server =>
    { node with server := server }

def startTask (config : ServerConfig) (node : ChatNode) : Option ChatNode :=
  match node.server.queue with
  | [] => none
  | item :: rest =>
      if node.threads.length < config.threads then
        some { node with
          server := { node.server with queue := rest }
          threads := node.threads ++ [(system config).begin item] }
      else none

def makeCall (config : ServerConfig) (node : ChatNode) (index : Nat)
    (call : NodeCall) (answer : call.Answer) : Option ChatNode := do
  let thread ← node.threads[index]?
  let prog ← thread.prog.resume call answer
  let world ← (system config).effect node.world call answer
  return { node with
    world := world
    threads := node.threads.set index (thread.advance call answer prog) }

def finishTask (config : ServerConfig) (node : ChatNode) (index : Nat) :
    Option ChatNode :=
  match node.threads[index]? with
  | some ⟨item, _, .ret callback⟩ =>
      some { node with
        server := node.server.queueInLoop config item.request callback
        threads := node.threads.eraseIdx index
        finished := (item, callback) :: node.finished }
  | _ => none

def afterCallback (node : ChatNode) (loop now : Nat) (functor : Functor)
    (rest : List Functor) : ChatNode :=
  let before : ChatServer :=
    { node.server with
      loops := Function.update node.server.loops loop rest }
  let after := before.runCallback functor.request now functor.callback
  { node with
    server := after
    ran := ⟨functor, after.history.take
      (after.history.length - before.history.length)⟩ :: node.ran }

def loopRound (node : ChatNode) (loop now : Nat) : Option ChatNode :=
  match node.server.loops loop with
  | [] => none
  | functor :: rest => some (node.afterCallback loop now functor rest)

def step (config : ServerConfig) (node : ChatNode) :
    Action → Option ChatNode
  | .receive conn envelope => node.onServer config (.receive conn envelope)
  | .invalidLength conn => node.onServer config (.invalidLength conn)
  | .parseError conn => node.onServer config (.parseError conn)
  | .close conn => node.onServer config (.close conn)
  | .start => node.startTask config
  | .exec index call answer => node.makeCall config index call answer
  | .finish index => node.finishTask config index
  | .callback loop now => node.loopRound loop now
  | .disturb event =>
      ((system config).disturb node.world event).map fun world =>
        { node with world := world }

/-- Nothing is queued, running or waiting in a loop. -/
structure Quiescent (node : ChatNode) : Prop where
  queue : node.server.queue = []
  threads : node.threads = []
  loops : ∀ loop, node.server.loops loop = []

/-! ## What a step can do -/

inductive Steps (config : ServerConfig) (node : ChatNode) :
    Action → ChatNode → Prop
  | receive (conn : Conn) (envelope : Envelope) :
      Steps config node (.receive conn envelope)
        { node with server := node.server.receive conn envelope }
  | invalidLength (conn : Conn) :
      Steps config node (.invalidLength conn)
        { node with server := node.server.record (.shutdown conn) }
  | parseError (conn : Conn) :
      Steps config node (.parseError conn)
        { node with server := node.server.sendError conn 1 "parse error" }
  | close (conn : Conn) :
      Steps config node (.close conn)
        { node with server := node.server.close conn }
  | start (item : PoolTask) (rest : List PoolTask)
      (hqueue : node.server.queue = item :: rest) :
      Steps config node .start
        { node with
          server := { node.server with queue := rest }
          threads := node.threads ++ [(system config).begin item] }
  | exec {index : Nat} {call : NodeCall} {answer : call.Answer}
      {thread : NodeThread} {world : NodeWorld}
      {next : call.Answer → NodeProg (Option Callback)}
      (hthread : node.threads[index]? = some thread)
      (hprog : thread.prog = .call call next)
      (heffect : node.world.effect call answer = some world) :
      Steps config node (.exec index call answer)
        { node with
          world := world
          threads := node.threads.set index
            (thread.advance call answer (next answer)) }
  | finish {index : Nat} {thread : NodeThread} {callback : Option Callback}
      (hthread : node.threads[index]? = some thread)
      (hprog : thread.prog = .ret callback) :
      Steps config node (.finish index)
        { node with
          server := node.server.queueInLoop config thread.op.request callback
          threads := node.threads.eraseIdx index
          finished := (thread.op, callback) :: node.finished }
  | callback (loop now : Nat) (functor : Functor) (rest : List Functor)
      (hloop : node.server.loops loop = functor :: rest) :
      Steps config node (.callback loop now)
        (node.afterCallback loop now functor rest)
  | disturb {event : NodeEvent} {world : NodeWorld}
      (hdisturb : node.world.disturb event = some world) :
      Steps config node (.disturb event) { node with world := world }

section Inversion

variable {config : ServerConfig} {node next : ChatNode}

theorem steps_of_makeCall {index : Nat} {call : NodeCall}
    {answer : call.Answer}
    (hstep : node.makeCall config index call answer = some next) :
    Steps config node (.exec index call answer) next := by
  simp only [makeCall, Option.bind_eq_bind, Option.bind_eq_some_iff,
    Option.pure_def, Option.some.injEq] at hstep
  obtain ⟨thread, hthread, prog, hresume, world, heffect, rfl⟩ := hstep
  obtain ⟨rest, hprog, rfl⟩ := Prog.resume_eq_some hresume
  exact .exec hthread hprog heffect

theorem steps_of_step {action : Action}
    (hstep : step config node action = some next) :
    Steps config node action next := by
  cases action with
  | receive conn envelope =>
      obtain ⟨server, hserver, rfl⟩ := Option.map_eq_some_iff.mp hstep
      cases ChatServer.steps_of_step hserver
      exact .receive conn envelope
  | invalidLength conn =>
      obtain ⟨server, hserver, rfl⟩ := Option.map_eq_some_iff.mp hstep
      cases ChatServer.steps_of_step hserver
      exact .invalidLength conn
  | parseError conn =>
      obtain ⟨server, hserver, rfl⟩ := Option.map_eq_some_iff.mp hstep
      cases ChatServer.steps_of_step hserver
      exact .parseError conn
  | close conn =>
      obtain ⟨server, hserver, rfl⟩ := Option.map_eq_some_iff.mp hstep
      cases ChatServer.steps_of_step hserver
      exact .close conn
  | start =>
      simp only [step, startTask] at hstep
      split at hstep
      · cases hstep
      · rename_i item rest hqueue
        split at hstep
        · cases hstep
          exact .start item rest hqueue
        · cases hstep
  | exec index call answer => exact steps_of_makeCall hstep
  | finish index =>
      simp only [step, finishTask] at hstep
      split at hstep
      · rename_i item log callback hthread
        cases hstep
        exact .finish hthread rfl
      · cases hstep
  | callback loop now =>
      simp only [step, loopRound] at hstep
      split at hstep
      · cases hstep
      · rename_i functor rest hloop
        cases hstep
        exact .callback loop now functor rest hloop
  | disturb event =>
      obtain ⟨world, hdisturb, rfl⟩ := Option.map_eq_some_iff.mp hstep
      exact .disturb hdisturb

end Inversion

/-! ## Facts about each thread -/

section Threads

variable {config : ServerConfig} {node next : ChatNode} {action : Action}

theorem faithful_step (hstep : step config node action = some next)
    (hnode : ∀ thread ∈ node.threads, (system config).Faithful thread) :
    ∀ thread ∈ next.threads, (system config).Faithful thread := by
  cases steps_of_step hstep with
  | start item rest hqueue =>
      intro thread hthread
      rcases List.mem_append.mp hthread with hold | hnew
      · exact hnode thread hold
      · rw [List.mem_singleton.mp hnew]
        exact ThreadSystem.Faithful.begin item
  | exec hthread hprog heffect =>
      intro other hother
      rcases List.mem_or_eq_of_mem_set hother with hold | rfl
      · exact hnode other hold
      · exact (hnode _ (List.mem_of_getElem? hthread)).advance hprog _
  | finish hthread hprog =>
      intro other hother
      exact hnode other (List.mem_of_mem_eraseIdx hother)
  | _ => exact hnode

end Threads

/-! ## Request numbers -/

/-- Everything a node is working on has the number of a request it has
received. -/
structure Numbered (node : ChatNode) : Prop where
  queue : ∀ item ∈ node.server.queue, item.request < node.server.requests
  threads : ∀ thread ∈ node.threads,
    thread.op.request < node.server.requests
  loops : ∀ loop, ∀ functor ∈ node.server.loops loop,
    functor.request < node.server.requests
  finished : ∀ entry ∈ node.finished,
    entry.1.request < node.server.requests

section Numbers

variable {config : ServerConfig} {node next : ChatNode} {action : Action}

theorem requests_receive (server : ChatServer) (conn : Conn)
    (envelope : Envelope) :
    (server.receive conn envelope).requests = server.requests + 1 := by
  rw [(ChatServer.responds_receive server conn envelope).requests]
  cases envelope <;> rfl

theorem loops_receive (server : ChatServer) (conn : Conn)
    (envelope : Envelope) :
    (server.receive conn envelope).loops = server.loops := by
  rw [(ChatServer.responds_receive server conn envelope).loops]
  cases envelope <;> rfl

theorem mem_queue_receive {server : ChatServer} {conn : Conn}
    {envelope : Envelope} {item : PoolTask}
    (hitem : item ∈ (server.receive conn envelope).queue) :
    item ∈ server.queue ∨ item.request = server.requests ∧
      Requests (server.sessions.loggedInUid conn) conn envelope
        item.task := by
  obtain ⟨tasks, hqueue, hallowed⟩ :=
    (ChatServer.responds_receive server conn envelope).queue
  have hbefore : ((server.arrived conn envelope).leave server.requests conn
      envelope).queue = server.queue := by
    cases envelope <;> rfl
  rw [hqueue, hbefore] at hitem
  rcases List.mem_append.mp hitem with hold | hnew
  · exact .inl hold
  · obtain ⟨task, htask, rfl⟩ := List.mem_map.mp hnew
    exact .inr ⟨rfl, hallowed task htask⟩

@[simp] theorem queueInLoop_queue (config : ServerConfig)
    (server : ChatServer) (request : Nat) (callback : Option Callback) :
    (server.queueInLoop config request callback).queue = server.queue := by
  cases callback <;> rfl

@[simp] theorem queueInLoop_requests (config : ServerConfig)
    (server : ChatServer) (request : Nat) (callback : Option Callback) :
    (server.queueInLoop config request callback).requests =
      server.requests := by
  cases callback <;> rfl

@[simp] theorem queueInLoop_sessions (config : ServerConfig)
    (server : ChatServer) (request : Nat) (callback : Option Callback) :
    (server.queueInLoop config request callback).sessions =
      server.sessions := by
  cases callback <;> rfl

@[simp] theorem queueInLoop_rooms (config : ServerConfig)
    (server : ChatServer) (request : Nat) (callback : Option Callback) :
    (server.queueInLoop config request callback).rooms = server.rooms := by
  cases callback <;> rfl

theorem mem_loops_queueInLoop {server : ChatServer} {request : Nat}
    {callback : Option Callback} {loop : Nat} {functor : Functor}
    (hfunctor : functor ∈
      (server.queueInLoop config request callback).loops loop) :
    functor ∈ server.loops loop ∨
      callback = some functor.callback ∧ functor.request = request := by
  cases callback with
  | none => exact .inl hfunctor
  | some done =>
      simp only [ChatServer.queueInLoop] at hfunctor
      by_cases hloop : loop = config.loopOf done.conn
      · subst hloop
        rw [Function.update_self] at hfunctor
        rcases List.mem_append.mp hfunctor with hold | hnew
        · exact .inl hold
        · rw [List.mem_singleton.mp hnew]
          exact .inr ⟨rfl, rfl⟩
      · rw [Function.update_of_ne hloop] at hfunctor
        exact .inl hfunctor

theorem mem_loops_of_mem_rest {loops : Nat → List Functor} {loop other : Nat}
    {functor first : Functor} {rest : List Functor}
    (hloop : loops loop = first :: rest)
    (hfunctor : functor ∈ Function.update loops loop rest other) :
    functor ∈ loops other := by
  by_cases hother : other = loop
  · subst hother
    rw [Function.update_self] at hfunctor
    rw [hloop]
    exact List.mem_cons_of_mem first hfunctor
  · rwa [Function.update_of_ne hother] at hfunctor

theorem mem_rest_of_ne {loop other : Nat} {functor each : Functor}
    {rest : List Functor} {loops : Nat → List Functor}
    (hloop : loops loop = functor :: rest) (heach : each ∈ loops other)
    (hne : each ≠ functor) :
    each ∈ Function.update loops loop rest other := by
  by_cases hother : other = loop
  · subst hother
    rw [hloop] at heach
    rw [Function.update_self]
    exact (List.mem_cons.mp heach).resolve_left hne
  · rwa [Function.update_of_ne hother]

theorem mem_loops_queueInLoop_self (server : ChatServer) (request : Nat)
    (callback : Callback) :
    ⟨request, callback⟩ ∈
      (server.queueInLoop config request (some callback)).loops
        (config.loopOf callback.conn) := by
  simp [ChatServer.queueInLoop]

theorem mem_loops_queueInLoop_of_mem {server : ChatServer} {request : Nat}
    {callback : Option Callback} {loop : Nat} {functor : Functor}
    (hfunctor : functor ∈ server.loops loop) :
    functor ∈ (server.queueInLoop config request callback).loops loop := by
  cases callback with
  | none => exact hfunctor
  | some done =>
      simp only [ChatServer.queueInLoop]
      by_cases hloop : loop = config.loopOf done.conn
      · subst hloop
        rw [Function.update_self]
        exact List.mem_append_left _ hfunctor
      · rwa [Function.update_of_ne hloop]

/-- A callback first enters its user, and then responds. -/
theorem responds_afterCallback (node : ChatNode) (loop now : Nat)
    (functor : Functor) (rest : List Functor) :
    ChatServer.Responds functor.request Task.IsFollowUp
      (ChatServer.enter { node.server with
          loops := Function.update node.server.loops loop rest }
        functor.request (ChatServer.entry functor.callback))
      (node.afterCallback loop now functor rest).server :=
  ChatServer.responds_runCallback _ now functor.callback

/-- What a callback leaves of the queue, the loops and the numbers. -/
theorem afterCallback_frame (node : ChatNode) (loop now : Nat)
    (functor : Functor) (rest : List Functor) :
    (node.afterCallback loop now functor rest).server.requests =
        node.server.requests ∧
      (node.afterCallback loop now functor rest).server.loops =
        Function.update node.server.loops loop rest ∧
      ∃ tasks : List Task,
        (node.afterCallback loop now functor rest).server.queue =
            node.server.queue ++
              tasks.map (PoolTask.mk functor.request) ∧
          ∀ task ∈ tasks, task.IsFollowUp := by
  have hresponds := responds_afterCallback node loop now functor rest
  obtain ⟨tasks, hqueue, htasks⟩ := hresponds.queue
  refine ⟨?_, ?_, tasks, ?_, htasks⟩
  · rw [hresponds.requests]
    cases ChatServer.entry functor.callback <;> rfl
  · rw [hresponds.loops]
    cases ChatServer.entry functor.callback <;> rfl
  · rw [hqueue]
    cases ChatServer.entry functor.callback <;> rfl

theorem Numbered.step (hnode : Numbered node)
    (hstep : step config node action = some next) : Numbered next := by
  cases steps_of_step hstep with
  | receive conn envelope =>
      have hrequests := requests_receive node.server conn envelope
      constructor
      · intro item hitem
        show item.request < (node.server.receive conn envelope).requests
        rw [hrequests]
        rcases mem_queue_receive hitem with hold | ⟨hnew, _⟩
        · have hlt := hnode.queue item hold
          omega
        · omega
      · intro thread hthread
        show thread.op.request < (node.server.receive conn envelope).requests
        rw [hrequests]
        have hlt := hnode.threads thread hthread
        omega
      · intro loop functor hfunctor
        show functor.request < (node.server.receive conn envelope).requests
        rw [hrequests]
        have hold : functor ∈ node.server.loops loop := by
          rwa [← loops_receive node.server conn envelope]
        have hlt := hnode.loops loop functor hold
        omega
      · intro entry hentry
        show entry.1.request < (node.server.receive conn envelope).requests
        rw [hrequests]
        have hlt := hnode.finished entry hentry
        omega
  | start item rest hqueue =>
      have hmem (other : PoolTask) (hother : other ∈ item :: rest) :
          other.request < node.server.requests :=
        hnode.queue other (hqueue ▸ hother)
      constructor
      · intro other hother
        exact hmem other (List.mem_cons_of_mem item hother)
      · intro thread hthread
        rcases List.mem_append.mp hthread with hold | hnew
        · exact hnode.threads thread hold
        · rw [List.mem_singleton.mp hnew]
          exact hmem item List.mem_cons_self
      · exact hnode.loops
      · exact hnode.finished
  | @exec index call answer thread world rest hthread hprog heffect =>
      constructor
      · exact hnode.queue
      · intro other hother
        rcases List.mem_or_eq_of_mem_set hother with hold | rfl
        · exact hnode.threads other hold
        · exact hnode.threads thread (List.mem_of_getElem? hthread)
      · exact hnode.loops
      · exact hnode.finished
  | @finish index thread callback hthread hprog =>
      have hlt := hnode.threads thread (List.mem_of_getElem? hthread)
      have hrequests :=
        queueInLoop_requests config node.server thread.op.request callback
      have hqueue :=
        queueInLoop_queue config node.server thread.op.request callback
      constructor
      · intro item hitem
        exact hrequests ▸ hnode.queue item (hqueue ▸ hitem)
      · intro other hother
        exact hrequests ▸
          hnode.threads other (List.mem_of_mem_eraseIdx hother)
      · intro loop functor hfunctor
        show functor.request < ChatServer.requests _
        rw [hrequests]
        rcases mem_loops_queueInLoop hfunctor with hold | ⟨_, hrequest⟩
        · exact hnode.loops loop functor hold
        · rw [hrequest]
          exact hlt
      · intro entry hentry
        show entry.1.request < ChatServer.requests _
        rw [hrequests]
        rcases List.mem_cons.mp hentry with rfl | hold
        · exact hlt
        · exact hnode.finished entry hold
  | callback loop now functor rest hloop =>
      obtain ⟨hrequests, hloops, tasks, hqueue, _⟩ :=
        afterCallback_frame node loop now functor rest
      have hlt : functor.request < node.server.requests :=
        hnode.loops loop functor (hloop ▸ List.mem_cons_self)
      constructor
      · intro item hitem
        rw [hrequests]
        rw [hqueue] at hitem
        rcases List.mem_append.mp hitem with hold | hnew
        · exact hnode.queue item hold
        · obtain ⟨task, _, rfl⟩ := List.mem_map.mp hnew
          exact hlt
      · intro thread hthread
        rw [hrequests]
        exact hnode.threads thread hthread
      · intro other each heach
        rw [hrequests]
        rw [hloops] at heach
        exact hnode.loops other each (mem_loops_of_mem_rest hloop heach)
      · intro entry hentry
        rw [hrequests]
        exact hnode.finished entry hentry
  | _ => exact ⟨hnode.queue, hnode.threads, hnode.loops, hnode.finished⟩

theorem numbered_start (world : NodeWorld) :
    Numbered { world := world } := by
  constructor <;> simp [ChatServer.initial]

end Numbers

/-! ## Contexts of connections -/

section Contexts

variable {node : ChatNode}

theorem getContext_of_conns {manager other : SessionManager}
    (hconns : other.conns = manager.conns) (conn : Conn) :
    other.getContext conn = manager.getContext conn := by
  rw [SessionManager.getContext, hconns]
  rfl

/-- A reception changes contexts by logging out only. -/
theorem getContext_receive {server : ChatServer} {conn other : Conn}
    {envelope : Envelope} {session : Session}
    (hcontext : (server.receive conn envelope).sessions.getContext other =
      some session) (hauth : session.authenticated = true) :
    server.sessions.getContext other = some session := by
  rw [getContext_of_conns
    (ChatServer.responds_receive server conn envelope).conns] at hcontext
  cases envelope with
  | logoutReq req =>
      have hleft : (server.sessions.deauthenticate conn).getContext other =
          some session := hcontext
      rw [SessionManager.getContext_deauthenticate] at hleft
      split at hleft
      · cases hleft
        cases hauth
      · exact hleft
  | _ => exact hcontext

theorem getContext_afterCallback {loop now : Nat} {functor : Functor}
    {rest : List Functor} {conn : Conn} {session : Session}
    (hcontext : (node.afterCallback loop now functor
      rest).server.sessions.getContext conn = some session) :
    node.server.sessions.getContext conn = some session ∨
      ∃ result, ChatServer.entry functor.callback =
          some (conn, result, session.token) ∧
        session.uid = result.userInfo.uid := by
  have hresponds := responds_afterCallback node loop now functor rest
  rw [getContext_of_conns hresponds.conns] at hcontext
  cases hentry : ChatServer.entry functor.callback with
  | none =>
      rw [hentry] at hcontext
      exact .inl hcontext
  | some login =>
      obtain ⟨target, result, token⟩ := login
      rw [hentry] at hcontext
      have hentered : (node.server.sessions.authenticate target
          result.userInfo.uid token).getContext conn = some session :=
        hcontext
      rw [SessionManager.getContext_authenticate] at hentered
      split at hentered
      · rename_i heq
        subst heq
        cases hentered
        exact .inr ⟨result, rfl, rfl⟩
      · exact .inl hentered

end Contexts

/-! ## Queries -/

section Queries

variable {db after : Database} {statement : Statement}
  {outcome : QueryOutcome statement}

theorem query_of_effect
    (heffect : db.effect (.query statement) outcome = some after) :
    outcome.executed = true ∧ after = (db.execStatement statement).1 ∧
        (outcome.result = none ∨
          outcome.result = (db.execStatement statement).2) ∨
      outcome.executed = false ∧ outcome.result = none ∧ after = db := by
  cases hexecuted : outcome.executed with
  | true =>
      simp only [Database.effect, hexecuted, if_true] at heffect
      split at heffect <;> cases heffect
      rename_i hresult
      exact .inl ⟨rfl, rfl, hresult⟩
  | false =>
      simp only [Database.effect, hexecuted, Bool.false_eq_true,
        if_false] at heffect
      split at heffect <;> cases heffect
      rename_i hresult
      exact .inr ⟨rfl, hresult, rfl⟩

theorem executed_of_result {result : statement.Result}
    (heffect : db.effect (.query statement) outcome = some after)
    (hresult : outcome.result = some result) :
    outcome.executed = true ∧ after = (db.execStatement statement).1 ∧
      (db.execStatement statement).2 = some result := by
  rcases query_of_effect heffect with
    ⟨hexecuted, hafter, hnone | hsome⟩ | ⟨_, hnone, _⟩
  · rw [hresult] at hnone
    cases hnone
  · exact ⟨hexecuted, hafter, by rw [← hsome, hresult]⟩
  · rw [hresult] at hnone
    cases hnone

end Queries

/-! ## Undisturbed calls -/

def queryOf (index : Nat) (statement : Statement)
    (result : statement.Result) : List Action :=
  [.exec index (.sql .getConnection) true,
    .exec index (.sql (.query statement)) ⟨true, some result⟩,
    .exec index (.sql .returnConnection) ()]

def commandOf (index : Nat) (command : RedisCommand) : Action :=
  .exec index (.session (.redis (.command command))) ⟨true, none⟩

/-- The calls of a login by password on node `node-1`, up to the reading of
the friend list. -/
def loginCalls (index : Nat) (uid passwd token : String) : List Action :=
  [.exec index (.sql .getConnection) true,
    .exec index (.sql (.query (.selectVerified uid passwd)))
      ⟨true, some [uid]⟩,
    .exec index (.sql (.query (.updateLastLogin uid))) ⟨true, some ()⟩,
    .exec index (.sql .returnConnection) ()] ++
  queryOf index (.selectUser uid) (some { uid := uid }) ++
  [.exec index (.session (.repository .generateToken)) token,
    .exec index (.session (.redis .getConnection)) true,
    .exec index (.session (.redis .time)) (0 : Int),
    commandOf index (.hmset (sessionKey token)
      [("uid", uid), ("node_id", "node-1"), ("login_time", "0")]),
    commandOf index (.expire (sessionKey token) 604800),
    commandOf index (.set (onlineKey uid) "node-1"),
    commandOf index (.hset userRoute uid "node-1")]

/-- The remaining calls of a login. -/
def collectCalls (index : Nat) (uid : String) (friends : List UserInfo) :
    List Action :=
  queryOf index (.selectFriends uid) friends ++
    queryOf index (.selectPendingRequesters uid) [] ++
    queryOf index (.selectUndelivered uid) []

/-- A user logs in while nothing else is going on. -/
def quietLogin (config : ServerConfig) (conn : Conn)
    (uid passwd token : String) (friends : List UserInfo) : List Action :=
  [.receive conn (.loginReq { uid := uid, passwd := passwd }), .start] ++
    loginCalls 0 uid passwd token ++ collectCalls 0 uid friends ++
    [.finish 0, .callback (config.loopOf conn) 0]

section Calls

variable {holds : Action → Prop} {index : Nat}

/-- What holds of taking and returning a connection and of one statement
holds of all calls of a query. -/
theorem forall_mem_queryOf {statement : Statement}
    {result : statement.Result}
    (hget : holds (.exec index (.sql .getConnection) true))
    (hreturn : holds (.exec index (.sql .returnConnection) ()))
    (hquery : holds
      (.exec index (.sql (.query statement)) ⟨true, some result⟩)) :
    ∀ action ∈ queryOf index statement result, holds action := by
  simp only [queryOf, List.forall_mem_cons]
  exact ⟨hget, hquery, hreturn, List.forall_mem_nil holds⟩

theorem forall_mem_loginCalls {uid passwd token : String}
    (hget : holds (.exec index (.sql .getConnection) true))
    (hreturn : holds (.exec index (.sql .returnConnection) ()))
    (hverified : holds (.exec index
      (.sql (.query (.selectVerified uid passwd))) ⟨true, some [uid]⟩))
    (hupdate : holds (.exec index
      (.sql (.query (.updateLastLogin uid))) ⟨true, some ()⟩))
    (hselect : holds (.exec index
      (.sql (.query (.selectUser uid))) ⟨true, some (some { uid := uid })⟩))
    (htoken : holds
      (.exec index (.session (.repository .generateToken)) token))
    (hconn : holds (.exec index (.session (.redis .getConnection)) true))
    (htime : holds (.exec index (.session (.redis .time)) (0 : Int)))
    (hcommand : ∀ command, holds (commandOf index command)) :
    ∀ action ∈ loginCalls index uid passwd token, holds action := by
  simp only [loginCalls, List.forall_mem_append, List.forall_mem_cons]
  exact ⟨⟨⟨hget, hverified, hupdate, hreturn, List.forall_mem_nil holds⟩,
    forall_mem_queryOf hget hreturn hselect⟩, htoken, hconn, htime,
    hcommand _, hcommand _, hcommand _, hcommand _,
    List.forall_mem_nil holds⟩

theorem forall_mem_collectCalls {uid : String} {friends : List UserInfo}
    (hget : holds (.exec index (.sql .getConnection) true))
    (hreturn : holds (.exec index (.sql .returnConnection) ()))
    (hfriends : holds (.exec index
      (.sql (.query (.selectFriends uid))) ⟨true, some friends⟩))
    (hpending : holds (.exec index
      (.sql (.query (.selectPendingRequesters uid))) ⟨true, some []⟩))
    (hundelivered : holds (.exec index
      (.sql (.query (.selectUndelivered uid))) ⟨true, some []⟩)) :
    ∀ action ∈ collectCalls index uid friends, holds action := by
  simp only [collectCalls, List.forall_mem_append]
  exact ⟨⟨forall_mem_queryOf hget hreturn hfriends,
    forall_mem_queryOf hget hreturn hpending⟩,
    forall_mem_queryOf hget hreturn hundelivered⟩

theorem forall_mem_quietLogin {config : ServerConfig} {conn : Conn}
    {uid passwd token : String} {friends : List UserInfo}
    (hreceive : holds
      (.receive conn (.loginReq { uid := uid, passwd := passwd })))
    (hstart : holds .start)
    (hlogin : ∀ action ∈ loginCalls 0 uid passwd token, holds action)
    (hcollect : ∀ action ∈ collectCalls 0 uid friends, holds action)
    (hfinish : holds (.finish 0))
    (hcallback : holds (.callback (config.loopOf conn) 0)) :
    ∀ action ∈ quietLogin config conn uid passwd token friends,
      holds action := by
  simp only [quietLogin, List.forall_mem_append, List.forall_mem_cons]
  exact ⟨⟨⟨⟨hreceive, hstart, List.forall_mem_nil holds⟩, hlogin⟩,
    hcollect⟩, hfinish, hcallback, List.forall_mem_nil holds⟩

end Calls

def twoWorkers : ServerConfig := { threads := 2, loopOf := fun _ => 0 }

def annRegistered : Database where
  users := KeyedTable.empty.insertIgnore { uid := "ann" }
  credentials := KeyedTable.empty.insertIgnore ⟨"ann", "secret"⟩

def annLogin : List Action :=
  quietLogin twoWorkers 0 "ann" "secret" "t" []

end ChatNode

end MuduoChat
