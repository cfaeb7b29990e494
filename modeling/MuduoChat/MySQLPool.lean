import MuduoChat.InterleavedPrograms
import MuduoChat.MySQLRepos
import Mathlib.Data.Finset.Basic

/-!
# The pool of MySQL connections

`MySQLPool` of `db.cc`, with the handles of the client library made explicit.
A section under the pool's mutex is one call, and so is every use of the
client library; the answers of the library are arbitrary, except that
`mysql_init` never gives a handle that is still open.

The repository methods are programs over implicit connections.  `lower`
keeps the connection of such a program in a local variable, as the methods
do, and replaces taking and returning a connection by the pool's own code.
-/

namespace MuduoChat

/-! ## The state and the calls -/

abbrev Handle := Nat

/-- `conns` is filled by `init` alone.  `opened` has the handles that
`mysql_init` gave and that `mysql_close` was not called on since. -/
structure MySQLPool where
  conns : List Handle := []
  idle : List Handle := []
  activeConns : Int := 0
  opened : Finset Handle := ∅

/-- The functions that call `mysql_close`. -/
inductive CloseSite where
  | createConnection
  | getConnection
  | verifyUser
  | destructor
  deriving DecidableEq

/-- `waitIdle` is the locked part of `getConnection`, `release` that of
`returnConnection`; `deactivate` is the lone `activeConns_--` and `adopt` the
two insertions of `init`.  A connection of the library's calls is a pointer,
so that it may be null. -/
inductive PoolCall where
  | waitIdle
  | deactivate
  | release (conn : Handle)
  | adopt (conn : Handle)
  | mysqlInit
  | realConnect (conn : Option Handle)
  | createTable (conn : Option Handle) (name : String)
  | ping (conn : Option Handle)
  | query (conn : Option Handle) (statement : Statement)
  | mysqlClose (conn : Option Handle) (site : CloseSite)
  deriving DecidableEq

abbrev PoolCall.Answer : PoolCall → Type
  | waitIdle | mysqlInit => Option Handle
  | deactivate | release _ | adopt _ | mysqlClose .. => Unit
  | realConnect _ | createTable .. | ping _ => Bool
  | query _ statement => Option statement.Result

abbrev PoolProg := Prog PoolCall PoolCall.Answer

namespace MySQLPool

def effect (pool : MySQLPool) :
    (call : PoolCall) → call.Answer → Option MySQLPool
  | .waitIdle, none => if pool.idle = [] then some pool else none
  | .waitIdle, some conn =>
      if pool.idle.head? = some conn then
        some { pool with
          idle := pool.idle.tail, activeConns := pool.activeConns + 1 }
      else none
  | .deactivate, _ =>
      some { pool with activeConns := pool.activeConns - 1 }
  | .release conn, _ =>
      some { pool with
        idle := pool.idle ++ [conn], activeConns := pool.activeConns - 1 }
  | .adopt conn, _ =>
      some { pool with
        conns := pool.conns ++ [conn], idle := pool.idle ++ [conn] }
  | .mysqlInit, none => some pool
  | .mysqlInit, some conn =>
      if conn ∈ pool.opened then none
      else some { pool with opened := insert conn pool.opened }
  | .mysqlClose (some conn) _, _ =>
      some { pool with opened := pool.opened.erase conn }
  | .mysqlClose none _, _ | .realConnect _, _ | .createTable .., _
  | .ping _, _ | .query .., _ => some pool

/-! ## The methods of the pool -/

def createTables (conn : Option Handle) : List String → PoolProg Bool
  | [] => return true
  | name :: rest => do
      let ok ← Prog.request (PoolCall.createTable conn name)
      if !ok then
        return false
      else
        createTables conn rest

def ensureTable (conn : Option Handle) : PoolProg Bool :=
  createTables conn ["users", "friendships", "rooms", "room_members",
    "messages", "offline_messages", "sessions"]

def createConnection : PoolProg (Option Handle) := do
  let conn ← Prog.request PoolCall.mysqlInit
  if conn.isNone then
    return none
  else
    let connected ← Prog.request (PoolCall.realConnect conn)
    if !connected then
      let _ ← Prog.request (PoolCall.mysqlClose conn .createConnection)
      return none
    else
      let ready ← ensureTable conn
      if !ready then
        let _ ← Prog.request (PoolCall.mysqlClose conn .createConnection)
        return none
      else
        return conn

/-- A connection that does not answer the ping is closed and replaced; when
that fails, only the counter is corrected. -/
def getConnection : PoolProg (Option Handle) := do
  let conn ← Prog.request PoolCall.waitIdle
  if conn.isNone then
    return none
  else
    let alive ← Prog.request (PoolCall.ping conn)
    if alive then
      return conn
    else
      let _ ← Prog.request (PoolCall.mysqlClose conn .getConnection)
      let fresh ← createConnection
      if fresh.isNone then
        let _ ← Prog.request PoolCall.deactivate
        return none
      else
        return fresh

def returnConnection : Option Handle → PoolProg Unit
  | none => return ()
  | some conn => Prog.request (PoolCall.release conn)

def fill : Nat → PoolProg Bool
  | 0 => return true
  | count + 1 => do
      match ← createConnection with
      | none => return false
      | some conn =>
          let _ ← Prog.request (PoolCall.adopt conn)
          fill count

def sizeOf (poolSize : Int) (hardwareConcurrency : Nat) : Nat :=
  if poolSize ≤ 0 then
    if hardwareConcurrency = 0 then 8 else hardwareConcurrency
  else poolSize.toNat

def init (poolSize : Int) (hardwareConcurrency : Nat) : PoolProg Bool :=
  fill (sizeOf poolSize hardwareConcurrency)

def destructor : List Handle → PoolProg Unit
  | [] => return ()
  | conn :: rest => do
      let _ ← Prog.request (PoolCall.mysqlClose (some conn) .destructor)
      destructor rest

/-- The pool after `init` has run alone and has returned true. -/
def Initialized (poolSize : Int) (hardwareConcurrency : Nat)
    (pool : MySQLPool) : Prop :=
  ∃ log, Prog.Reaches (init poolSize hardwareConcurrency) log (.ret true) ∧
    Prog.track effect {} log = some pool

end MySQLPool

/-! ## The repository methods over the pool -/

/-- `conn` is the method's local variable. -/
def lower {α : Type} : Option Handle → DbProg α → PoolProg α
  | _, .ret value => .ret value
  | _, .call .getConnection next => do
      let conn ← MySQLPool.getConnection
      lower conn (next conn.isSome)
  | conn, .call (.query statement) next => do
      let result ← Prog.request (PoolCall.query conn statement)
      lower conn (next result)
  | conn, .call .returnConnection next => do
      MySQLPool.returnConnection conn
      lower conn (next ())
  | conn, .call .closeConnection next => do
      let _ ← Prog.request (PoolCall.mysqlClose conn .verifyUser)
      lower conn (next ())

inductive RepositoryMethod where
  | registerUser (uid passwd nickname email : String)
  | verifyUser (uid passwd : String)
  | userExists (uid : String)
  | getUserInfo (uid : String)
  | updateLastLogin (uid : String)
  | createRoom (name creator : String)
  | getRoomByName (name : String)
  | getRoomById (roomId : Int)
  | roomExists (name : String)
  | addRoomMember (roomId : Int) (uid : String) (role : Int)
  | removeRoomMember (roomId : Int) (uid : String)
  | getRoomMembers (roomId : Int)
  | getUserRooms (uid : String)
  | createSession (uid token nodeId : String) (ttlSeconds : Int)
  | getSessionByToken (token : String)
  | revokeSession (token : String)
  | revokeAllSessions (uid : String)
  | isValidSession (token : String)
  | updateSessionNode (token nodeId : String)
  | addFriendRequest (sender target message : String)
  | respondFriendRequest (requester responder : String) (accepted : Bool)
  | removeFriends (uid₁ uid₂ : String)
  | getFriendList (uid : String)
  | getPendingRequests (uid : String)
  | storeMessage (sender recipient room content : String)
  | getMessage (msgId : Int)
  | recallMessage (msgId : Int) (uid : String)
  | addOfflineMessage (targetUid : String) (msgId : Int)
  | getUndeliveredMessages (uid : String)
  | markMessagesDelivered (uid : String)

/-- The method as a program that starts without a connection; what it returns
to its caller is dropped. -/
def discard {α : Type} (method : DbProg α) : DbProg Unit := do
  let _ ← method
  return ()

def RepositoryMethod.body : RepositoryMethod → DbProg Unit
  | registerUser uid passwd nickname email =>
      discard (MySQLUserRepo.registerUser uid passwd nickname email)
  | verifyUser uid passwd => discard (MySQLUserRepo.verifyUser uid passwd)
  | userExists uid => discard (MySQLUserRepo.userExists uid)
  | getUserInfo uid => discard (MySQLUserRepo.getUserInfo uid)
  | updateLastLogin uid => discard (MySQLUserRepo.updateLastLogin uid)
  | createRoom name creator =>
      discard (MySQLRoomRepo.createRoom name creator)
  | getRoomByName name => discard (MySQLRoomRepo.getRoomByName name)
  | getRoomById roomId => discard (MySQLRoomRepo.getRoomById roomId)
  | roomExists name => discard (MySQLRoomRepo.roomExists name)
  | addRoomMember roomId uid role =>
      discard (MySQLRoomRepo.addRoomMember roomId uid role)
  | removeRoomMember roomId uid =>
      discard (MySQLRoomRepo.removeRoomMember roomId uid)
  | getRoomMembers roomId => discard (MySQLRoomRepo.getRoomMembers roomId)
  | getUserRooms uid => discard (MySQLRoomRepo.getUserRooms uid)
  | createSession uid token nodeId ttlSeconds =>
      discard (MySQLSessionRepo.createSession uid token nodeId ttlSeconds)
  | getSessionByToken token =>
      discard (MySQLSessionRepo.getSessionByToken token)
  | revokeSession token => discard (MySQLSessionRepo.revokeSession token)
  | revokeAllSessions uid =>
      discard (MySQLSessionRepo.revokeAllSessions uid)
  | isValidSession token => discard (MySQLSessionRepo.isValidSession token)
  | updateSessionNode token nodeId =>
      discard (MySQLSessionRepo.updateSessionNode token nodeId)
  | addFriendRequest sender target message =>
      discard (MySQLFriendRepo.addFriendRequest sender target message)
  | respondFriendRequest requester responder accepted =>
      discard (MySQLFriendRepo.respondFriendRequest requester responder
        accepted)
  | removeFriends uid₁ uid₂ =>
      discard (MySQLFriendRepo.removeFriends uid₁ uid₂)
  | getFriendList uid => discard (MySQLFriendRepo.getFriendList uid)
  | getPendingRequests uid =>
      discard (MySQLFriendRepo.getPendingRequests uid)
  | storeMessage sender recipient room content =>
      discard (MySQLMessageRepo.storeMessage sender recipient room content)
  | getMessage msgId => discard (MySQLMessageRepo.getMessage msgId)
  | recallMessage msgId uid =>
      discard (MySQLMessageRepo.recallMessage msgId uid)
  | addOfflineMessage targetUid msgId =>
      discard (MySQLMessageRepo.addOfflineMessage targetUid msgId)
  | getUndeliveredMessages uid =>
      discard (MySQLMessageRepo.getUndeliveredMessages uid)
  | markMessagesDelivered uid =>
      discard (MySQLMessageRepo.markMessagesDelivered uid)

def RepositoryMethod.program (method : RepositoryMethod) : PoolProg Unit :=
  lower none method.body

/-- `init` may also run beside the methods. -/
inductive PoolOp where
  | init (poolSize : Int) (hardwareConcurrency : Nat)
  | method (called : RepositoryMethod)

def PoolOp.program : PoolOp → PoolProg Unit
  | .init poolSize hardwareConcurrency => do
      let _ ← MySQLPool.init poolSize hardwareConcurrency
      return ()
  | .method called => called.program

/-- Threads that run over one pool. -/
def poolSystem {Op : Type} (program : Op → PoolProg Unit) :
    ThreadSystem MySQLPool Op Empty PoolCall PoolCall.Answer Unit where
  program := program
  effect := MySQLPool.effect
  disturb := fun _ event => event.elim

abbrev PoolState (Op : Type) :=
  Interleaving MySQLPool Op PoolCall PoolCall.Answer Unit

abbrev PoolMove (Op : Type) := Move Op Empty PoolCall PoolCall.Answer

/-! ## What a thread holds -/

/-- A thread of a method has nothing, or a connection of the pool, or the
place of one whose handle it has closed.  The thread of `init` owns at most
the handle it is about to add. -/
inductive Holding where
  | free
  | holding (conn : Handle)
  | reconnecting
  | filling
  | filled (conn : Handle)
  deriving DecidableEq

namespace Holding

def handles : Holding → List Handle
  | holding conn | filled conn => [conn]
  | free | reconnecting | filling => []

/-- The places of the pool that a thread occupies. -/
def slots : Holding → Nat
  | holding _ | reconnecting => 1
  | free | filling | filled _ => 0

def uses (phase : Holding) (conn : Option Handle) : Option Holding :=
  if conn.toList = phase.handles ∧ conn.isSome then some phase else none

/-- What a thread may do and what it then holds. -/
def advance : Holding → (call : PoolCall) → call.Answer → Option Holding
  | free, .waitIdle, none => some free
  | free, .waitIdle, some conn => some (holding conn)
  | holding held, .release conn, _ =>
      if conn = held then some free else none
  | holding held, .mysqlClose conn .getConnection, _
  | holding held, .mysqlClose conn .createConnection, _ =>
      if conn = some held then some reconnecting else none
  | holding held, .mysqlClose conn .verifyUser, _ =>
      if conn = some held then some free else none
  | reconnecting, .mysqlInit, none => some reconnecting
  | reconnecting, .mysqlInit, some conn => some (holding conn)
  | reconnecting, .deactivate, _ => some free
  | filling, .mysqlInit, none => some filling
  | filling, .mysqlInit, some conn => some (filled conn)
  | filled held, .adopt conn, _ =>
      if conn = held then some filling else none
  | filled held, .mysqlClose conn .createConnection, _ =>
      if conn = some held then some filling else none
  | phase, .realConnect conn, _ | phase, .createTable conn _, _
  | phase, .ping conn, _ | phase, .query conn _, _ => phase.uses conn
  | _, _, _ => none

end Holding

end MuduoChat
