import MuduoChat.CStrings
import MuduoChat.ExpiringStores
import MuduoChat.InterleavedPrograms
import MuduoChat.Services

/-!
# Sessions in Redis

`RedisSessionRepo` as programs over single Redis commands, and the login
service on top of it.  A command may fail: then no reply arrives, and the
server may or may not have executed it.  The other repositories stay open:
their calls get any answer.

A session is a hash under its token that expires; beside it the repository
keeps, for every user, the node the user is on, once under a key of its own
and once in a common hash.

Commands are formats with C strings for arguments, and replies hold C
strings: two tokens that agree up to their first NUL name one session, and
two such uids one user.
-/

namespace MuduoChat

abbrev RedisStore := ExpiringStore String String String

abbrev RedisCommand := StoreCommand String String String

def sessionKey (token : String) : String := "session:" ++ token

def onlineKey (uid : String) : String := "online:" ++ uid

def userRoute : String := "user_route"

/-- What `redisCommand` leads to: whether the server executed the command,
and the reply, if one arrived. -/
structure CommandOutcome where
  executed : Bool
  reply : Option (StoreReply String)
  deriving DecidableEq

inductive RedisCall where
  | getConnection
  | time
  | command (command : RedisCommand)
  deriving DecidableEq

abbrev RedisCall.Answer : RedisCall → Type
  | getConnection => Bool
  | time => Int
  | command _ => CommandOutcome

abbrev RedisProg := Prog RedisCall RedisCall.Answer

abbrev redisCommand (command : RedisCommand) : RedisProg CommandOutcome :=
  Prog.request (RedisCall.command command)

/-! ## RedisSessionRepo -/

namespace RedisSessionRepo

def withConnection {α : Type} (unavailable : α) (body : RedisProg α) :
    RedisProg α := do
  let conn ← Prog.request RedisCall.getConnection
  if !conn then
    return unavailable
  else
    body

def createSession (uid token nodeId : String) (ttlSeconds : Int) :
    RedisProg Bool :=
  withConnection false do
    let key := cstr (sessionKey token)
    let now ← Prog.request RedisCall.time
    let _ ← redisCommand (.hmset key
      [("uid", cstr uid), ("node_id", cstr nodeId),
        ("login_time", toString now)])
    let _ ← redisCommand (.expire key ttlSeconds)
    let _ ← redisCommand (.set (onlineKey (cstr uid)) (cstr nodeId))
    let _ ← redisCommand (.hset userRoute (cstr uid) (cstr nodeId))
    return true

/-- The session that a reply to `HMGET … uid node_id` describes. -/
def readSession (token : String) : Option (StoreReply String) →
    Option SessionInfo
  | some (.array (some uid :: nodeId :: _)) =>
      some
        { uid := cstr uid
          token := token
          nodeId := (nodeId.map cstr).getD "" }
  | _ => none

def getSessionByToken (token : String) : RedisProg (Option SessionInfo) :=
  withConnection none do
    let outcome ← redisCommand
      (.hmget (cstr (sessionKey token)) ["uid", "node_id"])
    return readSession token outcome.reply

def revokeSession (token : String) : RedisProg Bool :=
  withConnection false do
    let _ ← redisCommand (.del (cstr (sessionKey token)))
    return true

/-- No session key is touched. -/
def revokeAllSessions (uid : String) : RedisProg Bool :=
  withConnection false do
    let _ ← redisCommand (.get (onlineKey (cstr uid)))
    let _ ← redisCommand (.del (onlineKey (cstr uid)))
    let _ ← redisCommand (.hdel userRoute (cstr uid))
    return true

def isValidSession (token : String) : RedisProg Bool := do
  let session ← getSessionByToken token
  return session.isSome

def updateSessionNode (token nodeId : String) : RedisProg Bool :=
  withConnection false do
    let _ ← redisCommand
      (.hmset (cstr (sessionKey token)) [("node_id", cstr nodeId)])
    return true

end RedisSessionRepo

/-! ## The login service over Redis -/

inductive LoginCall where
  | redis (call : RedisCall)
  | repository (call : RepositoryCall)
  deriving DecidableEq

abbrev LoginCall.Answer : LoginCall → Type
  | redis call => call.Answer
  | repository call => call.Answer

abbrev LoginProg := Prog LoginCall LoginCall.Answer

def overRedis {α : Type} (prog : RedisProg α) : LoginProg α :=
  prog.translate fun call => Prog.request (LoginCall.redis call)

/-- The session repository is `RedisSessionRepo`; calls of the other
repositories are left as they are. -/
def answerSession : (call : RepositoryCall) → LoginProg call.Answer
  | .createSession uid token nodeId ttlSeconds =>
      overRedis (RedisSessionRepo.createSession uid token nodeId ttlSeconds)
  | .getSessionByToken token =>
      overRedis (RedisSessionRepo.getSessionByToken token)
  | .revokeSession token => overRedis (RedisSessionRepo.revokeSession token)
  | .revokeAllSessions uid =>
      overRedis (RedisSessionRepo.revokeAllSessions uid)
  | .updateSessionNode token nodeId =>
      overRedis (RedisSessionRepo.updateSessionNode token nodeId)
  | call => Prog.request (LoginCall.repository call)

inductive LoginOp where
  | login (uid passwd nodeId : String)
  | loginWithToken (token nodeId : String)
  | logout (uid token : String)

inductive LoginReply where
  | login (result : LoginResult)
  | logout (ok : Bool)

def LoginOp.service : LoginOp → ServiceProg LoginReply
  | login uid passwd nodeId => do
      let result ← LoginService.login uid passwd nodeId
      return .login result
  | loginWithToken token nodeId => do
      let result ← LoginService.loginWithToken token nodeId
      return .login result
  | logout uid token => do
      let ok ← LoginService.logout uid token
      return .logout ok

def LoginOp.program (op : LoginOp) : LoginProg LoginReply :=
  op.service.translate answerSession

/-- The store, and every token `generateToken` has given so far. -/
structure RedisWorld where
  store : RedisStore := {}
  drawn : List String := []

namespace RedisWorld

/-- A command that is executed changes the store, whether or not its reply
arrives; one that is not executed gives no reply or an error.  No token is
drawn twice, and none holds a NUL: tokens are hexadecimal digits. -/
def effect (world : RedisWorld) :
    (call : LoginCall) → call.Answer → Option RedisWorld
  | .redis (.command command), outcome =>
      if outcome.executed then
        if outcome.reply = none ∨
            outcome.reply = some (world.store.reply command) then
          some { world with store := world.store.execute command }
        else none
      else if outcome.reply = none ∨ outcome.reply = some .other then
        some world
      else none
  | .repository .generateToken, token =>
      if token ∈ world.drawn ∨ ¬ NulFree token then none
      else some { world with drawn := token :: world.drawn }
  | _, _ => some world

end RedisWorld

/-- Changes of the store that no command makes: time passes, or a key goes
away. -/
inductive RedisEvent where
  | advance (millis : Nat)
  | expire (key : String)

def RedisWorld.disturb (world : RedisWorld) :
    RedisEvent → Option RedisWorld
  | .advance millis =>
      some { world with store := world.store.advance millis }
  | .expire key => some { world with store := world.store.delete key }

def loginSystem : ThreadSystem RedisWorld LoginOp RedisEvent LoginCall
    LoginCall.Answer LoginReply where
  program := LoginOp.program
  effect := RedisWorld.effect
  disturb := RedisWorld.disturb

abbrev LoginState :=
  Interleaving RedisWorld LoginOp LoginCall LoginCall.Answer LoginReply

abbrev LoginThread := Thread LoginOp LoginCall LoginCall.Answer LoginReply

abbrev LoginMove := Move LoginOp RedisEvent LoginCall LoginCall.Answer

/-! ## Keys and sessions -/

@[simp] theorem sessionKey_inj {first second : String} :
    sessionKey first = sessionKey second ↔ first = second :=
  String.append_right_inj _

@[simp] theorem onlineKey_inj {first second : String} :
    onlineKey first = onlineKey second ↔ first = second :=
  String.append_right_inj _

@[simp] theorem cstr_sessionKey (token : String) :
    cstr (sessionKey token) = sessionKey (cstr token) := by
  rw [← String.toList_inj]
  simp [sessionKey]

theorem head_sessionKey (token : String) :
    (sessionKey token).toList.head? = some 's' := by
  simp [sessionKey]

theorem head_onlineKey (uid : String) :
    (onlineKey uid).toList.head? = some 'o' := by
  simp [onlineKey]

@[simp] theorem onlineKey_ne_sessionKey (uid token : String) :
    onlineKey uid ≠ sessionKey token := by
  intro heq
  have hhead := head_onlineKey uid
  rw [heq, head_sessionKey] at hhead
  exact absurd hhead (by decide)

@[simp] theorem userRoute_ne_sessionKey (token : String) :
    userRoute ≠ sessionKey token := by
  intro heq
  have hhead := head_sessionKey token
  rw [← heq] at hhead
  exact absurd hhead (by decide)

@[simp] theorem userRoute_ne_onlineKey (uid : String) :
    userRoute ≠ onlineKey uid := by
  intro heq
  have hhead := head_onlineKey uid
  rw [← heq] at hhead
  exact absurd hhead (by decide)

/-- Who is found does not depend on how the token was written. -/
theorem map_uid_readSession (first second : String)
    (reply : Option (StoreReply String)) :
    (RedisSessionRepo.readSession first reply).map SessionInfo.uid =
      (RedisSessionRepo.readSession second reply).map SessionInfo.uid := by
  unfold RedisSessionRepo.readSession
  split <;> rfl

theorem isSome_readSession (first second : String)
    (reply : Option (StoreReply String)) :
    (RedisSessionRepo.readSession first reply).isSome =
      (RedisSessionRepo.readSession second reply).isSome := by
  have hsome := congrArg Option.isSome
    (map_uid_readSession first second reply)
  simpa only [Option.isSome_map] using hsome

end MuduoChat
