import MuduoChat.MySQLRepos
import MuduoChat.RedisSessionRepo

/-!
# The two session repositories side by side

`RedisSessionRepo` and `MySQLSessionRepo` are driven by the same calls and
the same clock.  Redis keeps a session until a deadline in milliseconds;
MySQL compares times that are cut to seconds, so that it drops a session
before Redis does.  Only MySQL finds the sessions of a user: in Redis
`revokeAllSessions` leaves them as they are.  And a token is looked up as it
is written up to a NUL in Redis, but by the collation of its column in MySQL.
Apart from these three differences the repositories answer alike.
-/

namespace MuduoChat

/-! ## Both repositories -/

/-- Redis with a connection for every caller, executing every command. -/
def serveRedis (store : RedisStore) :
    (call : RedisCall) → RedisStore × call.Answer
  | .getConnection => (store, true)
  | .time => (store, store.clock / 1000)
  | .command command =>
      (store.execute command, ⟨true, some (store.reply command)⟩)

structure SessionBackends where
  redis : RedisStore
  mysql : Database
  /-- The tokens `createSession` was called with. -/
  created : List String := []

inductive SessionAction where
  | createSession (uid token nodeId : String) (ttlSeconds : Int)
  | revokeSession (token : String)
  | revokeAllSessions (uid : String)
  | updateSessionNode (token nodeId : String)
  | advance (millis : Nat)

namespace SessionBackends

def both {α β : Type} (state : SessionBackends) (redis : RedisProg α)
    (mysql : DbProg β) : SessionBackends :=
  { state with
    redis := (Prog.run serveRedis state.redis redis).1
    mysql := (Prog.run Database.exec state.mysql mysql).1 }

/-- A token as `generateToken` makes them, without a NUL, that the database
takes for none that was used before. -/
def Fresh (state : SessionBackends) (token : String) : Prop :=
  NulFree token ∧ ∀ other ∈ state.created,
    ¬ state.mysql.collation.same other token = true

instance (state : SessionBackends) (token : String) :
    Decidable (state.Fresh token) :=
  inferInstanceAs (Decidable (_ ∧ _))

/-- A session is created for a user whom the database knows by this uid, and
with a fresh token. -/
def step (state : SessionBackends) : SessionAction → Option SessionBackends
  | .createSession uid token nodeId ttlSeconds =>
      if state.Fresh token ∧ state.mysql.hasUser uid then
        some { state.both
            (RedisSessionRepo.createSession uid token nodeId ttlSeconds)
            (MySQLSessionRepo.createSession uid token nodeId ttlSeconds) with
          created := token :: state.created }
      else none
  | .revokeSession token =>
      some (state.both (RedisSessionRepo.revokeSession token)
        (MySQLSessionRepo.revokeSession token))
  | .revokeAllSessions uid =>
      some (state.both (RedisSessionRepo.revokeAllSessions uid)
        (MySQLSessionRepo.revokeAllSessions uid))
  | .updateSessionNode token nodeId =>
      some (state.both (RedisSessionRepo.updateSessionNode token nodeId)
        (MySQLSessionRepo.updateSessionNode token nodeId))
  | .advance millis =>
      some { state with
        redis := state.redis.advance millis
        mysql := { state.mysql with
          now := (state.redis.clock + millis) / 1000 } }

/-- No sessions yet; everything else in the database is arbitrary. -/
def start (db : Database) (clock : Int) : SessionBackends where
  redis := { clock := clock }
  mysql := { db with sessions := KeyedTable.empty, now := clock / 1000 }

def redisSession (state : SessionBackends) (token : String) :
    Option SessionInfo :=
  (Prog.run serveRedis state.redis
    (RedisSessionRepo.getSessionByToken token)).2

def mysqlSession (state : SessionBackends) (token : String) :
    Option SessionInfo :=
  (Prog.run Database.exec state.mysql
    (MySQLSessionRepo.getSessionByToken token)).2

/-- Every lookup of the token gives the same in both repositories. -/
structure AnswersAlike (state : SessionBackends) (token : String) : Prop where
  isValid : (Prog.run serveRedis state.redis
      (RedisSessionRepo.isValidSession token)).2 =
    (Prog.run Database.exec state.mysql
      (MySQLSessionRepo.isValidSession token)).2
  session :
    (state.redisSession token).map (fun info => (info.uid, info.nodeId)) =
      (state.mysqlSession token).map fun info => (info.uid, info.nodeId)

/-- The repositories answer alike for the tokens of all sessions, and for
whatever other tokens they are asked about. -/
def Interchangeable (asked : Set String) (state : SessionBackends) : Prop :=
  ∀ token, token ∈ state.created ∨ token ∈ asked →
    state.AnswersAlike token

/-- Redis, which gets the token up to a NUL, and MySQL, where the collation
decides, agree on whether this is the session it names. -/
def NamesRow (state : SessionBackends) (token : String)
    (row : SessionRow) : Prop :=
  row.token = cstr token ↔ state.mysql.tokenIs token row = true

/-- `revokeAllSessions` is called for users without a valid session only, a
token that is revoked or updated names the same valid sessions in both
stores, unless the update changes nothing, and time does not stop after the
second in which MySQL drops a valid session and before the millisecond in
which Redis does. -/
def Aligned (state : SessionBackends) : SessionAction → Prop
  | .revokeSession token =>
      ∀ row ∈ state.mysql.sessions, state.mysql.Valid row →
        state.NamesRow token row
  | .revokeAllSessions uid =>
      ∀ row ∈ state.mysql.sessions, state.mysql.Valid row →
        ¬ state.mysql.collation.same row.uid uid = true
  | .updateSessionNode token nodeId =>
      ∀ row ∈ state.mysql.sessions, state.mysql.Valid row →
        state.NamesRow token row ∨ cstr row.nodeId = cstr nodeId
  | .advance millis =>
      ∀ row ∈ state.mysql.sessions, state.mysql.Valid row →
        ∀ deadline,
          state.redis.deadline (sessionKey row.token) = some deadline →
            state.redis.clock + millis < 1000 * row.expiredAt ∨
              deadline < state.redis.clock + millis
  | .createSession .. => True

/-- What a lookup tells about a session. -/
def seen (row : SessionRow) : String × String :=
  (cstr row.uid, cstr row.nodeId)

/-- A valid session whose token is the one that is asked for up to a NUL
reads like the valid session whose token is equal to it by the collation. -/
def LookedUp (state : SessionBackends) (token : String) : Prop :=
  ∀ value,
    (∃ row ∈ state.mysql.sessions, state.mysql.Valid row ∧
        row.token = cstr token ∧ seen row = value) ↔
      ∃ row ∈ state.mysql.sessions, state.mysql.Valid row ∧
        state.mysql.tokenIs token row = true ∧ seen row = value

/-! ## What the operations do -/

variable {state next : SessionBackends} {token uid nodeId : String}

theorem run_redis_body {α : Type} (store : RedisStore) (unavailable : α)
    (body : RedisProg α) :
    Prog.run serveRedis store
        (RedisSessionRepo.withConnection unavailable body) =
      Prog.run serveRedis store body := by
  simp [RedisSessionRepo.withConnection, serveRedis]

theorem redisSession_eq
    (hhash : state.redis.text (sessionKey (cstr token)) = none) :
    state.redisSession token =
      (state.redis.field (sessionKey (cstr token)) "uid").map fun uid =>
        { uid := cstr uid
          token := token
          nodeId := ((state.redis.field (sessionKey (cstr token))
            "node_id").map cstr).getD "" } := by
  have hreply : state.redis.reply
      (.hmget (sessionKey (cstr token)) ["uid", "node_id"]) =
        .array [state.redis.field (sessionKey (cstr token)) "uid",
          state.redis.field (sessionKey (cstr token)) "node_id"] := by
    simp [ExpiringStore.reply, hhash]
  simp only [redisSession, RedisSessionRepo.getSessionByToken,
    run_redis_body, redisCommand, Prog.request_bind, Prog.run_call,
    serveRedis, cstr_sessionKey, hreply, Prog.pure_eq, Prog.run_ret]
  cases state.redis.field (sessionKey (cstr token)) "uid" <;> rfl

/-- The valid row that MySQL finds under the token. -/
def foundRow (state : SessionBackends) (token : String) :
    Option SessionRow :=
  state.mysql.sessions.rows.find? fun row =>
    state.mysql.tokenIs token row && decide (state.mysql.Valid row)

theorem mysqlSession_eq : state.mysqlSession token =
    (state.foundRow token).map fun row =>
      { uid := cstr row.uid
        token := cstr row.token
        nodeId := cstr row.nodeId } := by
  simp only [mysqlSession, MySQLSessionRepo.getSessionByToken,
    run_withConnection, mysqlQuery, Prog.request_bind, Prog.run_call,
    Database.exec, Database.execStatement, Prog.pure_eq, Prog.run_ret,
    Option.getD_some, Option.map_map]
  rfl

theorem isValid_redis (state : SessionBackends) (token : String) :
    (Prog.run serveRedis state.redis
      (RedisSessionRepo.isValidSession token)).2 =
        (state.redisSession token).isSome := by
  simp [RedisSessionRepo.isValidSession, redisSession]

theorem isValid_mysql (state : SessionBackends) (token : String) :
    (Prog.run Database.exec state.mysql
      (MySQLSessionRepo.isValidSession token)).2 =
        (state.mysqlSession token).isSome := by
  simp [MySQLSessionRepo.isValidSession, mysqlSession]

theorem answersAlike_of_session
    (hsession :
      (state.redisSession token).map (fun info => (info.uid, info.nodeId)) =
        (state.mysqlSession token).map fun info =>
          (info.uid, info.nodeId)) :
    state.AnswersAlike token := by
  refine ⟨?_, hsession⟩
  rw [isValid_redis, isValid_mysql]
  have hsome := congrArg Option.isSome hsession
  simpa only [Option.isSome_map] using hsome

/-! ## The relation between the two stores -/

/-- The row is in use, and Redis has the same session, for at least as
long. -/
structure Kept (store : RedisStore) (row : SessionRow) : Prop where
  uid : store.field (sessionKey row.token) "uid" = some (cstr row.uid)
  nodeId : store.field (sessionKey row.token) "node_id" =
    some (cstr row.nodeId)
  deadline : ∃ deadline,
    store.deadline (sessionKey row.token) = some deadline ∧
      1000 * row.expiredAt ≤ deadline

/-- Redis has no session; there may be a hash under the key. -/
structure Dropped (store : RedisStore) (token : String) : Prop where
  hash : store.text (sessionKey token) = none
  uid : store.field (sessionKey token) "uid" = none
  deadline : store.deadline (sessionKey token) = none

/-- The row that makes the token valid. -/
def validRow (state : SessionBackends) (token : String) :
    Option SessionRow :=
  (state.mysql.sessions.get? token).filter fun row =>
    decide (state.mysql.Valid row)

/-- No session has the token of another, in either store. -/
structure TokensApart (state : SessionBackends) : Prop where
  fresh : ∀ token, token ∉ state.created →
    state.mysql.sessions.get? token = none
  plain : ∀ token ∈ state.created, NulFree token
  apart : ∀ first ∈ state.created, ∀ second ∈ state.created,
    state.mysql.collation.same first second = true → first = second

structure Mirrored (state : SessionBackends) : Prop where
  clock : state.mysql.now = state.redis.clock / 1000
  tokens : TokensApart state
  kept : ∀ token row, state.validRow token = some row →
    Kept state.redis row
  dropped : ∀ token, state.validRow token = none →
    Dropped state.redis token

theorem validRow_eq_some {row : SessionRow} :
    state.validRow token = some row ↔
      state.mysql.sessions.get? token = some row ∧
        state.mysql.Valid row := by
  rw [validRow, Option.filter_eq_some_iff, decide_eq_true_eq]

theorem token_of_validRow {row : SessionRow}
    (hrow : state.validRow token = some row) : row.token = token :=
  (KeyedTable.get?_eq_some.mp (validRow_eq_some.mp hrow).1).2

theorem validRow_self {row : SessionRow}
    (hmem : row ∈ state.mysql.sessions) (hvalid : state.mysql.Valid row) :
    state.validRow row.token = some row :=
  validRow_eq_some.mpr ⟨KeyedTable.get?_eq_some.mpr ⟨hmem, rfl⟩, hvalid⟩

section Tokens

variable {row : SessionRow}

theorem TokensApart.mem_created (htokens : TokensApart state)
    (hmem : row ∈ state.mysql.sessions) : row.token ∈ state.created := by
  by_contra hfree
  have hnone := htokens.fresh row.token hfree
  have hget : state.mysql.sessions.get? row.token = some row :=
    KeyedTable.get?_eq_some.mpr ⟨hmem, rfl⟩
  rw [hnone] at hget
  cases hget

theorem same_self (state : SessionBackends) (text : String) :
    state.mysql.collation.same text text = true :=
  state.mysql.collation.equivalence.refl text

/-- The token of a session names this session only. -/
theorem TokensApart.namesRow (htokens : TokensApart state)
    (htoken : token ∈ state.created) (hmem : row ∈ state.mysql.sessions) :
    state.NamesRow token row := by
  rw [NamesRow, (htokens.plain token htoken).cstr]
  constructor
  · rintro rfl
    exact same_self state row.token
  · exact htokens.apart row.token (htokens.mem_created hmem) token htoken

/-- MySQL finds at most one row under a token. -/
theorem TokensApart.foundRow_eq_some (htokens : TokensApart state) :
    state.foundRow token = some row ↔
      row ∈ state.mysql.sessions ∧ state.mysql.Valid row ∧
        state.mysql.tokenIs token row = true := by
  constructor
  · intro hfound
    have hrow := List.find?_some hfound
    rw [Bool.and_eq_true, decide_eq_true_eq] at hrow
    exact ⟨List.mem_of_find?_eq_some hfound, hrow.2, hrow.1⟩
  · rintro ⟨hmem, hvalid, hnamed⟩
    cases hfound : state.foundRow token with
    | none =>
        have hnone := List.find?_eq_none.mp hfound row hmem
        rw [hnamed, decide_eq_true hvalid] at hnone
        exact (hnone rfl).elim
    | some other =>
        have hother := List.find?_some hfound
        rw [Bool.and_eq_true] at hother
        have hmem' : other ∈ state.mysql.sessions :=
          List.mem_of_find?_eq_some hfound
        have hsame : state.mysql.collation.same other.token row.token =
            true :=
          state.mysql.collation.equivalence.trans hother.1
            (state.mysql.collation.equivalence.symm hnamed)
        have htoken := htokens.apart other.token
          (htokens.mem_created hmem') row.token (htokens.mem_created hmem)
          hsame
        rw [KeyedTable.eq_of_key_eq hmem' hmem htoken]

theorem seen_mysqlSession (state : SessionBackends) (token : String) :
    (state.mysqlSession token).map (fun info => (info.uid, info.nodeId)) =
      (state.foundRow token).map seen := by
  rw [mysqlSession_eq, Option.map_map]
  rfl

/-- Asked for the token of a session, MySQL finds its row. -/
theorem TokensApart.foundRow_created (htokens : TokensApart state)
    (htoken : token ∈ state.created) :
    state.foundRow token = state.validRow token := by
  apply Option.ext
  intro row
  rw [htokens.foundRow_eq_some, validRow_eq_some,
    KeyedTable.get?_eq_some]
  constructor
  · rintro ⟨hmem, hvalid, hnamed⟩
    have hsame := (htokens.namesRow htoken hmem).mpr hnamed
    rw [(htokens.plain token htoken).cstr] at hsame
    exact ⟨⟨hmem, hsame⟩, hvalid⟩
  · rintro ⟨⟨hmem, rfl⟩, hvalid⟩
    exact ⟨hmem, hvalid, same_self state row.token⟩

theorem seen_redisSession_of_kept {given : String}
    (hrow : Kept state.redis row) (hgiven : cstr given = row.token) :
    (state.redisSession given).map (fun info => (info.uid, info.nodeId)) =
      some (seen row) := by
  have hhash : state.redis.text (sessionKey (cstr given)) = none := by
    rw [hgiven]
    exact ExpiringStore.text_of_field hrow.uid
  rw [redisSession_eq hhash, hgiven, hrow.uid, hrow.nodeId]
  simp [seen]

theorem seen_redisSession_of_dropped {given : String}
    (htoken : Dropped state.redis (cstr given)) :
    (state.redisSession given).map (fun info => (info.uid, info.nodeId)) =
      none := by
  rw [redisSession_eq htoken.hash, htoken.uid]
  rfl

end Tokens

theorem Mirrored.seen_redisSession (hstate : Mirrored state)
    (token : String) :
    (state.redisSession token).map (fun info => (info.uid, info.nodeId)) =
      (state.validRow (cstr token)).map seen := by
  cases hrow : state.validRow (cstr token) with
  | none => exact seen_redisSession_of_dropped (hstate.dropped _ hrow)
  | some row =>
      exact seen_redisSession_of_kept (hstate.kept _ row hrow)
        (token_of_validRow hrow).symm

theorem Mirrored.answersAlike_iff (hstate : Mirrored state) :
    state.AnswersAlike token ↔ state.LookedUp token := by
  have hredis (value : String × String) :
      (state.validRow (cstr token)).map seen = some value ↔
        ∃ row ∈ state.mysql.sessions, state.mysql.Valid row ∧
          row.token = cstr token ∧ seen row = value := by
    simp only [Option.map_eq_some_iff, validRow_eq_some,
      KeyedTable.get?_eq_some]
    refine exists_congr fun row => ?_
    tauto
  have hmysql (value : String × String) :
      (state.foundRow token).map seen = some value ↔
        ∃ row ∈ state.mysql.sessions, state.mysql.Valid row ∧
          state.mysql.tokenIs token row = true ∧ seen row = value := by
    simp only [Option.map_eq_some_iff, hstate.tokens.foundRow_eq_some]
    refine exists_congr fun row => ?_
    tauto
  have hsession : state.AnswersAlike token ↔
      (state.validRow (cstr token)).map seen =
        (state.foundRow token).map seen := by
    rw [← hstate.seen_redisSession, ← seen_mysqlSession]
    exact ⟨AnswersAlike.session, answersAlike_of_session⟩
  rw [hsession, LookedUp]
  constructor
  · intro heq value
    rw [← hredis, ← hmysql, heq]
  · intro hlooked
    apply Option.ext
    intro value
    rw [hredis, hmysql]
    exact hlooked value

/-- Under the token of a session both stores look for this session. -/
theorem Mirrored.lookedUp_created (hstate : Mirrored state)
    (htoken : token ∈ state.created) : state.LookedUp token := by
  intro value
  refine exists_congr fun row => and_congr_right fun hmem => ?_
  exact and_congr_right fun _ =>
    and_congr_left fun _ => hstate.tokens.namesRow htoken hmem

theorem Mirrored.interchangeable (hstate : Mirrored state)
    {asked : Set String} (hasked : ∀ token ∈ asked, state.LookedUp token) :
    Interchangeable asked state := by
  rintro token (htoken | htoken)
  · exact hstate.answersAlike_iff.mpr (hstate.lookedUp_created htoken)
  · exact hstate.answersAlike_iff.mpr (hasked token htoken)

section Answers

variable {asked : Set String} {row : SessionRow}

/-- What Redis keeps of a session is what MySQL finds under its token. -/
theorem Interchangeable.seen_validRow (hstate : Interchangeable asked state)
    (htokens : TokensApart state) (hrow : Kept state.redis row)
    (hcreated : row.token ∈ state.created) :
    (state.validRow row.token).map seen = some (seen row) := by
  have hplain := (htokens.plain row.token hcreated).cstr
  have hsession := (hstate row.token (.inl hcreated)).session
  rw [seen_redisSession_of_kept hrow hplain, seen_mysqlSession,
    htokens.foundRow_created hcreated] at hsession
  exact hsession.symm

theorem Interchangeable.validRow_eq_none
    (hstate : Interchangeable asked state) (htokens : TokensApart state)
    (hcreated : token ∈ state.created)
    (hdropped : Dropped state.redis token) : state.validRow token = none := by
  have hplain := (htokens.plain token hcreated).cstr
  have hsession := (hstate token (.inl hcreated)).session
  rw [seen_redisSession_of_dropped (hplain.symm ▸ hdropped),
    seen_mysqlSession, htokens.foundRow_created hcreated] at hsession
  exact Option.map_eq_none_iff.mp hsession.symm

end Answers

theorem mirrored_start (db : Database) (clock : Int) :
    Mirrored (start db clock) := by
  have hnone (token : String) :
      (start db clock).mysql.sessions.get? token = none := rfl
  constructor
  · rfl
  · exact ⟨fun token _ => hnone token, by simp [start], by simp [start]⟩
  · intro token row hrow
    rw [validRow, hnone] at hrow
    cases hrow
  · intro token _
    exact ⟨rfl, rfl, rfl⟩

section Frames

variable {store after : RedisStore} {row : SessionRow}

theorem Kept.of_live (hrow : Kept store row)
    (hlive : after.live (sessionKey row.token) =
      store.live (sessionKey row.token)) : Kept after row := by
  constructor
  · rw [ExpiringStore.field_eq_of_live hlive]
    exact hrow.uid
  · rw [ExpiringStore.field_eq_of_live hlive]
    exact hrow.nodeId
  · rw [ExpiringStore.deadline_eq_of_live hlive]
    exact hrow.deadline

theorem Dropped.of_live (htoken : Dropped store token)
    (hlive : after.live (sessionKey token) =
      store.live (sessionKey token)) : Dropped after token := by
  constructor
  · rw [ExpiringStore.text_eq_of_live hlive]
    exact htoken.hash
  · rw [ExpiringStore.field_eq_of_live hlive]
    exact htoken.uid
  · rw [ExpiringStore.deadline_eq_of_live hlive]
    exact htoken.deadline

theorem dropped_of_none (hlive : store.live (sessionKey token) = none) :
    Dropped store token := by
  constructor
  · simp [ExpiringStore.text, ExpiringStore.value, hlive]
  · simp [ExpiringStore.field, ExpiringStore.value, hlive]
  · simp [ExpiringStore.deadline, hlive]

/-- What holds of one token is kept when neither its row nor its key
changes. -/
theorem mirrored_token
    (hkept : ∀ row, state.validRow token = some row →
      Kept state.redis row)
    (hdropped : state.validRow token = none → Dropped state.redis token)
    (hrow : next.validRow token = state.validRow token)
    (hlive : next.redis.live (sessionKey token) =
      state.redis.live (sessionKey token)) :
    (∀ row, next.validRow token = some row → Kept next.redis row) ∧
      (next.validRow token = none → Dropped next.redis token) := by
  constructor
  · intro row hvalid
    have htoken : row.token = token := token_of_validRow hvalid
    rw [hrow] at hvalid
    apply (hkept row hvalid).of_live
    rw [htoken]
    exact hlive
  · intro hvalid
    rw [hrow] at hvalid
    exact (hdropped hvalid).of_live hlive

theorem Mirrored.of_tokens
    (hclock : state.mysql.now = state.redis.clock / 1000)
    (happart : TokensApart state)
    (htokens : ∀ token,
      (∀ row, state.validRow token = some row → Kept state.redis row) ∧
        (state.validRow token = none → Dropped state.redis token)) :
    Mirrored state where
  clock := hclock
  tokens := happart
  kept := fun token => (htokens token).1
  dropped := fun token => (htokens token).2

end Frames

section Operations

/-- A method of `MySQLSessionRepo` is one statement. -/
theorem run_statement {α : Type} (db : Database) (unavailable : α)
    (statement : Statement) (value : Option statement.Result → α) :
    Prog.run Database.exec db (withConnection unavailable do
        let result ← mysqlQuery statement
        return value result) =
      ((db.execStatement statement).1,
        value (db.execStatement statement).2) := by
  simp [Database.exec]

theorem Fresh.not_mem (htoken : state.Fresh token) :
    token ∉ state.created :=
  fun hmem => htoken.2 token hmem (same_self state token)

theorem mysql_createSession (htokens : TokensApart state)
    (hfresh : state.Fresh token) (huid : state.mysql.hasUser uid = true)
    (ttlSeconds : Int) :
    (Prog.run Database.exec state.mysql (MySQLSessionRepo.createSession uid
      token nodeId ttlSeconds)).1 =
        { state.mysql with
          sessions := state.mysql.sessions.insertIgnore
            ⟨uid, token, nodeId, state.mysql.now + ttlSeconds, 0⟩ } := by
  have hnone : ¬ (state.mysql.sessions.rows.any
      (state.mysql.tokenIs token)) = true := by
    intro hany
    obtain ⟨row, hmem, hsame⟩ := List.any_eq_true.mp hany
    exact hfresh.2 row.token (htokens.mem_created hmem) hsame
  rw [MySQLSessionRepo.createSession, run_statement]
  simp only [Database.execStatement]
  rw [if_neg hnone, if_pos huid]

theorem redis_createSession (store : RedisStore) (uid token nodeId : String)
    (ttlSeconds : Int) :
    (Prog.run serveRedis store (RedisSessionRepo.createSession uid token
      nodeId ttlSeconds)).1 =
        (((store.execute (.hmset (sessionKey (cstr token))
          [("uid", cstr uid), ("node_id", cstr nodeId),
            ("login_time", toString (store.clock / 1000))])).execute
          (.expire (sessionKey (cstr token)) ttlSeconds)).execute
          (.set (onlineKey (cstr uid)) (cstr nodeId))).execute
          (.hset userRoute (cstr uid) (cstr nodeId)) := by
  rw [← cstr_sessionKey]
  rfl

theorem sessionKey_ne_routing (uid token : String) :
    sessionKey token ≠ onlineKey uid ∧ sessionKey token ≠ userRoute :=
  ⟨(onlineKey_ne_sessionKey uid token).symm,
    (userRoute_ne_sessionKey token).symm⟩

/-- Of the commands of `createSession`, the first two are on the session. -/
theorem live_createSession (store : RedisStore)
    (uid token nodeId other : String) (ttlSeconds : Int) :
    (Prog.run serveRedis store (RedisSessionRepo.createSession uid token
        nodeId ttlSeconds)).1.live (sessionKey other) =
      ((store.execute (.hmset (sessionKey (cstr token))
        [("uid", cstr uid), ("node_id", cstr nodeId),
          ("login_time", toString (store.clock / 1000))])).execute
        (.expire (sessionKey (cstr token)) ttlSeconds)).live
          (sessionKey other) := by
  obtain ⟨honline, hroute⟩ := sessionKey_ne_routing (cstr uid) other
  rw [redis_createSession, ExpiringStore.live_execute_of_ne hroute,
    ExpiringStore.live_execute_of_ne honline]

theorem live_createSession_of_ne {store : RedisStore} {other : String}
    (hother : other ≠ cstr token) (ttlSeconds : Int) :
    (Prog.run serveRedis store (RedisSessionRepo.createSession uid token
        nodeId ttlSeconds)).1.live (sessionKey other) =
      store.live (sessionKey other) := by
  have hkey : sessionKey other ≠ sessionKey (cstr token) :=
    fun heq => hother (sessionKey_inj.mp heq)
  rw [live_createSession, ExpiringStore.live_execute_of_ne hkey,
    ExpiringStore.live_execute_of_ne hkey]

theorem kept_createSession {store : RedisStore} {ttlSeconds now : Int}
    (hplain : cstr token = token)
    (hhash : store.text (sessionKey token) = none)
    (hclock : now = store.clock / 1000) (httl : 0 < ttlSeconds) :
    Kept (Prog.run serveRedis store (RedisSessionRepo.createSession uid
        token nodeId ttlSeconds)).1
      ⟨uid, token, nodeId, now + ttlSeconds, 0⟩ := by
  have hlive := live_createSession store uid token nodeId token ttlSeconds
  rw [hplain] at hlive
  generalize hassigned : [("uid", cstr uid), ("node_id", cstr nodeId),
    ("login_time", toString (store.clock / 1000))] = assigned at hlive
  generalize hwrite : store.execute (.hmset (sessionKey token) assigned) =
    written at hlive
  have hdistinct : (assigned.map Prod.fst).Nodup := by
    rw [← hassigned]
    simp
  have hfield (name data : String) (hmem : (name, data) ∈ assigned) :
      written.field (sessionKey token) name = some data := by
    rw [← hwrite]
    exact ExpiringStore.field_setHash_of_mem hhash hdistinct hmem
  have huid := hfield "uid" (cstr uid) (by simp [← hassigned])
  have hnode := hfield "node_id" (cstr nodeId) (by simp [← hassigned])
  obtain ⟨entry, hentry⟩ := ExpiringStore.live_of_field huid
  constructor
  · exact (ExpiringStore.field_eq_of_live hlive "uid").trans
      ((ExpiringStore.field_expire httl).trans huid)
  · exact (ExpiringStore.field_eq_of_live hlive "node_id").trans
      ((ExpiringStore.field_expire httl).trans hnode)
  · have hexpire : (written.expire (sessionKey token)
        ttlSeconds).deadline (sessionKey token) =
          some (store.clock + 1000 * ttlSeconds) := by
      rw [ExpiringStore.deadline_expire httl, hentry, ← hwrite,
        ExpiringStore.clock_execute]
      rfl
    refine ⟨store.clock + 1000 * ttlSeconds,
      (ExpiringStore.deadline_eq_of_live hlive).trans hexpire, ?_⟩
    show 1000 * (now + ttlSeconds) ≤ store.clock + 1000 * ttlSeconds
    omega

theorem dropped_createSession {store : RedisStore} {ttlSeconds : Int}
    (hplain : cstr token = token) (httl : ttlSeconds ≤ 0) :
    Dropped (Prog.run serveRedis store (RedisSessionRepo.createSession uid
      token nodeId ttlSeconds)).1 token := by
  apply dropped_of_none
  rw [live_createSession, hplain]
  exact ExpiringStore.live_expire_of_le httl

theorem Mirrored.createSession (hstate : Mirrored state)
    (hfresh : state.Fresh token) (huid : state.mysql.hasUser uid = true)
    (ttlSeconds : Int) :
    Mirrored { state.both
        (RedisSessionRepo.createSession uid token nodeId ttlSeconds)
        (MySQLSessionRepo.createSession uid token nodeId ttlSeconds) with
      created := token :: state.created } := by
  have hplain : cstr token = token := NulFree.cstr hfresh.1
  have hget := hstate.tokens.fresh token hfresh.not_mem
  have hdropped : Dropped state.redis token := by
    apply hstate.dropped token
    rw [validRow, hget]
    rfl
  simp only [both, mysql_createSession hstate.tokens hfresh huid]
  have hsessions (other : String) (hother : other ≠ token) :
      (state.mysql.sessions.insertIgnore ⟨uid, token, nodeId,
        state.mysql.now + ttlSeconds, 0⟩).get? other =
          state.mysql.sessions.get? other := by
    rw [KeyedTable.get?_insertIgnore, if_neg (Ne.symm hother)]
    exact Option.or_none
  apply Mirrored.of_tokens
  · simp only [redis_createSession, ExpiringStore.clock_execute]
    exact hstate.clock
  · constructor
    · intro other hother
      rw [List.mem_cons, not_or] at hother
      rw [hsessions other hother.1]
      exact hstate.tokens.fresh other hother.2
    · intro other hother
      rcases List.mem_cons.mp hother with rfl | hold
      · exact hfresh.1
      · exact hstate.tokens.plain other hold
    · intro first hfirst second hsecond hsame
      have hsymm := state.mysql.collation.equivalence.symm hsame
      rcases List.mem_cons.mp hfirst with rfl | hold <;>
        rcases List.mem_cons.mp hsecond with rfl | hold'
      · rfl
      · exact (hfresh.2 second hold' hsymm).elim
      · exact (hfresh.2 first hold hsame).elim
      · exact hstate.tokens.apart first hold second hold' hsame
  · intro other
    by_cases hother : other = token
    · subst hother
      have hnew : (state.mysql.sessions.insertIgnore ⟨uid, other, nodeId,
          state.mysql.now + ttlSeconds, 0⟩).get? other =
            some ⟨uid, other, nodeId, state.mysql.now + ttlSeconds, 0⟩ := by
        rw [KeyedTable.get?_insertIgnore, hget, if_pos rfl]
        rfl
      constructor
      · intro row hrow
        obtain ⟨hrow, hvalid⟩ := validRow_eq_some.mp hrow
        have hsame := Option.some.inj (hnew.symm.trans hrow)
        subst hsame
        have httl : 0 < ttlSeconds := by
          have hlater : state.mysql.now < state.mysql.now + ttlSeconds :=
            hvalid.2
          omega
        exact kept_createSession hplain hdropped.hash hstate.clock httl
      · intro hnone
        apply dropped_createSession hplain
        by_contra httl
        have hlater : state.mysql.now < state.mysql.now + ttlSeconds := by
          omega
        have hnot := Option.eq_none_iff_forall_ne_some.mp hnone
        exact hnot _ (validRow_eq_some.mpr ⟨hnew, rfl, hlater⟩)
    · apply mirrored_token (hstate.kept other) (hstate.dropped other)
      · simp only [validRow, hsessions other hother]
        rfl
      · exact live_createSession_of_ne (hplain.symm ▸ hother) ttlSeconds

/-- The state after rows of MySQL were updated. -/
def updated (state : SessionBackends) (store : RedisStore)
    (selected : SessionRow → Bool) (change : SessionRow → SessionRow)
    (hchange : ∀ row, (change row).token = row.token) : SessionBackends :=
  { state with
    redis := store
    mysql := { state.mysql with
      sessions := state.mysql.sessions.update selected change hchange } }

theorem both_revokeSession (state : SessionBackends) (token : String) :
    state.both (RedisSessionRepo.revokeSession token)
        (MySQLSessionRepo.revokeSession token) =
      state.updated (state.redis.execute (.del (sessionKey (cstr token))))
        (state.mysql.tokenIs token)
        (fun row => { row with revoked := 1 }) fun _ => rfl := by
  rw [both, MySQLSessionRepo.revokeSession, run_statement,
    ← cstr_sessionKey]
  rfl

theorem both_revokeAllSessions (state : SessionBackends) (uid : String) :
    state.both (RedisSessionRepo.revokeAllSessions uid)
        (MySQLSessionRepo.revokeAllSessions uid) =
      state.updated
        ((state.redis.execute (.del (onlineKey (cstr uid)))).execute
          (.hdel userRoute (cstr uid)))
        (fun row => state.mysql.collation.same row.uid uid)
        (fun row => { row with revoked := 1 }) fun _ => rfl := by
  rw [both, MySQLSessionRepo.revokeAllSessions, run_statement]
  rfl

theorem both_updateSessionNode (state : SessionBackends)
    (token nodeId : String) :
    state.both (RedisSessionRepo.updateSessionNode token nodeId)
        (MySQLSessionRepo.updateSessionNode token nodeId) =
      state.updated
        (state.redis.execute
          (.hmset (sessionKey (cstr token)) [("node_id", cstr nodeId)]))
        (state.mysql.tokenIs token)
        (fun row => { row with nodeId := nodeId }) fun _ => rfl := by
  rw [both, MySQLSessionRepo.updateSessionNode, run_statement,
    ← cstr_sessionKey]
  rfl

section Update

variable {selected : SessionRow → Bool} {change : SessionRow → SessionRow}
  {hchange : ∀ row, (change row).token = row.token} {store : RedisStore}
  {other : String}

theorem get?_updated :
    (state.updated store selected change hchange).mysql.sessions.get? other =
      (state.mysql.sessions.get? other).map fun row =>
        if selected row then change row else row := by
  rw [updated, KeyedTable.get?_update]

theorem validRow_updated {row : SessionRow} :
    (state.updated store selected change hchange).validRow other =
        some row ↔
      ∃ old, state.mysql.sessions.get? other = some old ∧
        (if selected old then change old else old) = row ∧
          state.mysql.Valid row := by
  rw [validRow_eq_some, get?_updated, Option.map_eq_some_iff]
  constructor
  · rintro ⟨⟨old, hget, hrow⟩, hvalid⟩
    exact ⟨old, hget, hrow, hvalid⟩
  · rintro ⟨old, hget, hrow, hvalid⟩
    exact ⟨⟨old, hget, hrow⟩, hvalid⟩

/-- Nothing changes for a token whose valid row is not selected. -/
theorem validRow_updated_of_not
    (hselected : ∀ row, state.validRow other = some row →
      selected row = false)
    (hinvalid : ∀ row, state.mysql.Valid (change row) →
      state.mysql.Valid row) :
    (state.updated store selected change hchange).validRow other =
      state.validRow other := by
  apply Option.ext
  intro row
  rw [validRow_updated]
  constructor
  · rintro ⟨old, hget, hrow, hvalid⟩
    have hold : state.mysql.Valid old := by
      split at hrow
      · exact hinvalid old (hrow ▸ hvalid)
      · exact hrow ▸ hvalid
    have hfound := validRow_eq_some.mpr ⟨hget, hold⟩
    rw [hselected old hfound, if_neg Bool.false_ne_true] at hrow
    rw [← hrow]
    exact hfound
  · intro hrow
    obtain ⟨hget, hvalid⟩ := validRow_eq_some.mp hrow
    refine ⟨row, hget, ?_, hvalid⟩
    rw [hselected row hrow, if_neg Bool.false_ne_true]

theorem TokensApart.updated (htokens : TokensApart state) :
    TokensApart (state.updated store selected change hchange) := by
  refine ⟨?_, htokens.plain, htokens.apart⟩
  intro token htoken
  rw [get?_updated, htokens.fresh token htoken]
  rfl

theorem Mirrored.updated (hstate : Mirrored state)
    (hclock : store.clock = state.redis.clock)
    (htokens : ∀ token,
      (∀ row, (state.updated store selected change hchange).validRow token =
        some row → Kept store row) ∧
      ((state.updated store selected change hchange).validRow token =
        none → Dropped store token)) :
    Mirrored (state.updated store selected change hchange) := by
  apply Mirrored.of_tokens
  · show state.mysql.now = store.clock / 1000
    rw [hclock]
    exact hstate.clock
  · exact hstate.tokens.updated
  · exact htokens

end Update

theorem not_valid_revoked (db : Database) (row : SessionRow) :
    ¬ db.Valid { row with revoked := 1 } := by
  rintro ⟨hrevoked, _⟩
  cases hrevoked

theorem validRow_revoked {selected : SessionRow → Bool}
    {store : RedisStore} {other : String} {row : SessionRow}
    (hrow : state.validRow other = some row)
    (hselected : selected row = true) :
    (state.updated store selected (fun row => { row with revoked := 1 })
      fun _ => rfl).validRow other = none := by
  apply Option.eq_none_iff_forall_ne_some.mpr
  intro found hfound
  obtain ⟨old, hget, hchanged, hvalid⟩ := validRow_updated.mp hfound
  rw [(validRow_eq_some.mp hrow).1] at hget
  cases hget
  rw [if_pos hselected] at hchanged
  subst hchanged
  exact not_valid_revoked _ _ hvalid

theorem Mirrored.revokeSession (hstate : Mirrored state)
    (haligned : Aligned state (.revokeSession token)) :
    Mirrored (state.both (RedisSessionRepo.revokeSession token)
      (MySQLSessionRepo.revokeSession token)) := by
  have hnames {other : String} {row : SessionRow}
      (hrow : state.validRow other = some row) :
      other = cstr token ↔ state.mysql.tokenIs token row = true := by
    obtain ⟨hget, hvalid⟩ := validRow_eq_some.mp hrow
    have hnames := haligned row (KeyedTable.get?_eq_some.mp hget).1 hvalid
    rwa [NamesRow, token_of_validRow hrow] at hnames
  rw [both_revokeSession]
  apply hstate.updated (ExpiringStore.clock_execute _)
  intro other
  by_cases hother : other = cstr token
  · -- the key is gone, and so is the row, if there was one
    constructor
    · intro row hrow
      obtain ⟨old, hget, hchanged, hvalid⟩ := validRow_updated.mp hrow
      by_cases hselected : state.mysql.tokenIs token old = true
      · rw [if_pos hselected] at hchanged
        subst hchanged
        exact (not_valid_revoked _ _ hvalid).elim
      · rw [if_neg hselected] at hchanged
        subst hchanged
        have hold := validRow_eq_some.mpr ⟨hget, hvalid⟩
        exact (hselected ((hnames hold).mp hother)).elim
    · intro _
      rw [hother]
      exact dropped_of_none ExpiringStore.live_put_none
  · have hkey : sessionKey other ≠ sessionKey (cstr token) :=
      fun heq => hother (sessionKey_inj.mp heq)
    apply mirrored_token (hstate.kept other) (hstate.dropped other)
    · apply validRow_updated_of_not
      · intro row hrow
        by_contra hselected
        rw [Bool.not_eq_false] at hselected
        exact hother ((hnames hrow).mpr hselected)
      · intro row hvalid
        exact (not_valid_revoked _ _ hvalid).elim
    · exact ExpiringStore.live_execute_of_ne hkey

theorem live_revokeAllSessions (store : RedisStore) (uid token : String) :
    ((store.execute (.del (onlineKey uid))).execute
        (.hdel userRoute uid)).live (sessionKey token) =
      store.live (sessionKey token) := by
  obtain ⟨honline, hroute⟩ := sessionKey_ne_routing uid token
  rw [ExpiringStore.live_execute_of_ne hroute,
    ExpiringStore.live_execute_of_ne honline]

theorem Mirrored.revokeAllSessions (hstate : Mirrored state)
    (huid : Aligned state (.revokeAllSessions uid)) :
    Mirrored (state.both (RedisSessionRepo.revokeAllSessions uid)
      (MySQLSessionRepo.revokeAllSessions uid)) := by
  rw [both_revokeAllSessions]
  apply hstate.updated
  · rw [ExpiringStore.clock_execute, ExpiringStore.clock_execute]
  intro other
  apply mirrored_token (hstate.kept other) (hstate.dropped other)
  · apply validRow_updated_of_not
    · intro row hrow
      obtain ⟨hget, hvalid⟩ := validRow_eq_some.mp hrow
      exact Bool.eq_false_iff.mpr
        (huid row (KeyedTable.get?_eq_some.mp hget).1 hvalid)
    · intro row hvalid
      exact (not_valid_revoked _ _ hvalid).elim
  · exact live_revokeAllSessions state.redis (cstr uid) other

theorem kept_updateSessionNode {store : RedisStore} {row : SessionRow}
    (hrow : Kept store row) (htoken : row.token = token) (nodeId : String) :
    Kept (store.execute
        (.hmset (sessionKey token) [("node_id", cstr nodeId)]))
      { row with nodeId := nodeId } := by
  subst htoken
  have hhash : store.text (sessionKey row.token) = none :=
    ExpiringStore.text_of_field hrow.uid
  have hentry : ("node_id", cstr nodeId) ∈ [("node_id", cstr nodeId)] :=
    List.mem_cons_self
  have hother : "uid" ∉ [("node_id", cstr nodeId)].map Prod.fst := by simp
  constructor
  · exact (ExpiringStore.field_setHash_of_not_mem hother).trans hrow.uid
  · exact ExpiringStore.field_setHash_of_mem hhash (by simp) hentry
  · obtain ⟨deadline, hdeadline, hle⟩ := hrow.deadline
    exact ⟨deadline, (ExpiringStore.deadline_setHash _).trans hdeadline,
      hle⟩

/-- A hash that appears under the key of a dropped session has no `uid` and
never expires. -/
theorem dropped_updateSessionNode {store : RedisStore}
    (htoken : Dropped store token) (nodeId : String) :
    Dropped (store.execute
      (.hmset (sessionKey token) [("node_id", nodeId)])) token := by
  have hother : "uid" ∉ [("node_id", nodeId)].map Prod.fst := by simp
  constructor
  · exact (ExpiringStore.text_setHash _).trans htoken.hash
  · exact (ExpiringStore.field_setHash_of_not_mem hother).trans htoken.uid
  · exact (ExpiringStore.deadline_setHash _).trans htoken.deadline

/-- Redis does not know a node from its text up to a NUL. -/
theorem Kept.of_nodeId {store : RedisStore} {row : SessionRow}
    {nodeId : String} (hrow : Kept store { row with nodeId := nodeId })
    (hnode : cstr row.nodeId = cstr nodeId) : Kept store row :=
  ⟨hrow.uid, hrow.nodeId.trans (congrArg some hnode.symm), hrow.deadline⟩

theorem Kept.with_nodeId {store : RedisStore} {row : SessionRow}
    {nodeId : String} (hrow : Kept store row)
    (hnode : cstr row.nodeId = cstr nodeId) :
    Kept store { row with nodeId := nodeId } :=
  ⟨hrow.uid, hrow.nodeId.trans (congrArg some hnode), hrow.deadline⟩

theorem Mirrored.updateSessionNode (hstate : Mirrored state)
    {token nodeId : String}
    (haligned : Aligned state (.updateSessionNode token nodeId)) :
    Mirrored (state.both (RedisSessionRepo.updateSessionNode token nodeId)
      (MySQLSessionRepo.updateSessionNode token nodeId)) := by
  rw [both_updateSessionNode]
  apply hstate.updated (ExpiringStore.clock_execute _)
  intro other
  have hframe (hother : other ≠ cstr token) :
      (state.redis.execute (.hmset (sessionKey (cstr token))
        [("node_id", cstr nodeId)])).live (sessionKey other) =
          state.redis.live (sessionKey other) :=
    ExpiringStore.live_execute_of_ne
      fun heq => hother (sessionKey_inj.mp heq)
  constructor
  · intro row hrow
    obtain ⟨old, hget, hchanged, hvalid⟩ := validRow_updated.mp hrow
    obtain ⟨hmem, htoken⟩ := KeyedTable.get?_eq_some.mp hget
    have hold : state.mysql.Valid old := by
      split at hchanged <;> subst hchanged <;> exact hvalid
    have hkept := hstate.kept other old (validRow_eq_some.mpr ⟨hget, hold⟩)
    have hnames := haligned old hmem hold
    rw [NamesRow, htoken] at hnames
    by_cases hother : other = cstr token
    · have hnew := kept_updateSessionNode hkept (htoken.trans hother)
        nodeId
      split at hchanged <;> subst hchanged
      · exact hnew
      · rename_i hselected
        exact hnew.of_nodeId (hnames.resolve_left
          fun hsame => hselected (hsame.mp hother))
    · have hsame := hkept.of_live (htoken.symm ▸ hframe hother)
      split at hchanged <;> subst hchanged
      · rename_i hselected
        exact hsame.with_nodeId (hnames.resolve_left
          fun hsame => hother (hsame.mpr hselected))
      · exact hsame
  · intro hnone
    have hbefore : state.validRow other = none := by
      apply Option.eq_none_iff_forall_ne_some.mpr
      intro row hrow
      obtain ⟨hget, hvalid⟩ := validRow_eq_some.mp hrow
      have hnot := Option.eq_none_iff_forall_ne_some.mp hnone
      apply hnot _ (validRow_updated.mpr ⟨row, hget, rfl, ?_⟩)
      split <;> exact hvalid
    by_cases hother : other = cstr token
    · subst hother
      exact dropped_updateSessionNode (hstate.dropped _ hbefore)
        (cstr nodeId)
    · exact (hstate.dropped other hbefore).of_live (hframe hother)

/-- The state after time has passed. -/
def later (state : SessionBackends) (millis : Nat) : SessionBackends :=
  { state with
    redis := state.redis.advance millis
    mysql := { state.mysql with
      now := (state.redis.clock + millis) / 1000 } }

theorem validRow_later {row : SessionRow} {millis : Nat} :
    (state.later millis).validRow token = some row ↔
      state.mysql.sessions.get? token = some row ∧ row.revoked = 0 ∧
        state.redis.clock + millis < 1000 * row.expiredAt := by
  rw [validRow_eq_some]
  have hlt : (state.redis.clock + millis) / 1000 < row.expiredAt ↔
      state.redis.clock + millis < 1000 * row.expiredAt := by
    omega
  exact and_congr_right fun _ => and_congr_right fun _ => hlt

theorem Mirrored.advance {millis : Nat} (hstate : Mirrored state)
    (haligned : Aligned state (.advance millis)) :
    Mirrored (state.later millis) := by
  have hclock := hstate.clock
  apply Mirrored.of_tokens
  · rfl
  · exact ⟨hstate.tokens.fresh, hstate.tokens.plain, hstate.tokens.apart⟩
  intro token
  constructor
  · intro row hrow
    obtain ⟨hget, hrevoked, hlt⟩ := validRow_later.mp hrow
    have hbefore : state.mysql.now < row.expiredAt := by omega
    have hkept := hstate.kept token row
      (validRow_eq_some.mpr ⟨hget, hrevoked, hbefore⟩)
    obtain ⟨deadline, hdeadline, hle⟩ := hkept.deadline
    apply hkept.of_live
    apply ExpiringStore.live_advance_of_le
    intro other hother
    have hsame : deadline = other :=
      Option.some.inj (hdeadline.symm.trans hother)
    omega
  · intro hnone
    have hnot := Option.eq_none_iff_forall_ne_some.mp hnone
    cases hrow : state.validRow token with
    | none =>
        have hdropped := hstate.dropped token hrow
        apply hdropped.of_live
        apply ExpiringStore.live_advance_of_le
        intro deadline hdeadline
        rw [hdropped.deadline] at hdeadline
        cases hdeadline
    | some row =>
        obtain ⟨hget, hvalid⟩ := validRow_eq_some.mp hrow
        obtain ⟨hmem, htoken⟩ := KeyedTable.get?_eq_some.mp hget
        obtain ⟨deadline, hdeadline, _⟩ := (hstate.kept token row hrow).deadline
        apply dropped_of_none
        rw [← htoken]
        apply ExpiringStore.live_advance_of_lt hdeadline
        rcases haligned row hmem hvalid deadline hdeadline with hlt | hlt
        · exact (hnot row (validRow_later.mpr
            ⟨hget, hvalid.1, hlt⟩)).elim
        · exact hlt

section Aligned

variable {asked : Set String}

theorem Mirrored.aligned_revokeSession (hstate : Mirrored state)
    (hnext : Interchangeable asked (state.both
      (RedisSessionRepo.revokeSession token)
      (MySQLSessionRepo.revokeSession token))) :
    Aligned state (.revokeSession token) := by
  intro row hmem hvalid
  have hcreated := hstate.tokens.mem_created hmem
  have hrow := validRow_self hmem hvalid
  rw [both_revokeSession] at hnext
  constructor
  · intro htoken
    by_contra hselected
    -- the key is deleted, while the row stays valid
    have hdropped : Dropped (state.redis.execute
        (.del (sessionKey (cstr token)))) row.token := by
      rw [htoken]
      exact dropped_of_none ExpiringStore.live_put_none
    have hnone := hnext.validRow_eq_none hstate.tokens.updated hcreated
      hdropped
    apply Option.eq_none_iff_forall_ne_some.mp hnone row
    exact validRow_updated.mpr
      ⟨row, (validRow_eq_some.mp hrow).1, if_neg hselected, hvalid⟩
  · intro hselected
    by_contra htoken
    -- the row is revoked, while the key stays
    have hkeys : sessionKey row.token ≠ sessionKey (cstr token) :=
      fun heq => htoken (sessionKey_inj.mp heq)
    have hlive : (state.redis.execute (.del (sessionKey (cstr token)))).live
        (sessionKey row.token) = state.redis.live (sessionKey row.token) :=
      ExpiringStore.live_execute_of_ne hkeys
    have hkept := (hstate.kept row.token row hrow).of_live hlive
    have hseen := hnext.seen_validRow hstate.tokens.updated hkept hcreated
    rw [validRow_revoked hrow hselected] at hseen
    cases hseen

theorem Mirrored.aligned_revokeAllSessions (hstate : Mirrored state)
    (hnext : Interchangeable asked (state.both
      (RedisSessionRepo.revokeAllSessions uid)
      (MySQLSessionRepo.revokeAllSessions uid))) :
    Aligned state (.revokeAllSessions uid) := by
  intro row hmem hvalid huid
  have hrow := validRow_self hmem hvalid
  rw [both_revokeAllSessions] at hnext
  have hkept := (hstate.kept row.token row hrow).of_live
    (live_revokeAllSessions state.redis (cstr uid) row.token)
  have hseen := hnext.seen_validRow hstate.tokens.updated hkept
    (hstate.tokens.mem_created hmem)
  rw [validRow_revoked hrow huid] at hseen
  cases hseen

theorem Mirrored.aligned_updateSessionNode (hstate : Mirrored state)
    {token nodeId : String}
    (hnext : Interchangeable asked (state.both
      (RedisSessionRepo.updateSessionNode token nodeId)
      (MySQLSessionRepo.updateSessionNode token nodeId))) :
    Aligned state (.updateSessionNode token nodeId) := by
  intro row hmem hvalid
  rw [or_iff_not_imp_left]
  intro hnames
  have hcreated := hstate.tokens.mem_created hmem
  have hrow := validRow_self hmem hvalid
  have hget := (validRow_eq_some.mp hrow).1
  have hkept := hstate.kept row.token row hrow
  rw [both_updateSessionNode] at hnext
  by_cases htoken : row.token = cstr token
  · have hselected : ¬ state.mysql.tokenIs token row = true :=
      fun hselected => hnames ⟨fun _ => hselected, fun _ => htoken⟩
    have hnew := kept_updateSessionNode hkept htoken nodeId
    have hseen : (SessionBackends.validRow _ row.token).map seen =
        some (seen { row with nodeId := nodeId }) :=
      hnext.seen_validRow hstate.tokens.updated hnew hcreated
    rw [validRow_updated.mpr ⟨row, hget, if_neg hselected, hvalid⟩] at hseen
    exact congrArg Prod.snd (Option.some.inj hseen)
  · have hselected : state.mysql.tokenIs token row = true := by
      by_contra hselected
      exact hnames ⟨fun heq => (htoken heq).elim,
        fun heq => (hselected heq).elim⟩
    have hkeys : sessionKey row.token ≠ sessionKey (cstr token) :=
      fun heq => htoken (sessionKey_inj.mp heq)
    have hlive : (state.redis.execute (.hmset (sessionKey (cstr token))
          [("node_id", cstr nodeId)])).live (sessionKey row.token) =
        state.redis.live (sessionKey row.token) :=
      ExpiringStore.live_execute_of_ne hkeys
    have hsame := hkept.of_live hlive
    have hseen := hnext.seen_validRow hstate.tokens.updated hsame hcreated
    rw [validRow_updated.mpr ⟨row, hget, if_pos hselected, hvalid⟩] at hseen
    exact (congrArg Prod.snd (Option.some.inj hseen)).symm

theorem Mirrored.aligned_advance {millis : Nat} (hstate : Mirrored state)
    (hnext : Interchangeable asked (state.later millis)) :
    Aligned state (.advance millis) := by
  intro row hmem hvalid deadline hdeadline
  by_contra hwindow
  rw [not_or] at hwindow
  have hrow := validRow_self hmem hvalid
  have hlive : (state.redis.advance millis).live (sessionKey row.token) =
      state.redis.live (sessionKey row.token) := by
    apply ExpiringStore.live_advance_of_le
    intro other hother
    have hsame : deadline = other :=
      Option.some.inj (hdeadline.symm.trans hother)
    omega
  have htokens : TokensApart (state.later millis) :=
    ⟨hstate.tokens.fresh, hstate.tokens.plain, hstate.tokens.apart⟩
  have hkept := (hstate.kept row.token row hrow).of_live hlive
  have hseen := hnext.seen_validRow htokens hkept
    (hstate.tokens.mem_created hmem)
  obtain ⟨found, hfound, _⟩ := Option.map_eq_some_iff.mp hseen
  obtain ⟨hget, _, hlt⟩ := validRow_later.mp hfound
  rw [(validRow_eq_some.mp hrow).1] at hget
  cases hget
  exact hwindow.1 hlt

end Aligned

end Operations

/-! ## Runs -/

theorem step_createSession {ttlSeconds : Int}
    (hstep : state.step (.createSession uid token nodeId ttlSeconds) =
      some next) :
    (state.Fresh token ∧ state.mysql.hasUser uid = true) ∧
      next = { state.both
          (RedisSessionRepo.createSession uid token nodeId ttlSeconds)
          (MySQLSessionRepo.createSession uid token nodeId ttlSeconds) with
        created := token :: state.created } := by
  simp only [step] at hstep
  split at hstep
  · rename_i hfresh
    cases hstep
    exact ⟨hfresh, rfl⟩
  · cases hstep

theorem Mirrored.step {action : SessionAction} (hstate : Mirrored state)
    (hstep : state.step action = some next)
    (haligned : Aligned state action) : Mirrored next := by
  cases action with
  | createSession uid token nodeId ttlSeconds =>
      obtain ⟨⟨hfresh, huid⟩, rfl⟩ := step_createSession hstep
      exact hstate.createSession hfresh huid ttlSeconds
  | revokeSession token =>
      cases hstep
      exact hstate.revokeSession haligned
  | revokeAllSessions uid =>
      cases hstep
      exact hstate.revokeAllSessions haligned
  | updateSessionNode token nodeId =>
      cases hstep
      exact hstate.updateSessionNode haligned
  | advance millis =>
      cases hstep
      exact hstate.advance haligned

theorem Mirrored.aligned {action : SessionAction} {asked : Set String}
    (hstate : Mirrored state) (hstep : state.step action = some next)
    (hnext : Interchangeable asked next) : Aligned state action := by
  cases action with
  | createSession => exact trivial
  | revokeSession token =>
      cases hstep
      exact hstate.aligned_revokeSession hnext
  | revokeAllSessions uid =>
      cases hstep
      exact hstate.aligned_revokeAllSessions hnext
  | updateSessionNode token nodeId =>
      cases hstep
      exact hstate.aligned_updateSessionNode hnext
  | advance millis =>
      cases hstep
      exact hstate.aligned_advance hnext

theorem mirrored_of_aligned {db : Database} {clock : Int}
    {actions : List SessionAction}
    (haligned : Runs.EachStep step Aligned (start db clock) actions) :
    Runs.Always step Mirrored (start db clock) actions :=
  Runs.always_of_eachStep (mirrored_start db clock)
    (fun _ _ _ hstep hstate hmove => hstate.step hstep hmove) haligned

def annRegistered : Database where
  users := KeyedTable.empty.insertIgnore { uid := "ann" }

def revokedEverywhere : List SessionAction :=
  [.createSession "ann" "t" "node-1" 604800, .revokeAllSessions "ann"]

end SessionBackends

end MuduoChat
