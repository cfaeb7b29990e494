import MuduoChat.RedisSessionRepo
import Mathlib.Data.List.Induction
import Mathlib.Data.List.Infix

/-!
# The connection of a thread to Redis

`RedisPool` keeps one connection for each thread, made at the first call of
`getConnection` and made again when it has an error.  The client library is
not part of the repository: what it would do is an argument of every call, and
may be different each time.

A thread that was once refused a connection keeps a null pointer and the flag
that says it is initialised, and no later call makes another attempt.  The
methods of `RedisSessionRepo` on this thread then give up.
-/

namespace MuduoChat

/-! ## The client library -/

structure RedisContext where
  err : Bool
  deriving DecidableEq

inductive ReplyType where
  | string
  | array
  | integer
  | nil
  | status
  | error
  deriving DecidableEq

structure RedisReply where
  type : ReplyType
  str : String
  deriving DecidableEq

/-- What the library would do at one moment.  A connection attempt may give no
context at all.  A command without a reply leaves an error on its context. -/
structure Hiredis where
  redisConnect : String → Int → Option RedisContext
  redisCommand : List String → Option RedisReply

/-! ## The pool -/

structure RedisPool where
  host : String
  port : Int
  password : String
  db : Int

/-- The two thread-local variables. -/
structure RedisThread where
  initialized : Bool
  conn : Option RedisContext
  initialized_of_conn : conn.isSome = true → initialized = true

namespace RedisThread

def initial : RedisThread :=
  ⟨false, none, by simp⟩

/-- The connection breaks, or a command on it goes unanswered. -/
def connectionError (thread : RedisThread) : RedisThread :=
  { thread with
    conn := thread.conn.map fun _ => ⟨true⟩
    initialized_of_conn := by
      rw [Option.isSome_map]
      exact thread.initialized_of_conn }

def close (thread : RedisThread) : RedisThread :=
  match thread.conn with
  | some _ => ⟨false, none, by simp⟩
  | none => thread

end RedisThread

namespace RedisPool

section Calls

variable (pool : RedisPool) (hiredis : Hiredis)

/-- `AUTH`, if there is a password. -/
def authenticated : Bool :=
  if pool.password ≠ "" then
    match hiredis.redisCommand ["AUTH", pool.password] with
    | some reply => reply.type = .status ∧ reply.str = "OK"
    | none => false
  else true

/-- `SELECT`, if the database is not the first.  Nobody looks at the reply. -/
def selected (conn : RedisContext) : RedisContext :=
  if pool.db ≠ 0 then
    match hiredis.redisCommand ["SELECT", toString pool.db] with
    | some _ => conn
    | none => { conn with err := true }
  else conn

def createConnection : Option RedisContext :=
  match hiredis.redisConnect pool.host pool.port with
  | none => none
  | some conn =>
      if conn.err then none
      else if !pool.authenticated hiredis then none
      else some (pool.selected hiredis conn)

def reconnect (thread : RedisThread) (hinit : thread.initialized = true) :
    RedisThread :=
  ⟨thread.initialized, pool.createConnection hiredis, fun _ => hinit⟩

/-- The call returns the connection it leaves. -/
def getConnection (thread : RedisThread) : RedisThread :=
  if hinit : thread.initialized = true then
    match thread.conn with
    | some conn =>
        if conn.err then pool.reconnect hiredis thread hinit else thread
    | none => thread
  else ⟨true, pool.createConnection hiredis, fun _ => rfl⟩

end Calls

/-! ## Runs of one thread -/

inductive Action where
  | getConnection (hiredis : Hiredis)
  | connectionError
  | close

def step (pool : RedisPool) (thread : RedisThread) : Action → RedisThread
  | .getConnection hiredis => pool.getConnection hiredis thread
  | .connectionError => thread.connectionError
  | .close => thread.close

def after (pool : RedisPool) (actions : List Action) : RedisThread :=
  actions.foldl pool.step .initial

@[simp] theorem after_nil (pool : RedisPool) : pool.after [] = .initial := rfl

@[simp] theorem after_concat (pool : RedisPool) (actions : List Action)
    (action : Action) :
    pool.after (actions ++ [action]) =
      pool.step (pool.after actions) action := by
  rw [after, List.foldl_append]
  rfl

/-- The thread holds no connection, or one with an error. -/
def NeedsConnection (thread : RedisThread) : Prop :=
  ∀ conn, thread.conn = some conn → conn.err = true

section Attempts

variable (pool : RedisPool) (hiredis : Hiredis)

/-- An attempt now would be answered all the way. -/
structure AttemptSucceeds : Prop where
  connects : ∃ conn, hiredis.redisConnect pool.host pool.port = some conn ∧
    conn.err = false
  authenticates : pool.password ≠ "" → ∃ reply,
    hiredis.redisCommand ["AUTH", pool.password] = some reply ∧
      reply.type = .status ∧ reply.str = "OK"
  selects : pool.db ≠ 0 → ∃ reply,
    hiredis.redisCommand ["SELECT", toString pool.db] = some reply

/-- An attempt now would not get as far as a connection with the right to
use it. -/
def AttemptRefused : Prop :=
  (∀ conn, hiredis.redisConnect pool.host pool.port = some conn →
    conn.err = true) ∨
  (pool.password ≠ "" ∧ ∀ reply,
    hiredis.redisCommand ["AUTH", pool.password] = some reply →
      ¬ (reply.type = .status ∧ reply.str = "OK"))

end Attempts

/-- Whenever the thread needs a connection and could have one, it gets it. -/
def Recovers (pool : RedisPool) (actions : List Action) : Prop :=
  ∀ before hiredis, before ++ [.getConnection hiredis] <+: actions →
    NeedsConnection (pool.after before) →
      pool.AttemptSucceeds hiredis →
        ∃ conn, (pool.getConnection hiredis (pool.after before)).conn =
          some conn ∧ conn.err = false

/-- A call that needed a connection was refused one. -/
def RefusedBefore (pool : RedisPool) (actions : List Action) : Prop :=
  ∃ before hiredis, before ++ [.getConnection hiredis] <+: actions ∧
    NeedsConnection (pool.after before) ∧ pool.AttemptRefused hiredis

/-! ## Attempts -/

section Attempts

variable {pool : RedisPool} {hiredis : Hiredis}

theorem authenticated_iff :
    pool.authenticated hiredis = true ↔
      (pool.password ≠ "" → ∃ reply,
        hiredis.redisCommand ["AUTH", pool.password] = some reply ∧
          reply.type = .status ∧ reply.str = "OK") := by
  unfold authenticated
  by_cases hpassword : pool.password = ""
  · simp [hpassword]
  · rw [if_pos hpassword]
    cases hreply : hiredis.redisCommand ["AUTH", pool.password] with
    | none => simp [hpassword]
    | some reply => simp [hpassword]

theorem createConnection_of_succeeds
    (hsucceeds : pool.AttemptSucceeds hiredis) :
    ∃ conn, pool.createConnection hiredis = some conn ∧
      conn.err = false := by
  obtain ⟨⟨conn, hconnect, herr⟩, hauthenticates, hselects⟩ := hsucceeds
  have hauthenticated := authenticated_iff.mpr hauthenticates
  have hselected : pool.selected hiredis conn = conn := by
    unfold selected
    by_cases hdb : pool.db = 0
    · rw [if_neg (not_not.mpr hdb)]
    · obtain ⟨reply, hreply⟩ := hselects hdb
      rw [if_pos hdb, hreply]
  refine ⟨conn, ?_, herr⟩
  rw [createConnection, hconnect]
  simp [herr, hauthenticated, hselected]

theorem createConnection_eq_none_iff :
    pool.createConnection hiredis = none ↔ pool.AttemptRefused hiredis := by
  have hrefused : pool.authenticated hiredis = false ↔
      pool.password ≠ "" ∧ ∀ reply,
        hiredis.redisCommand ["AUTH", pool.password] = some reply →
          ¬ (reply.type = .status ∧ reply.str = "OK") := by
    rw [← Bool.not_eq_true, authenticated_iff]
    simp only [Classical.not_imp, not_exists, not_and]
  rw [AttemptRefused, ← hrefused, createConnection]
  cases hiredis.redisConnect pool.host pool.port with
  | none => simp
  | some conn =>
      cases herr : conn.err <;> cases pool.authenticated hiredis <;>
        simp [herr]

/-- Unless no connection is needed, a call makes an attempt. -/
theorem getConnection_conn {thread : RedisThread}
    (hneeds : NeedsConnection thread)
    (hopen : thread.initialized = true → thread.conn ≠ none) :
    (pool.getConnection hiredis thread).conn =
      pool.createConnection hiredis := by
  unfold getConnection
  split
  · rename_i hinit
    split
    · rename_i conn hconn
      rw [if_pos (hneeds conn hconn)]
      rfl
    · rename_i hconn
      exact absurd hconn (hopen hinit)
  · rfl

/-- A connection without an error is used again. -/
theorem getConnection_of_held {thread : RedisThread} {conn : RedisContext}
    (hconn : thread.conn = some conn) (herr : conn.err = false) :
    pool.getConnection hiredis thread = thread := by
  have hinit : thread.initialized = true :=
    thread.initialized_of_conn (by rw [hconn]; rfl)
  unfold getConnection
  rw [dif_pos hinit]
  split
  · rename_i held hheld
    rw [hconn] at hheld
    cases hheld
    rw [herr]
    rfl
  · rfl

theorem initialized_getConnection (thread : RedisThread) :
    (pool.getConnection hiredis thread).initialized = true := by
  unfold getConnection
  split
  · rename_i hinit
    split
    · split
      · exact hinit
      · exact hinit
    · exact hinit
  · rfl

end Attempts

/-! ## A refused attempt is the last one -/

/-- The thread counts as initialised and holds no connection. -/
def Stuck (thread : RedisThread) : Prop :=
  thread.initialized = true ∧ thread.conn = none

section Steps

variable {pool : RedisPool} {thread : RedisThread}

theorem Stuck.needsConnection (hstuck : Stuck thread) :
    NeedsConnection thread := by
  intro conn hconn
  rw [hstuck.2] at hconn
  cases hconn

/-- No call, error or `close` helps. -/
theorem Stuck.step (hstuck : Stuck thread) (action : Action) :
    pool.step thread action = thread := by
  obtain ⟨hinit, hconn⟩ := hstuck
  obtain ⟨initialized, conn, hheld⟩ := thread
  cases hinit
  cases hconn
  cases action <;> rfl

theorem not_stuck_close : ¬ Stuck thread → ¬ Stuck thread.close := by
  intro hopen
  unfold RedisThread.close
  split
  · simp [Stuck]
  · exact hopen

theorem not_stuck_connectionError (hopen : ¬ Stuck thread) :
    ¬ Stuck thread.connectionError := by
  rintro ⟨hinit, hconn⟩
  exact hopen ⟨hinit, Option.map_eq_none_iff.mp hconn⟩

theorem stuck_getConnection_iff {hiredis : Hiredis} (hopen : ¬ Stuck thread) :
    Stuck (pool.getConnection hiredis thread) ↔
      NeedsConnection thread ∧ pool.AttemptRefused hiredis := by
  have hheld : thread.initialized = true → thread.conn ≠ none :=
    fun hinit hconn => hopen ⟨hinit, hconn⟩
  rw [← createConnection_eq_none_iff]
  by_cases hneeds : NeedsConnection thread
  · rw [Stuck, getConnection_conn hneeds hheld]
    exact ⟨fun hstuck => ⟨hneeds, hstuck.2⟩,
      fun hnone => ⟨initialized_getConnection thread, hnone.2⟩⟩
  · obtain ⟨conn, hconn, herr⟩ :
        ∃ conn, thread.conn = some conn ∧ conn.err = false := by
      simpa only [NeedsConnection, not_forall, exists_prop,
        Bool.not_eq_true] using hneeds
    rw [getConnection_of_held hconn herr]
    exact iff_of_false hopen fun hboth => hneeds hboth.1

end Steps

section Runs

variable {pool : RedisPool}

theorem refusedBefore_concat {actions : List Action} {action : Action} :
    pool.RefusedBefore (actions ++ [action]) ↔
      pool.RefusedBefore actions ∨ ∃ hiredis,
        action = .getConnection hiredis ∧
          NeedsConnection (pool.after actions) ∧
          pool.AttemptRefused hiredis := by
  constructor
  · rintro ⟨before, hiredis, hprefix, hneeds, hrefused⟩
    rcases List.prefix_concat_iff.mp hprefix with hlast | hearlier
    · obtain ⟨rfl, hsame⟩ := List.append_inj' hlast rfl
      cases hsame
      exact .inr ⟨hiredis, rfl, hneeds, hrefused⟩
    · exact .inl ⟨before, hiredis, hearlier, hneeds, hrefused⟩
  · rintro (⟨before, hiredis, hprefix, hneeds, hrefused⟩ |
      ⟨hiredis, rfl, hneeds, hrefused⟩)
    · exact ⟨before, hiredis, hprefix.trans (List.prefix_append _ _), hneeds,
        hrefused⟩
    · exact ⟨actions, hiredis, List.prefix_refl _, hneeds, hrefused⟩

/-- Only a refused attempt leaves a thread that makes no more of them, and
every refused attempt does. -/
theorem stuck_after_iff (actions : List Action) :
    Stuck (pool.after actions) ↔ pool.RefusedBefore actions := by
  induction actions using List.reverseRecOn with
  | nil =>
      refine iff_of_false (by simp [Stuck, RedisThread.initial]) ?_
      rintro ⟨before, hiredis, hprefix, -⟩
      simp at hprefix
  | append_singleton actions action ih =>
      rw [refusedBefore_concat, ← ih, after_concat]
      by_cases hstuck : Stuck (pool.after actions)
      · rw [hstuck.step]
        exact iff_of_true hstuck (.inl hstuck)
      · cases action with
        | getConnection hiredis =>
            simp [step, stuck_getConnection_iff hstuck, hstuck]
        | connectionError =>
            have hopen := not_stuck_connectionError hstuck
            simp [step, hopen, hstuck]
        | close =>
            have hopen := not_stuck_close hstuck
            simp [step, hopen, hstuck]

/-- The calls of a run recover exactly if each call that could have a
connection comes before the first one that was refused. -/
theorem recovers_iff (pool : RedisPool) (actions : List Action) :
    pool.Recovers actions ↔
      ∀ before hiredis, before ++ [.getConnection hiredis] <+: actions →
        pool.AttemptSucceeds hiredis → ¬ pool.RefusedBefore before := by
  constructor
  · intro hrecovers before hiredis hprefix hsucceeds hrefused
    have hstuck := (stuck_after_iff before).mpr hrefused
    obtain ⟨conn, hconn, -⟩ := hrecovers before hiredis hprefix
      hstuck.needsConnection hsucceeds
    have hsame : pool.getConnection hiredis (pool.after before) =
        pool.after before := hstuck.step (.getConnection hiredis)
    rw [hsame, hstuck.2] at hconn
    cases hconn
  · intro hopen before hiredis hprefix hneeds hsucceeds
    have hnot : ¬ Stuck (pool.after before) := fun hstuck =>
      hopen before hiredis hprefix hsucceeds
        ((stuck_after_iff before).mp hstuck)
    rw [getConnection_conn hneeds fun hinit hconn => hnot ⟨hinit, hconn⟩]
    exact createConnection_of_succeeds hsucceeds

/-- A refused thread stays as it is. -/
theorem after_append_of_refused {actions : List Action}
    (hrefused : pool.RefusedBefore actions) (later : List Action) :
    pool.after (actions ++ later) = pool.after actions := by
  have hstuck := (stuck_after_iff actions).mpr hrefused
  induction later using List.reverseRecOn with
  | nil => rw [List.append_nil]
  | append_singleton later action ih =>
      rw [← List.append_assoc, after_concat, ih]
      exact hstuck.step action

/-- From then on every method of the repository gives up, whatever Redis would
answer. -/
theorem gives_up_of_refused {α : Type} {actions : List Action}
    (hrefused : pool.RefusedBefore actions) (later : List Action)
    (hiredis : Hiredis) (unavailable : α) (body : RedisProg α) :
    (RedisSessionRepo.withConnection unavailable body).resume .getConnection
        (pool.getConnection hiredis
          (pool.after (actions ++ later))).conn.isSome =
      some (.ret unavailable) := by
  have hstuck := (stuck_after_iff actions).mpr hrefused
  have hsame : pool.getConnection hiredis (pool.after actions) =
      pool.after actions := hstuck.step (.getConnection hiredis)
  rw [after_append_of_refused hrefused, hsame, hstuck.2]
  rfl

end Runs

/-! ## One refused attempt -/

def unreachable : Hiredis :=
  ⟨fun _ _ => some ⟨true⟩, fun _ => none⟩

def reachable : Hiredis :=
  ⟨fun _ _ => some ⟨false⟩, fun _ => some ⟨.status, "OK"⟩⟩

theorem recovers_fails_refused :
    ¬ Recovers ⟨"127.0.0.1", 6379, "", 0⟩
      [.getConnection unreachable, .getConnection reachable] := by
  intro hrecovers
  have hneeds : NeedsConnection (after ⟨"127.0.0.1", 6379, "", 0⟩
      [.getConnection unreachable]) := by
    intro conn hconn
    cases hconn
  obtain ⟨conn, hconn, -⟩ := hrecovers [.getConnection unreachable] reachable
    (List.prefix_refl _) hneeds
    ⟨⟨⟨false⟩, rfl, rfl⟩, fun _ => ⟨⟨.status, "OK"⟩, rfl, rfl, rfl⟩,
      fun _ => ⟨⟨.status, "OK"⟩, rfl⟩⟩
  cases hconn

end RedisPool

end MuduoChat
