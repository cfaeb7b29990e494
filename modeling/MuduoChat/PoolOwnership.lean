import MuduoChat.MySQLPool
import Mathlib.Algebra.BigOperators.Group.Multiset.Basic
import Mathlib.Data.Multiset.AddSub
import Mathlib.Data.Multiset.UnionInter
import Mathlib.Data.List.Nodup

/-!
# Ownership of pooled connections

Every repository method takes at most one connection at a time and gives it
back on all of its paths; `verifyUser` is the one that may close it instead.
This is a protocol of the method's calls, and `Holding` is its automaton.
Along every interleaving the protocol gives, thread by thread, which handle
is held and which place of the pool is occupied.

Three questions are then answered about all runs: when the pool keeps its
capacity, that no handle is ever in two places or closed while it is in use,
and when the destructor closes what is open.
-/

namespace MuduoChat

open Holding (free holding reconnecting filling filled)

/-! ## The protocol of the methods -/

/-- A method without a connection may take one; with a connection it may
query, give it back or close it. -/
def connected : Bool → (call : DbCall) → call.Answer → Option Bool
  | false, .getConnection, conn => some conn
  | true, .query _, _ => some true
  | true, .returnConnection, _ | true, .closeConnection, _ => some false
  | _, _, _ => none

section Methods

variable {α β : Type}

/-- The program starts and ends without a connection. -/
def Bracketed (prog : DbProg α) : Prop :=
  Prog.Obeys connected (fun after _ => after = false) false prog

/-- The program only uses the connection that its caller has taken. -/
def Borrows (body : DbProg α) : Prop :=
  Prog.Obeys connected (fun after _ => after = true) true body

theorem bracketed_withConnection {unavailable : α} {body : DbProg α}
    (hbody : Borrows body) : Bracketed (withConnection unavailable body) := by
  intro conn
  refine ⟨conn, rfl, ?_⟩
  cases conn with
  | false => exact rfl
  | true =>
      apply hbody.bind
      intro after value hafter
      subst hafter
      intro answer
      exact ⟨false, rfl, rfl⟩

theorem borrows_query {statement : Statement}
    {next : Option statement.Result → DbProg α}
    (hnext : ∀ result, Borrows (next result)) :
    Borrows (mysqlQuery statement >>= next) := by
  intro result
  exact ⟨true, rfl, hnext result⟩

theorem borrows_ret {value : α} : Borrows (.ret value) := rfl

theorem bracketed_bind {prog : DbProg α} (hprog : Bracketed prog)
    (value : α → β) : Bracketed (prog >>= fun result => .ret (value result)) :=
  hprog.bind fun _ _ hafter => hafter

theorem bracketed_single {unavailable : α} {statement : Statement}
    {value : Option statement.Result → α} :
    Bracketed (withConnection unavailable
      (mysqlQuery statement >>= fun result => .ret (value result))) :=
  bracketed_withConnection (borrows_query fun _ => borrows_ret)

theorem bracketed_registerUser (uid passwd nickname email : String) :
    Bracketed (MySQLUserRepo.registerUser uid passwd nickname email) := by
  apply bracketed_withConnection
  apply borrows_query
  intro result
  cases result with
  | none => exact borrows_ret
  | some rows =>
      dsimp only
      split
      · exact borrows_ret
      · exact borrows_query fun _ => borrows_ret

theorem obeys_conclude (uid : String) (ok : Bool) :
    Prog.Obeys connected (fun after _ => after = false) true
      (MySQLUserRepo.conclude uid ok) := by
  cases ok with
  | false =>
      intro answer
      exact ⟨false, rfl, rfl⟩
  | true =>
      intro result
      refine ⟨true, rfl, ?_⟩
      intro answer
      exact ⟨false, rfl, rfl⟩

theorem bracketed_verifyUser (uid passwd : String) :
    Bracketed (MySQLUserRepo.verifyUser uid passwd) := by
  intro conn
  refine ⟨conn, rfl, ?_⟩
  cases conn with
  | false => exact rfl
  | true =>
      intro result
      refine ⟨true, rfl, ?_⟩
      cases result with
      | some rows => exact obeys_conclude uid _
      | none =>
          intro closed
          refine ⟨false, rfl, ?_⟩
          intro again
          refine ⟨again, rfl, ?_⟩
          cases again with
          | false => exact rfl
          | true =>
              intro second
              refine ⟨true, rfl, ?_⟩
              cases second with
              | some rows => exact obeys_conclude uid _
              | none => exact obeys_conclude uid false

theorem bracketed_respondFriendRequest (requester responder : String)
    (accepted : Bool) :
    Bracketed (MySQLFriendRepo.respondFriendRequest requester responder
      accepted) := by
  apply bracketed_withConnection
  apply borrows_query
  intro result
  cases result with
  | none => exact borrows_ret
  | some affected =>
      dsimp only
      cases accepted with
      | false => exact borrows_ret
      | true => exact borrows_query fun _ => borrows_ret

theorem bracketed_recallMessage (msgId : Int) (uid : String) :
    Bracketed (MySQLMessageRepo.recallMessage msgId uid) := by
  apply bracketed_withConnection
  apply borrows_query
  intro result
  cases result <;> exact borrows_ret

theorem bracketed_storeMessage (sender recipient room content : String) :
    Bracketed
      (MySQLMessageRepo.storeMessage sender recipient room content) := by
  have hlookup : Borrows (MySQLMessageRepo.lookupRoom room) := by
    unfold MySQLMessageRepo.lookupRoom
    split
    · exact borrows_ret
    · exact borrows_query fun _ => borrows_ret
  have hnext (roomId : Int) :
      Borrows (MySQLMessageRepo.nextSeq roomId) := by
    unfold MySQLMessageRepo.nextSeq
    split
    · exact borrows_query fun _ => borrows_ret
    · exact borrows_ret
  apply bracketed_withConnection
  apply hlookup.bind
  intro after roomId hafter
  subst hafter
  apply (hnext roomId).bind
  intro after seq hafter
  subst hafter
  exact borrows_query fun _ => borrows_ret

theorem bracketed_body (method : RepositoryMethod) :
    Bracketed method.body := by
  cases method with
  | registerUser uid passwd nickname email =>
      exact bracketed_bind
        (bracketed_registerUser uid passwd nickname email) _
  | verifyUser uid passwd =>
      exact bracketed_bind
        (bracketed_verifyUser uid passwd) _
  | respondFriendRequest requester responder accepted =>
      exact bracketed_bind
        (bracketed_respondFriendRequest requester responder accepted) _
  | recallMessage msgId uid =>
      exact bracketed_bind
        (bracketed_recallMessage msgId uid) _
  | storeMessage sender recipient room content =>
      exact bracketed_bind
        (bracketed_storeMessage sender recipient room content) _
  | roomExists name =>
      exact bracketed_bind (bracketed_bind bracketed_single _) _
  | isValidSession token =>
      exact bracketed_bind (bracketed_bind bracketed_single _) _
  | _ => exact bracketed_bind bracketed_single _

end Methods

/-! ## The protocol over the pool -/

namespace Holding

variable {phase : Holding} {conn : Handle}

def having : Option Handle → Holding
  | none => free
  | some conn => holding conn

theorem uses_self (hhandles : phase.handles = [conn]) :
    phase.uses (some conn) = some phase := by
  simp [uses, hhandles]

theorem obeys_createTables (hhandles : phase.handles = [conn])
    (names : List String) :
    Prog.Obeys advance (fun after _ => after = phase) phase
      (MySQLPool.createTables (some conn) names) := by
  have huse (name : String) (ok : Bool) :
      advance phase (.createTable (some conn) name) ok = some phase := by
    cases phase <;> exact uses_self hhandles
  induction names with
  | nil => exact rfl
  | cons name rest ih =>
      intro ok
      refine ⟨phase, huse name ok, ?_⟩
      cases ok with
      | false => exact rfl
      | true => exact ih

/-- From a phase without a handle to one that owns the new handle. -/
inductive Opens : Holding → (Handle → Holding) → Prop
  | reconnect : Opens reconnecting holding
  | fill : Opens filling filled

theorem obeys_createConnection {owner : Handle → Holding}
    (hopens : Opens phase owner) :
    Prog.Obeys advance
      (fun after conn => after = (conn.map owner).getD phase) phase
      MySQLPool.createConnection := by
  have hinit (conn : Option Handle) :
      advance phase .mysqlInit conn = some ((conn.map owner).getD phase) := by
    cases hopens <;> cases conn <;> rfl
  have hhandles (conn : Handle) : (owner conn).handles = [conn] := by
    cases hopens <;> rfl
  have hconnect (conn : Handle) (ok : Bool) :
      advance (owner conn) (.realConnect (some conn)) ok =
        some (owner conn) := by
    cases hopens <;> exact uses_self rfl
  have hclose (conn : Handle) :
      advance (owner conn) (.mysqlClose (some conn) .createConnection) () =
        some phase := by
    cases hopens <;> simp [advance]
  intro conn
  refine ⟨_, hinit conn, ?_⟩
  cases conn with
  | none => exact rfl
  | some conn =>
      intro ok
      refine ⟨owner conn, hconnect conn ok, ?_⟩
      cases ok with
      | false =>
          intro closed
          exact ⟨phase, hclose conn, rfl⟩
      | true =>
          apply (obeys_createTables (hhandles conn) _).bind
          intro after ready hafter
          subst hafter
          cases ready with
          | false =>
              intro closed
              exact ⟨phase, hclose conn, rfl⟩
          | true => exact rfl

theorem obeys_getConnection :
    Prog.Obeys advance (fun after conn => after = having conn) free
      MySQLPool.getConnection := by
  intro conn
  cases conn with
  | none => exact ⟨free, rfl, rfl⟩
  | some conn =>
      refine ⟨holding conn, rfl, ?_⟩
      intro alive
      refine ⟨holding conn, uses_self rfl, ?_⟩
      cases alive with
      | true => exact rfl
      | false =>
          intro closed
          refine ⟨reconnecting, by simp [advance], ?_⟩
          apply (obeys_createConnection .reconnect).bind
          intro after fresh hafter
          subst hafter
          cases fresh with
          | none =>
              intro answer
              exact ⟨free, rfl, rfl⟩
          | some fresh => exact rfl

theorem obeys_lower {prog : DbProg Unit} {has : Bool}
    {conn : Option Handle}
    (hprog : Prog.Obeys connected (fun after _ => after = false) has prog)
    (hconn : has = true → conn.isSome = true) :
    Prog.Obeys advance (fun after _ => after = free)
      (if has then having conn else free) (lower conn prog) := by
  induction prog generalizing has conn with
  | ret value =>
      have hhas : has = false := hprog
      subst hhas
      exact rfl
  | call request next ih =>
      cases request with
      | getConnection =>
          cases has with
          | true =>
              obtain ⟨after, hafter, _⟩ := hprog true
              cases hafter
          | false =>
              apply obeys_getConnection.bind
              intro after conn hafter
              subst hafter
              obtain ⟨has, hhas, hnext⟩ := hprog conn.isSome
              cases hhas
              have hsame : conn.isSome = true → conn.isSome = true := id
              have hrest := ih conn.isSome hnext hsame
              cases conn <;> exact hrest
      | query statement =>
          cases has with
          | false =>
              obtain ⟨after, hafter, _⟩ := hprog none
              cases hafter
          | true =>
              obtain ⟨conn, rfl⟩ := Option.isSome_iff_exists.mp (hconn rfl)
              intro result
              obtain ⟨has, hhas, hnext⟩ := hprog result
              cases hhas
              exact ⟨holding conn, uses_self rfl, ih result hnext hconn⟩
      | returnConnection | closeConnection =>
          cases has with
          | false =>
              obtain ⟨after, hafter, _⟩ := hprog ()
              cases hafter
          | true =>
              obtain ⟨conn, rfl⟩ := Option.isSome_iff_exists.mp (hconn rfl)
              intro answer
              obtain ⟨has, hhas, hnext⟩ := hprog ()
              cases hhas
              exact ⟨free, by simp [advance, having],
                ih () hnext (fun hfalse => nomatch hfalse)⟩

theorem obeys_method (method : RepositoryMethod) :
    Prog.Obeys advance (fun after _ => after = free) free method.program :=
  obeys_lower (bracketed_body method) (fun hfalse => nomatch hfalse)

theorem obeys_fill (count : Nat) :
    Prog.Obeys advance (fun after _ => after = filling) filling
      (MySQLPool.fill count) := by
  induction count with
  | zero => exact rfl
  | succ count ih =>
      apply (obeys_createConnection .fill).bind
      intro after conn hafter
      subst hafter
      cases conn with
      | none => exact rfl
      | some conn =>
          intro answer
          exact ⟨filling, by simp [advance], ih⟩

/-! ## What one call changes -/

/-- The steps of the automaton, one by one. -/
inductive Advances : Holding → (call : PoolCall) → call.Answer → Holding →
    Prop
  | timeout : Advances free .waitIdle none free
  | take (conn : Handle) :
      Advances free .waitIdle (some conn) (holding conn)
  | giveBack (conn : Handle) (answer : Unit) :
      Advances (holding conn) (.release conn) answer free
  | closeStale (conn : Handle) (answer : Unit) :
      Advances (holding conn) (.mysqlClose (some conn) .getConnection)
        answer reconnecting
  | closeUnready (conn : Handle) (answer : Unit) :
      Advances (holding conn) (.mysqlClose (some conn) .createConnection)
        answer reconnecting
  | closeRetry (conn : Handle) (answer : Unit) :
      Advances (holding conn) (.mysqlClose (some conn) .verifyUser)
        answer free
  | noHandle : Advances reconnecting .mysqlInit none reconnecting
  | reopen (conn : Handle) :
      Advances reconnecting .mysqlInit (some conn) (holding conn)
  | giveUp (answer : Unit) : Advances reconnecting .deactivate answer free
  | fillNone : Advances filling .mysqlInit none filling
  | fillOpen (conn : Handle) :
      Advances filling .mysqlInit (some conn) (filled conn)
  | fillClose (conn : Handle) (answer : Unit) :
      Advances (filled conn) (.mysqlClose (some conn) .createConnection)
        answer filling
  | adopt (conn : Handle) (answer : Unit) :
      Advances (filled conn) (.adopt conn) answer filling
  | connect (phase : Holding) (conn : Handle) (answer : Bool) :
      Advances phase (.realConnect (some conn)) answer phase
  | table (phase : Holding) (conn : Handle) (name : String) (answer : Bool) :
      Advances phase (.createTable (some conn) name) answer phase
  | ping (phase : Holding) (conn : Handle) (answer : Bool) :
      Advances phase (.ping (some conn)) answer phase
  | query (phase : Holding) (conn : Handle) (statement : Statement)
      (answer : Option statement.Result) :
      Advances phase (.query (some conn) statement) answer phase

theorem eq_of_uses {next : Holding} {used : Option Handle}
    (huses : phase.uses used = some next) :
    next = phase ∧ ∃ conn, used = some conn := by
  unfold uses at huses
  split at huses
  · rename_i hused
    exact ⟨(Option.some.inj huses).symm,
      Option.isSome_iff_exists.mp hused.2⟩
  · cases huses

section Call

variable {pool after : MySQLPool} {next : Holding} {call : PoolCall}
  {answer : call.Answer}

theorem advances_of_advance
    (hadvance : advance phase call answer = some next) :
    Advances phase call answer next := by
  cases call with
  | waitIdle =>
      cases phase <;> cases answer <;> cases hadvance <;> constructor
  | mysqlInit =>
      cases phase <;> cases answer <;> cases hadvance <;> constructor
  | deactivate =>
      cases phase <;> cases hadvance
      constructor
  | release | adopt =>
      cases phase <;> simp only [advance, reduceCtorEq] at hadvance
      split at hadvance <;> cases hadvance
      rename_i heq
      subst heq
      constructor
  | mysqlClose conn site =>
      cases phase <;> cases site <;>
        simp only [advance, reduceCtorEq] at hadvance
      all_goals
        split at hadvance <;> cases hadvance
        rename_i heq
        subst heq
        constructor
  | realConnect conn | createTable conn _ | ping conn | query conn _ =>
      have huses : next = phase ∧ ∃ used, conn = some used := by
        cases phase <;> exact eq_of_uses hadvance
      obtain ⟨rfl, used, rfl⟩ := huses
      constructor

/-- A call moves handles between the pool and its thread, or brings in a
handle that was not open, or closes the handle of its thread. -/
inductive Transfers (pool : MySQLPool) (phase : Holding) :
    MySQLPool → Holding → Prop
  | keep {after : MySQLPool} {next : Holding}
      (hopened : after.opened = pool.opened)
      (hhandles : (after.idle : Multiset Handle) + next.handles =
        pool.idle + phase.handles) : Transfers pool phase after next
  | fresh {next : Holding} (conn : Handle) (hconn : conn ∉ pool.opened)
      (hphase : phase.handles = []) (hnext : next.handles = [conn]) :
      Transfers pool phase
        { pool with opened := insert conn pool.opened } next
  | close {next : Holding} (conn : Handle) (hphase : phase.handles = [conn])
      (hnext : next.handles = []) :
      Transfers pool phase
        { pool with opened := pool.opened.erase conn } next

theorem idle_of_waitIdle {conn : Handle}
    (heffect : pool.effect .waitIdle (some conn) = some after) :
    pool.idle = conn :: after.idle ∧
      after = { pool with
        idle := pool.idle.tail, activeConns := pool.activeConns + 1 } := by
  simp only [MySQLPool.effect] at heffect
  split at heffect <;> cases heffect
  rename_i hhead
  obtain ⟨rest, hrest⟩ := List.head?_eq_some_iff.mp hhead
  exact ⟨by rw [hrest]; rfl, rfl⟩

theorem opened_of_mysqlInit {conn : Handle}
    (heffect : pool.effect .mysqlInit (some conn) = some after) :
    conn ∉ pool.opened ∧
      after = { pool with opened := insert conn pool.opened } := by
  simp only [MySQLPool.effect] at heffect
  split at heffect <;> cases heffect
  rename_i hfresh
  exact ⟨hfresh, rfl⟩

theorem eq_of_timeout (heffect : pool.effect .waitIdle none = some after) :
    after = pool := by
  simp only [MySQLPool.effect] at heffect
  split at heffect <;> cases heffect
  rfl

theorem transfers_of_advances
    (hadvances : Advances phase call answer next)
    (heffect : pool.effect call answer = some after) :
    Transfers pool phase after next := by
  cases hadvances with
  | timeout =>
      have hafter : after = pool := eq_of_timeout heffect
      subst hafter
      exact .keep rfl rfl
  | take conn =>
      obtain ⟨hidle, hafter⟩ := idle_of_waitIdle heffect
      have hperm : (after.idle ++ [conn]).Perm (pool.idle ++ []) := by
        rw [hidle, List.append_nil]
        exact List.perm_append_singleton conn after.idle
      exact .keep (by rw [hafter]) (Multiset.coe_eq_coe.mpr hperm)
  | giveBack | adopt =>
      cases heffect
      exact .keep rfl (add_zero _)
  | closeStale conn | closeUnready conn | closeRetry conn
  | fillClose conn =>
      cases heffect
      exact .close conn rfl rfl
  | reopen conn | fillOpen conn =>
      obtain ⟨hfresh, rfl⟩ := opened_of_mysqlInit heffect
      exact .fresh conn hfresh rfl rfl
  | noHandle | fillNone | giveUp | connect | table | ping | query =>
      cases heffect
      exact .keep rfl rfl

/-- The two calls that give up a place of the pool without returning a
connection: the counter's correction after a failed reconnection, and
`verifyUser`'s own `mysql_close`. -/
def Forfeits : PoolCall → Prop
  | .deactivate | .mysqlClose _ .verifyUser => True
  | _ => False

/-- The phases of the threads that run a repository method. -/
def OfMethod : Holding → Prop
  | free | holding _ | reconnecting => True
  | filling | filled _ => False

theorem OfMethod.advances (hphase : phase.OfMethod)
    (hadvances : Advances phase call answer next) : next.OfMethod := by
  cases hadvances <;> trivial

theorem conns_of_advances (hphase : phase.OfMethod)
    (hadvances : Advances phase call answer next)
    (heffect : pool.effect call answer = some after) :
    after.conns = pool.conns := by
  cases hadvances with
  | timeout => rw [eq_of_timeout heffect]
  | take conn => rw [(idle_of_waitIdle heffect).2]
  | reopen conn => rw [(opened_of_mysqlInit heffect).2]
  | fillNone | fillOpen | fillClose | adopt => exact hphase.elim
  | _ =>
      cases heffect
      rfl

theorem slots_of_not_forfeits (hphase : phase.OfMethod)
    (hadvances : Advances phase call answer next)
    (heffect : pool.effect call answer = some after)
    (hkeeps : ¬ Forfeits call) :
    after.idle.length + next.slots = pool.idle.length + phase.slots ∧
      after.activeConns + phase.slots = pool.activeConns + next.slots := by
  cases hadvances with
  | timeout =>
      rw [eq_of_timeout heffect]
      simp
  | take conn =>
      obtain ⟨hidle, hafter⟩ := idle_of_waitIdle heffect
      rw [hidle, hafter]
      simp [slots, hidle]
  | reopen conn =>
      obtain ⟨hfresh, rfl⟩ := opened_of_mysqlInit heffect
      simp [slots]
  | closeRetry | giveUp => exact (hkeeps trivial).elim
  | fillNone | fillOpen | fillClose | adopt => exact hphase.elim
  | _ =>
      cases heffect
      simp [slots]

theorem slots_of_forfeits (hadvances : Advances phase call answer next)
    (heffect : pool.effect call answer = some after)
    (hforfeits : Forfeits call) :
    after.idle.length + next.slots + 1 =
      pool.idle.length + phase.slots := by
  cases hadvances with
  | closeRetry | giveUp =>
      cases heffect
      simp [slots]
  | _ => exact hforfeits.elim

end Call

end Holding

end MuduoChat
