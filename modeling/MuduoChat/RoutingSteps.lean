import MuduoChat.TokenRevocation

/-!
# How logins and logouts write routing data

A login writes the node of its user twice, under `online:uid` and in
`user_route`, with one command each; a logout deletes both in the same way.
A login by token writes neither: it only renames the node in its session.

`RoutePhase` follows a thread through these commands, with uids, tokens and
nodes as Redis is given them, up to a NUL.  A thread with a failed command or
without a connection is `broken`; nothing is said about it.
-/

namespace MuduoChat

open RedisSessionRepo (readSession)

/-- The phases of a login (`login` to `routed`), of a login by token
(`asking` to `renewed`) and of a logout (`logout` to `left`).  In the phases
`online` and `offline` one of the two routing entries is written and the
other is not. -/
inductive RoutePhase where
  | login (uid node : String)
  | drew (uid node token : String)
  | stored (uid node token : String)
  | online (uid node token : String)
  | routed (uid node token : String)
  | asking (token node : String)
  | found (token node uid : String)
  | renewed (token node uid : String)
  | logout (uid token : String)
  | offline (uid : String)
  | left (uid : String)
  | broken
  deriving DecidableEq

/-- The call got no connection, or its command failed. -/
def failed : (call : LoginCall) → call.Answer → Bool
  | .redis .getConnection, conn => !conn
  | .redis (.command _), outcome =>
      !(outcome.executed && outcome.reply.isSome)
  | _, _ => false

namespace RoutePhase

def followCommand (phase : RoutePhase) (outcome : CommandOutcome) :
    RedisCommand → Option RoutePhase
  | .hmset key assigned =>
      match phase with
      | drew uid node token =>
          if key = sessionKey token ∧ (assigned.map Prod.fst).Nodup ∧
              ("node_id", node) ∈ assigned then
            some (stored uid node token)
          else none
      | found token node uid =>
          if key = sessionKey token ∧ assigned = [("node_id", node)] then
            some (renewed token node uid)
          else none
      | _ => none
  | .expire key seconds =>
      match phase with
      | stored uid node token =>
          if key = sessionKey token ∧ 0 < seconds then
            some (stored uid node token)
          else none
      | _ => none
  | .set key data =>
      match phase with
      | stored uid node token =>
          if key = onlineKey uid ∧ data = node then
            some (online uid node token)
          else none
      | _ => none
  | .hset key name data =>
      match phase with
      | online uid node token =>
          if key = userRoute ∧ name = uid ∧ data = node then
            some (routed uid node token)
          else none
      | _ => none
  | .hmget key names =>
      match phase with
      | asking token node =>
          if key = sessionKey token ∧ names = ["uid", "node_id"] then
            match (readSession token outcome.reply).map SessionInfo.uid with
            | none => some (asking token node)
            | some uid => some (found token node uid)
          else none
      | _ => none
  | .del key =>
      match phase with
      | logout uid token =>
          if key = sessionKey token then some (logout uid token)
          else if key = onlineKey uid then some (offline uid)
          else none
      | _ => none
  | .get _ =>
      match phase with
      | logout uid token => some (logout uid token)
      | _ => none
  | .hdel key name =>
      match phase with
      | offline uid =>
          if key = userRoute ∧ name = uid then some (left uid) else none
      | _ => none

def follow (phase : RoutePhase) :
    (call : LoginCall) → call.Answer → Option RoutePhase
  | .redis (.command command), outcome =>
      phase.followCommand outcome command
  | .repository .generateToken, token =>
      match phase with
      | login uid node => some (drew uid node (cstr token))
      | _ => none
  | _, _ => some phase

def advance (phase : RoutePhase) (call : LoginCall) (answer : call.Answer) :
    Option RoutePhase :=
  if phase = broken ∨ failed call answer = true then some broken
  else phase.follow call answer

def start : LoginOp → RoutePhase
  | .login uid _ nodeId => login (cstr uid) (cstr nodeId)
  | .loginWithToken token nodeId => asking (cstr token) (cstr nodeId)
  | .logout uid token => logout (cstr uid) (cstr token)

/-- The phases in which an operation returns. -/
def Settled : RoutePhase → LoginReply → Prop
  | login .., .login result | drew .., .login result
  | asking .., .login result => result.success = false
  | routed _ _ token, .login result =>
      result.success = true ∧ cstr result.token = token
  | renewed .., .login _ | left _, .logout _ | broken, _ => True
  | _, _ => False

/-! ## The programs of the login service -/

section Obeys

variable {α : Type} {post : RoutePhase → α → Prop}

theorem obeys_broken (hpost : ∀ value, post broken value)
    (prog : LoginProg α) : Prog.Obeys advance post broken prog := by
  induction prog with
  | ret value => exact hpost value
  | call request next ih =>
      intro answer
      exact ⟨broken, by simp [advance], ih answer⟩

theorem obeys_call_of_follow (hpost : ∀ value, post broken value)
    {phase : RoutePhase} {call : LoginCall}
    {next : call.Answer → LoginProg α}
    (hnext : ∀ answer, failed call answer = false →
      ∃ after, phase.follow call answer = some after ∧
        Prog.Obeys advance post after (next answer)) :
    Prog.Obeys advance post phase (.call call next) := by
  intro answer
  by_cases hbroken : phase = broken ∨ failed call answer = true
  · exact ⟨broken, if_pos hbroken, obeys_broken hpost _⟩
  · have hfine : failed call answer = false := by
      rw [not_or] at hbroken
      simpa using hbroken.2
    obtain ⟨after, hfollow, hafter⟩ := hnext answer hfine
    exact ⟨after, by rw [advance, if_neg hbroken, hfollow], hafter⟩

end Obeys

theorem settled_broken (reply : LoginReply) : Settled broken reply := by
  cases reply <;> exact trivial

theorem obeys_login (uid passwd nodeId : String) :
    Prog.Obeys advance Settled (login (cstr uid) (cstr nodeId))
      (LoginOp.login uid passwd nodeId).program := by
  apply obeys_call_of_follow settled_broken
  intro verified _
  refine ⟨login (cstr uid) (cstr nodeId), rfl, ?_⟩
  cases verified with
  | false => exact rfl
  | true =>
      apply obeys_call_of_follow settled_broken
      intro userInfo _
      refine ⟨login (cstr uid) (cstr nodeId), rfl, ?_⟩
      cases userInfo with
      | none => exact rfl
      | some userInfo =>
          apply obeys_call_of_follow settled_broken
          intro token _
          refine ⟨drew (cstr uid) (cstr nodeId) (cstr token), rfl, ?_⟩
          apply obeys_call_of_follow settled_broken
          intro conn hconn
          refine ⟨drew (cstr uid) (cstr nodeId) (cstr token), rfl, ?_⟩
          cases conn with
          | false => cases hconn
          | true =>
              apply obeys_call_of_follow settled_broken
              intro now _
              refine ⟨drew (cstr uid) (cstr nodeId) (cstr token), rfl, ?_⟩
              apply obeys_call_of_follow settled_broken
              intro hmset _
              refine ⟨stored (cstr uid) (cstr nodeId) (cstr token),
                by simp [follow, followCommand], ?_⟩
              apply obeys_call_of_follow settled_broken
              intro expire _
              refine ⟨stored (cstr uid) (cstr nodeId) (cstr token),
                by simp [follow, followCommand], ?_⟩
              apply obeys_call_of_follow settled_broken
              intro set _
              refine ⟨online (cstr uid) (cstr nodeId) (cstr token),
                by simp [follow, followCommand], ?_⟩
              apply obeys_call_of_follow settled_broken
              intro hset _
              refine ⟨routed (cstr uid) (cstr nodeId) (cstr token),
                by simp [follow, followCommand], ?_⟩
              apply obeys_call_of_follow settled_broken
              intro friends _
              refine ⟨routed (cstr uid) (cstr nodeId) (cstr token), rfl, ?_⟩
              apply obeys_call_of_follow settled_broken
              intro requests _
              refine ⟨routed (cstr uid) (cstr nodeId) (cstr token), rfl, ?_⟩
              apply obeys_call_of_follow settled_broken
              intro messages _
              exact ⟨routed (cstr uid) (cstr nodeId) (cstr token), rfl, rfl,
                rfl⟩

theorem obeys_getSessionByToken (token nodeId : String) :
    Prog.Obeys advance
      (fun after session => after = broken ∨ after = session.elim
        (asking (cstr token) (cstr nodeId))
        fun info => found (cstr token) (cstr nodeId) info.uid)
      (asking (cstr token) (cstr nodeId))
      (overRedis (RedisSessionRepo.getSessionByToken token)) := by
  have hpost (session : Option SessionInfo) : broken = broken ∨
      broken = session.elim (asking (cstr token) (cstr nodeId)) fun info =>
        found (cstr token) (cstr nodeId) info.uid := .inl rfl
  apply obeys_call_of_follow hpost
  intro conn hconn
  refine ⟨asking (cstr token) (cstr nodeId), rfl, ?_⟩
  cases conn with
  | false => cases hconn
  | true =>
      apply obeys_call_of_follow hpost
      intro outcome _
      refine ⟨(readSession token outcome.reply).elim
        (asking (cstr token) (cstr nodeId))
        fun info => found (cstr token) (cstr nodeId) info.uid, ?_, .inr rfl⟩
      simp only [follow, followCommand, cstr_sessionKey, and_self, if_true]
      rw [map_uid_readSession (cstr token) token]
      cases readSession token outcome.reply <;> rfl

theorem obeys_updateSessionNode (token nodeId uid : String) :
    Prog.Obeys advance
      (fun after _ => after = broken ∨
        after = renewed (cstr token) (cstr nodeId) uid)
      (found (cstr token) (cstr nodeId) uid)
      (overRedis (RedisSessionRepo.updateSessionNode token nodeId)) := by
  have hpost (_ : Bool) : broken = broken ∨
      broken = renewed (cstr token) (cstr nodeId) uid := .inl rfl
  apply obeys_call_of_follow hpost
  intro conn hconn
  refine ⟨found (cstr token) (cstr nodeId) uid, rfl, ?_⟩
  cases conn with
  | false => cases hconn
  | true =>
      apply obeys_call_of_follow hpost
      intro outcome _
      exact ⟨renewed (cstr token) (cstr nodeId) uid,
        by simp [follow, followCommand], .inr rfl⟩

theorem obeys_loginWithToken (token nodeId : String) :
    Prog.Obeys advance Settled (asking (cstr token) (cstr nodeId))
      (LoginOp.loginWithToken token nodeId).program := by
  apply (obeys_getSessionByToken token nodeId).bind
  rintro after session (rfl | rfl)
  · exact obeys_broken settled_broken _
  cases session with
  | none => exact rfl
  | some session =>
      apply (obeys_updateSessionNode token nodeId session.uid).bind
      rintro after updated (rfl | rfl)
      · exact obeys_broken settled_broken _
      apply obeys_call_of_follow settled_broken
      intro userInfo _
      refine ⟨renewed (cstr token) (cstr nodeId) session.uid, rfl, ?_⟩
      cases userInfo with
      | none => exact trivial
      | some userInfo =>
          apply obeys_call_of_follow settled_broken
          intro friends _
          refine ⟨renewed (cstr token) (cstr nodeId) session.uid, rfl, ?_⟩
          apply obeys_call_of_follow settled_broken
          intro requests _
          refine ⟨renewed (cstr token) (cstr nodeId) session.uid, rfl, ?_⟩
          apply obeys_call_of_follow settled_broken
          intro messages _
          exact ⟨renewed (cstr token) (cstr nodeId) session.uid, rfl, trivial⟩

theorem obeys_logout (uid token : String) :
    Prog.Obeys advance Settled (logout (cstr uid) (cstr token))
      (LoginOp.logout uid token).program := by
  apply obeys_call_of_follow settled_broken
  intro conn hconn
  refine ⟨logout (cstr uid) (cstr token), rfl, ?_⟩
  cases conn with
  | false => cases hconn
  | true =>
      apply obeys_call_of_follow settled_broken
      intro delete _
      refine ⟨logout (cstr uid) (cstr token),
        by simp [follow, followCommand], ?_⟩
      apply obeys_call_of_follow settled_broken
      intro conn hconn
      refine ⟨logout (cstr uid) (cstr token), rfl, ?_⟩
      cases conn with
      | false => cases hconn
      | true =>
          apply obeys_call_of_follow settled_broken
          intro get _
          refine ⟨logout (cstr uid) (cstr token), rfl, ?_⟩
          apply obeys_call_of_follow settled_broken
          intro delete _
          refine ⟨offline (cstr uid), by simp [follow, followCommand], ?_⟩
          apply obeys_call_of_follow settled_broken
          intro hdel _
          exact ⟨left (cstr uid), by simp [follow, followCommand], trivial⟩

theorem obeys_program (op : LoginOp) :
    Prog.Obeys advance Settled (start op) op.program := by
  cases op with
  | login uid passwd nodeId => exact obeys_login uid passwd nodeId
  | loginWithToken token nodeId => exact obeys_loginWithToken token nodeId
  | logout uid token => exact obeys_logout uid token

/-! ## The steps of the automaton -/

inductive Follows : RoutePhase → (call : LoginCall) → call.Answer →
    RoutePhase → Prop
  | draw (uid node token : String) :
      Follows (login uid node) (.repository .generateToken) token
        (drew uid node (cstr token))
  | store (uid node token : String) (assigned : List (String × String))
      (outcome : CommandOutcome)
      (hdistinct : (assigned.map Prod.fst).Nodup)
      (hnode : ("node_id", node) ∈ assigned) :
      Follows (drew uid node token)
        (.redis (.command (.hmset (sessionKey token) assigned))) outcome
        (stored uid node token)
  | keepAlive (uid node token : String) (seconds : Int)
      (outcome : CommandOutcome) (hseconds : 0 < seconds) :
      Follows (stored uid node token)
        (.redis (.command (.expire (sessionKey token) seconds))) outcome
        (stored uid node token)
  | goOnline (uid node token : String) (outcome : CommandOutcome) :
      Follows (stored uid node token)
        (.redis (.command (.set (onlineKey uid) node))) outcome
        (online uid node token)
  | route (uid node token : String) (outcome : CommandOutcome) :
      Follows (online uid node token)
        (.redis (.command (.hset userRoute uid node))) outcome
        (routed uid node token)
  | miss (token node : String) (outcome : CommandOutcome)
      (hread : (readSession token outcome.reply).map SessionInfo.uid =
        none) :
      Follows (asking token node)
        (.redis (.command (.hmget (sessionKey token) ["uid", "node_id"])))
        outcome (asking token node)
  | find (token node uid : String) (outcome : CommandOutcome)
      (hread : (readSession token outcome.reply).map SessionInfo.uid =
        some uid) :
      Follows (asking token node)
        (.redis (.command (.hmget (sessionKey token) ["uid", "node_id"])))
        outcome (found token node uid)
  | renew (token node uid : String) (outcome : CommandOutcome) :
      Follows (found token node uid)
        (.redis (.command (.hmset (sessionKey token) [("node_id", node)])))
        outcome (renewed token node uid)
  | revoke (uid token : String) (outcome : CommandOutcome) :
      Follows (logout uid token) (.redis (.command (.del (sessionKey token))))
        outcome (logout uid token)
  | peek (uid token key : String) (outcome : CommandOutcome) :
      Follows (logout uid token) (.redis (.command (.get key))) outcome
        (logout uid token)
  | goOffline (uid token : String) (outcome : CommandOutcome) :
      Follows (logout uid token) (.redis (.command (.del (onlineKey uid))))
        outcome (offline uid)
  | unroute (uid : String) (outcome : CommandOutcome) :
      Follows (offline uid) (.redis (.command (.hdel userRoute uid))) outcome
        (left uid)
  | connect (phase : RoutePhase) (conn : Bool) :
      Follows phase (.redis .getConnection) conn phase
  | time (phase : RoutePhase) (now : Int) :
      Follows phase (.redis .time) now phase
  | query (phase : RoutePhase) (call : RepositoryCall)
      (answer : call.Answer) (hcall : call ≠ .generateToken) :
      Follows phase (.repository call) answer phase

variable {phase next : RoutePhase} {call : LoginCall} {answer : call.Answer}

theorem follows_of_followCommand {command : RedisCommand}
    {outcome : CommandOutcome}
    (hfollow : phase.followCommand outcome command = some next) :
    Follows phase (.redis (.command command)) outcome next := by
  cases command with
  | hmset key assigned =>
      cases phase <;> simp only [followCommand, reduceCtorEq] at hfollow
      · split at hfollow <;> cases hfollow
        rename_i hwrite
        obtain ⟨rfl, hdistinct, hnode⟩ := hwrite
        exact .store _ _ _ _ _ hdistinct hnode
      · split at hfollow <;> cases hfollow
        rename_i hwrite
        obtain ⟨rfl, rfl⟩ := hwrite
        exact .renew _ _ _ _
  | expire key seconds =>
      cases phase <;> simp only [followCommand, reduceCtorEq] at hfollow
      split at hfollow <;> cases hfollow
      rename_i hkeep
      obtain ⟨rfl, hseconds⟩ := hkeep
      exact .keepAlive _ _ _ _ _ hseconds
  | set key data =>
      cases phase <;> simp only [followCommand, reduceCtorEq] at hfollow
      split at hfollow <;> cases hfollow
      rename_i hwrite
      obtain ⟨rfl, rfl⟩ := hwrite
      exact .goOnline _ _ _ _
  | hset key name data =>
      cases phase <;> simp only [followCommand, reduceCtorEq] at hfollow
      split at hfollow <;> cases hfollow
      rename_i hwrite
      obtain ⟨rfl, rfl, rfl⟩ := hwrite
      exact .route _ _ _ _
  | hmget key names =>
      cases phase <;> simp only [followCommand, reduceCtorEq] at hfollow
      split at hfollow
      · rename_i hwrite
        obtain ⟨rfl, rfl⟩ := hwrite
        split at hfollow <;> cases hfollow
        · rename_i hread
          exact .miss _ _ _ hread
        · rename_i uid hread
          exact .find _ _ uid _ hread
      · cases hfollow
  | del key =>
      cases phase <;> simp only [followCommand, reduceCtorEq] at hfollow
      split at hfollow
      · rename_i heq
        subst heq
        cases hfollow
        exact .revoke _ _ _
      · split at hfollow <;> cases hfollow
        rename_i heq
        subst heq
        exact .goOffline _ _ _
  | get key =>
      cases phase <;> simp only [followCommand, reduceCtorEq] at hfollow
      cases hfollow
      exact .peek _ _ _ _
  | hdel key name =>
      cases phase <;> simp only [followCommand, reduceCtorEq] at hfollow
      split at hfollow <;> cases hfollow
      rename_i heq
      obtain ⟨rfl, rfl⟩ := heq
      exact .unroute _ _

theorem follows_of_follow (hfollow : phase.follow call answer = some next) :
    Follows phase call answer next := by
  cases call with
  | redis call =>
      cases call with
      | getConnection =>
          cases hfollow
          exact .connect _ _
      | time =>
          cases hfollow
          exact .time _ _
      | command command => exact follows_of_followCommand hfollow
  | repository call =>
      by_cases hcall : call = .generateToken
      · subst hcall
        cases phase <;> cases hfollow
        exact .draw _ _ _
      · have hsame : phase.follow (.repository call) answer = some phase := by
          cases call <;> first | rfl | exact (hcall rfl).elim
        rw [hsame] at hfollow
        cases hfollow
        exact .query _ _ _ hcall

end RoutePhase

/-! ## What a successful call does to the store -/

def storeAfter (store : RedisStore) : LoginCall → RedisStore
  | .redis (.command command) => store.execute command
  | _ => store

/-- The call is a command on the routing data of the user. -/
def OnUser (uid : String) : LoginCall → Prop
  | .redis (.command (.hset key name _))
  | .redis (.command (.hdel key name)) => key = userRoute ∧ name = uid
  | .redis (.command command) => command.key = onlineKey uid
  | .redis .getConnection | .redis .time | .repository _ => False

/-- The call is a command on the session of the token. -/
def OnSession (token : String) : LoginCall → Prop
  | .redis (.command command) => command.key = sessionKey token
  | .redis .getConnection | .redis .time | .repository _ => False

/-- Sessions and the table of routes are hashes. -/
structure HashKeys (store : RedisStore) : Prop where
  route : store.text userRoute = none
  session : ∀ token, store.text (sessionKey token) = none

section Store

variable {world after : RedisWorld} {store : RedisStore}
  {phase next : RoutePhase} {call : LoginCall} {answer : call.Answer}
  {uid token : String}

theorem store_of_effect (hfine : failed call answer = false)
    (heffect : world.effect call answer = some after) :
    after.store = storeAfter world.store call := by
  cases call with
  | redis call =>
      cases call with
      | command command =>
          rcases command_of_effect heffect with ⟨rfl, _⟩ | ⟨_, hlost, _⟩
          · rfl
          · simp [failed, hlost] at hfine
      | getConnection =>
          cases heffect
          rfl
      | time =>
          cases heffect
          rfl
  | repository call =>
      by_cases hcall : call = .generateToken
      · subst hcall
        rw [(draw_of_effect heffect).2]
        rfl
      · have hsame : world.effect (.repository call) answer =
            some world := by
          cases call <;> first | rfl | exact (hcall rfl).elim
        rw [hsame] at heffect
        cases heffect
        rfl

theorem field_session_of_not_on (hcall : ¬ OnSession token call)
    (name : String) :
    (storeAfter store call).field (sessionKey token) name =
      store.field (sessionKey token) name := by
  cases call with
  | redis call =>
      cases call with
      | command command =>
          exact ExpiringStore.field_eq_of_live
            (ExpiringStore.live_execute_of_ne (Ne.symm hcall)) name
      | _ => rfl
  | repository call => rfl

theorem text_online_of_not_on
    (hfollows : RoutePhase.Follows phase call answer next)
    (hcall : ¬ OnUser uid call) :
    (storeAfter store call).text (onlineKey uid) =
      store.text (onlineKey uid) := by
  have hframe (command : RedisCommand) (hkey : onlineKey uid ≠ command.key) :
      (store.execute command).text (onlineKey uid) =
        store.text (onlineKey uid) :=
    ExpiringStore.text_eq_of_live (ExpiringStore.live_execute_of_ne hkey)
  cases hfollows with
  | draw | connect | time | query => rfl
  | route uid' node | unroute uid' =>
      exact hframe _ (userRoute_ne_onlineKey uid).symm
  | store | keepAlive | goOnline | miss | find | renew | revoke | peek
  | goOffline => exact hframe _ (Ne.symm hcall)

theorem field_route_of_not_on
    (hfollows : RoutePhase.Follows phase call answer next)
    (hcall : ¬ OnUser uid call) :
    (storeAfter store call).field userRoute uid =
      store.field userRoute uid := by
  have hframe (command : RedisCommand) (hkey : userRoute ≠ command.key) :
      (store.execute command).field userRoute uid =
        store.field userRoute uid :=
    ExpiringStore.field_eq_of_live
      (ExpiringStore.live_execute_of_ne hkey) uid
  cases hfollows with
  | draw | connect | time | query | peek => rfl
  | route uid' node =>
      have hother : uid ∉ [(uid', node)].map Prod.fst := by
        have hne : uid' ≠ uid := fun heq => hcall ⟨rfl, heq⟩
        simpa using hne.symm
      exact ExpiringStore.field_setHash_of_not_mem hother
  | unroute uid' =>
      have hne : uid ≠ uid' := fun heq => hcall ⟨rfl, heq.symm⟩
      simp [storeAfter, ExpiringStore.execute,
        ExpiringStore.field_deleteField, hne]
  | store | keepAlive | miss | find | renew | revoke =>
      exact hframe _ (userRoute_ne_sessionKey _)
  | goOnline | goOffline => exact hframe _ (userRoute_ne_onlineKey _)

/-- Only keys of online users are texts. -/
theorem text_of_follows {key : String}
    (hfollows : RoutePhase.Follows phase call answer next)
    (hkey : ∀ uid, key ≠ onlineKey uid)
    (htext : store.text key = none) :
    (storeAfter store call).text key = none := by
  have hother (command : RedisCommand) (hne : key ≠ command.key) :
      (store.execute command).text key = none := by
    rw [ExpiringStore.text_eq_of_live
      (ExpiringStore.live_execute_of_ne hne)]
    exact htext
  have hsame (command : RedisCommand)
      (hown : (store.execute command).text command.key =
        store.text command.key) :
      (store.execute command).text key = none := by
    by_cases hne : key = command.key
    · rw [hne, hown, ← hne]
      exact htext
    · exact hother command hne
  cases hfollows with
  | draw | connect | time | query | peek | miss | find => exact htext
  | store | renew | route =>
      exact hsame _ (ExpiringStore.text_setHash _)
  | unroute => exact hsame _ ExpiringStore.text_deleteField
  | keepAlive uid node token seconds outcome hseconds =>
      exact hsame _ (ExpiringStore.text_expire hseconds)
  | revoke uid token outcome =>
      by_cases hne : key = sessionKey token
      · rw [hne]
        exact ExpiringStore.text_delete
      · exact hother _ hne
  | goOnline | goOffline => exact hother _ (hkey _)

theorem HashKeys.step (hstore : HashKeys store)
    (hfollows : RoutePhase.Follows phase call answer next) :
    HashKeys (storeAfter store call) := by
  constructor
  · exact text_of_follows hfollows userRoute_ne_onlineKey hstore.route
  · intro token
    have hkey (uid : String) : sessionKey token ≠ onlineKey uid :=
      (onlineKey_ne_sessionKey uid token).symm
    exact text_of_follows hfollows hkey (hstore.session token)

/-- No key of an online user has a time to live, nor has the table of
routes. -/
structure Untimed (store : RedisStore) : Prop where
  online : ∀ uid, store.deadline (onlineKey uid) = none
  route : store.deadline userRoute = none

theorem deadline_of_follows {key : String}
    (hfollows : RoutePhase.Follows phase call answer next)
    (hkey : ∀ token, key ≠ sessionKey token)
    (hnone : store.deadline key = none) :
    (storeAfter store call).deadline key = none := by
  have hother (command : RedisCommand) (hne : key ≠ command.key) :
      (store.execute command).deadline key = none := by
    rw [ExpiringStore.deadline_eq_of_live
      (ExpiringStore.live_execute_of_ne hne)]
    exact hnone
  have hown (command : RedisCommand)
      (hown : key = command.key →
        (store.execute command).deadline command.key = none) :
      (store.execute command).deadline key = none := by
    by_cases hne : key = command.key
    · rw [hne]
      exact hown hne
    · exact hother command hne
  cases hfollows with
  | draw | connect | time | query | peek | miss | find => exact hnone
  | store | keepAlive | renew | revoke => exact hother _ (hkey _)
  | goOnline => exact hown _ fun _ => ExpiringStore.deadline_setText _
  | goOffline => exact hown _ fun _ => ExpiringStore.deadline_delete
  | route =>
      apply hown
      rintro rfl
      exact (ExpiringStore.deadline_setHash _).trans hnone
  | unroute =>
      apply hown
      rintro rfl
      exact ExpiringStore.deadline_deleteField hnone

theorem Untimed.step (hstore : Untimed store)
    (hfollows : RoutePhase.Follows phase call answer next) :
    Untimed (storeAfter store call) := by
  constructor
  · intro uid
    exact deadline_of_follows hfollows (onlineKey_ne_sessionKey uid)
      (hstore.online uid)
  · exact deadline_of_follows hfollows userRoute_ne_sessionKey hstore.route

/-! ## What time does to the store -/

theorem live_of_disturb {event : RedisEvent}
    (hdisturb : world.disturb event = some after) (key : String) :
    after.store.live key = none ∨
      after.store.live key = world.store.live key := by
  cases event with
  | advance millis =>
      cases hdisturb
      cases hlive : (world.store.advance millis).live key with
      | none => exact .inl rfl
      | some entry => exact .inr (ExpiringStore.live_advance hlive).symm
  | expire gone =>
      cases hdisturb
      by_cases hkey : key = gone
      · rw [hkey]
        exact .inl ExpiringStore.live_put_none
      · exact .inr (ExpiringStore.live_put_of_ne hkey none)

theorem HashKeys.disturb (hstore : HashKeys world.store)
    {event : RedisEvent} (hdisturb : world.disturb event = some after) :
    HashKeys after.store := by
  have htext (key : String) (hnone : world.store.text key = none) :
      after.store.text key = none := by
    rcases live_of_disturb hdisturb key with hgone | hsame
    · simp [ExpiringStore.text, ExpiringStore.value, hgone]
    · rw [ExpiringStore.text_eq_of_live hsame]
      exact hnone
  exact ⟨htext userRoute hstore.route,
    fun token => htext _ (hstore.session token)⟩

theorem Untimed.disturb (hstore : Untimed world.store)
    {event : RedisEvent} (hdisturb : world.disturb event = some after) :
    Untimed after.store := by
  have hdeadline (key : String) (hnone : world.store.deadline key = none) :
      after.store.deadline key = none := by
    rcases live_of_disturb hdisturb key with hgone | hsame
    · simp [ExpiringStore.deadline, hgone]
    · rw [ExpiringStore.deadline_eq_of_live hsame]
      exact hnone
  exact ⟨fun uid => hdeadline _ (hstore.online uid),
    hdeadline userRoute hstore.route⟩

/-- Time takes away only keys that have a time to live. -/
theorem live_advance_of_untimed {key : String} {millis : Nat}
    (hnone : store.deadline key = none) :
    (store.advance millis).live key = store.live key := by
  apply ExpiringStore.live_advance_of_le
  intro deadline hdeadline
  rw [hnone] at hdeadline
  cases hdeadline

end Store

end MuduoChat
