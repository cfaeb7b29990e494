import MuduoChat.RoutingSteps

/-!
# Routing data follows logins and logouts

When no command fails, the two routing entries of a user differ only while
some thread has written the one and not yet the other.  If no thread writes
the entries of a user in the middle of another's pair of writes, they agree
whenever nothing is running.

A login by token does not write them at all.  They name its node afterwards
only if they did so before.

Time may pass, and sessions may expire: that touches neither of the two
entries, which have no time to live.  Users and tokens are named as Redis is
given them, up to a NUL.
-/

namespace MuduoChat

open RedisSessionRepo (readSession)

/-! ## What a thread has written -/

inductive RouteFact where
  | session (token node : String)
  | online (uid : String) (node : Option String)
  | route (uid : String) (node : Option String)

namespace RouteFact

def Holds (store : RedisStore) : RouteFact → Prop
  | session token node =>
      store.field (sessionKey token) "node_id" = some node
  | online uid node => store.text (onlineKey uid) = node
  | route uid node => store.field userRoute uid = node

def Touches : RouteFact → LoginCall → Prop
  | session token _ => OnSession token
  | online uid _ | route uid _ => OnUser uid

variable {store : RedisStore} {phase next : RoutePhase} {call : LoginCall}
  {answer : call.Answer} {fact : RouteFact}

theorem holds_of_not_touches
    (hfollows : RoutePhase.Follows phase call answer next)
    (hcall : ¬ fact.Touches call) (hfact : fact.Holds store) :
    fact.Holds (storeAfter store call) := by
  cases fact with
  | session token node =>
      exact (field_session_of_not_on hcall "node_id").trans hfact
  | online uid node =>
      exact (text_online_of_not_on hfollows hcall).trans hfact
  | route uid node =>
      exact (field_route_of_not_on hfollows hcall).trans hfact

def key : RouteFact → String
  | session token _ => sessionKey token
  | online uid _ => onlineKey uid
  | route _ _ => userRoute

theorem holds_of_live {later : RedisStore}
    (hlive : later.live fact.key = store.live fact.key)
    (hfact : fact.Holds store) : fact.Holds later := by
  cases fact with
  | session token node =>
      exact (ExpiringStore.field_eq_of_live hlive "node_id").trans hfact
  | online uid node =>
      exact (ExpiringStore.text_eq_of_live hlive).trans hfact
  | route uid node =>
      exact (ExpiringStore.field_eq_of_live hlive uid).trans hfact

theorem holds_of_key_ne {command : RedisCommand}
    (hkey : fact.key ≠ command.key) (hfact : fact.Holds store) :
    fact.Holds (store.execute command) :=
  holds_of_live (ExpiringStore.live_execute_of_ne hkey) hfact

/-- The fact is not about a session, or about one of these. -/
def About (lasting : String → Prop) : RouteFact → Prop
  | session token _ => lasting token
  | online .. | route .. => True

end RouteFact

namespace RoutePhase

/-- What the thread has written, or made sure of. -/
def facts : RoutePhase → List RouteFact
  | stored _ node token => [.session token node]
  | online uid node token => [.session token node, .online uid (some node)]
  | routed uid node token | renewed token node uid =>
      [.session token node, .online uid (some node), .route uid (some node)]
  | offline uid => [.online uid none]
  | left uid => [.online uid none, .route uid none]
  | login .. | drew .. | asking .. | found .. | logout .. | broken => []

/-- The thread has written the first routing entry of the user, with this
value, and not the second. -/
def half : RoutePhase → Option (String × Option String)
  | online uid node _ => some (uid, some node)
  | offline uid => some (uid, none)
  | _ => none

/-- The operation a phase belongs to, as far as its routing data goes. -/
def origin : RoutePhase → RoutePhase
  | login uid node | drew uid node _ | stored uid node _ | online uid node _
  | routed uid node _ => login uid node
  | asking token node | found token node _ | renewed token node _ =>
      asking token node
  | logout uid _ | offline uid | left uid => left uid
  | broken => broken

theorem origin_of_follows {phase next : RoutePhase} {call : LoginCall}
    {answer : call.Answer} (hfollows : Follows phase call answer next) :
    next.origin = phase.origin := by
  cases hfollows <;> rfl

theorem follows_of_advance {phase next : RoutePhase} {call : LoginCall}
    {answer : call.Answer} (hadvance : phase.advance call answer = some next) :
    next = broken ∨ phase ≠ broken ∧ Follows phase call answer next := by
  unfold advance at hadvance
  split at hadvance
  · cases hadvance
    exact .inl rfl
  · rename_i hfine
    exact .inr ⟨fun hbroken => hfine (.inl hbroken),
      follows_of_follow hadvance⟩

theorem origin_of_track {start after : RoutePhase}
    {log : List (Sigma LoginCall.Answer)}
    (htrack : Prog.track advance start log = some after)
    (hafter : after ≠ broken) : after.origin = start.origin := by
  have hkeep (phase : RoutePhase) (call : LoginCall) (answer : call.Answer)
      (next : RoutePhase) (hadvance : phase.advance call answer = some next)
      (hphase : phase = broken ∨ phase.origin = start.origin) :
      next = broken ∨ next.origin = start.origin := by
    rcases follows_of_advance hadvance with hbroken | ⟨hsound, hfollows⟩
    · exact .inl hbroken
    · exact .inr ((origin_of_follows hfollows).trans
        (hphase.resolve_left hsound))
  exact (Prog.track_invariant hkeep htrack (.inr rfl)).resolve_left hafter

/-- The user whose session the thread has read. -/
def reader : RoutePhase → Option String
  | found _ _ uid | renewed _ _ uid => some uid
  | _ => none

theorem reader_of_follows {phase next : RoutePhase} {call : LoginCall}
    {answer : call.Answer} {uid : String}
    (hfollows : Follows phase call answer next)
    (hreader : phase.reader = some uid) : next.reader = some uid := by
  cases hfollows with
  | renew | connect | time | query => exact hreader
  | _ => cases hreader

theorem reader_of_read {phase next : RoutePhase} {key token uid : String}
    {names : List String} {outcome : CommandOutcome}
    (hfollows : Follows phase (.redis (.command (.hmget key names))) outcome
      next)
    (hread : (readSession token outcome.reply).map SessionInfo.uid =
      some uid) : next.reader = some uid := by
  cases hfollows with
  | miss asked node _ hmiss =>
      rw [map_uid_readSession asked token, hread] at hmiss
      cases hmiss
  | find asked node owner _ hfind =>
      rw [map_uid_readSession asked token, hread] at hfind
      exact hfind.symm

theorem reader_of_track {start after : RoutePhase}
    {log : List (Sigma LoginCall.Answer)} {key token uid : String}
    {names : List String} {outcome : CommandOutcome}
    (htrack : Prog.track advance start log = some after)
    (hafter : after ≠ broken)
    (hmem : ⟨.redis (.command (.hmget key names)), outcome⟩ ∈ log)
    (hread : (readSession token outcome.reply).map SessionInfo.uid =
      some uid) : after.reader = some uid := by
  have hkeep (phase : RoutePhase) (call : LoginCall) (answer : call.Answer)
      (next : RoutePhase) (hadvance : phase.advance call answer = some next)
      (hphase : phase = broken ∨ phase.reader = some uid) :
      next = broken ∨ next.reader = some uid := by
    rcases follows_of_advance hadvance with hbroken | ⟨hsound, hfollows⟩
    · exact .inl hbroken
    · exact .inr (reader_of_follows hfollows (hphase.resolve_left hsound))
  induction log generalizing start with
  | nil => cases hmem
  | cons entry log ih =>
      obtain ⟨middle, hadvance, hrest⟩ :=
        Option.bind_eq_some_iff.mp htrack
      rcases List.mem_cons.mp hmem with rfl | hmem
      · -- from the command that read the session on, its user is known
        have hmiddle : middle = broken ∨ middle.reader = some uid := by
          rcases follows_of_advance hadvance with hbroken | ⟨_, hfollows⟩
          · exact .inl hbroken
          · exact .inr (reader_of_read hfollows hread)
        exact (Prog.track_invariant hkeep hrest hmiddle).resolve_left
          hafter
      · exact ih hrest hmem

/-- A login by token that is about to rename the node of its session finds
the user already routed to that node. -/
def Steady (store : RedisStore) : RoutePhase → LoginCall → Prop
  | found _ node uid, .redis (.command (.hmset ..)) =>
      store.text (onlineKey uid) = some node ∧
        store.field userRoute uid = some node
  | _, _ => True

end RoutePhase

section Write

variable {store : RedisStore} {phase next : RoutePhase} {call : LoginCall}
  {answer : call.Answer} {fact : RouteFact}

/-- After the call the facts of the new phase hold, if those of the old one
did. -/
theorem facts_of_follows
    (hfollows : RoutePhase.Follows phase call answer next)
    (hhash : HashKeys store) (hsteady : phase.Steady store call)
    (hmem : fact ∈ next.facts)
    (hold : fact ∈ phase.facts → fact.Holds store) :
    fact.Holds (storeAfter store call) := by
  have hframe (command : RedisCommand) (hkey : fact.key ≠ command.key)
      (hfact : fact.Holds store) : fact.Holds (store.execute command) :=
    RouteFact.holds_of_key_ne hkey hfact
  cases hfollows with
  | draw | miss | find | revoke | peek => cases hmem
  | connect | time | query => exact hold hmem
  | store uid node token assigned outcome hdistinct hnode =>
      cases List.mem_singleton.mp hmem
      exact ExpiringStore.field_setHash_of_mem (hhash.session token)
        hdistinct hnode
  | keepAlive uid node token seconds outcome hseconds =>
      have hsession := hold hmem
      cases List.mem_singleton.mp hmem
      exact (ExpiringStore.field_expire hseconds).trans hsession
  | goOnline uid node token outcome =>
      rcases List.mem_cons.mp hmem with rfl | hmem
      · exact hframe _ (onlineKey_ne_sessionKey uid token).symm
          (hold List.mem_cons_self)
      · cases List.mem_singleton.mp hmem
        exact ExpiringStore.text_setText node
  | route uid node token outcome =>
      have hentry : (uid, node) ∈ [(uid, node)] := List.mem_cons_self
      rcases List.mem_cons.mp hmem with rfl | hmem
      · exact hframe _ (userRoute_ne_sessionKey token).symm
          (hold List.mem_cons_self)
      rcases List.mem_cons.mp hmem with rfl | hmem
      · exact hframe _ (userRoute_ne_onlineKey uid).symm
          (hold (List.mem_cons_of_mem _ List.mem_cons_self))
      · cases List.mem_singleton.mp hmem
        exact ExpiringStore.field_setHash_of_mem hhash.route (by simp)
          hentry
  | renew token node uid outcome =>
      have hentry : ("node_id", node) ∈ [("node_id", node)] :=
        List.mem_cons_self
      rcases List.mem_cons.mp hmem with rfl | hmem
      · exact ExpiringStore.field_setHash_of_mem (hhash.session token)
          (by simp) hentry
      rcases List.mem_cons.mp hmem with rfl | hmem
      · exact hframe _ (onlineKey_ne_sessionKey uid token) hsteady.1
      · cases List.mem_singleton.mp hmem
        exact hframe _ (userRoute_ne_sessionKey token) hsteady.2
  | goOffline uid token outcome =>
      cases List.mem_singleton.mp hmem
      exact ExpiringStore.text_delete
  | unroute uid outcome =>
      rcases List.mem_cons.mp hmem with rfl | hmem
      · exact hframe _ (userRoute_ne_onlineKey uid).symm
          (hold List.mem_cons_self)
      · cases List.mem_singleton.mp hmem
        exact (ExpiringStore.field_deleteField uid).trans (if_pos rfl)

/-- What a call does to the routing entries of all users. -/
inductive RouteWrite (store : RedisStore) (phase : RoutePhase)
    (call : LoginCall) (next : RoutePhase) : Prop
  | keep (hhalf : next.half = phase.half)
      (honline : ∀ uid, (storeAfter store call).text (onlineKey uid) =
        store.text (onlineKey uid))
      (hroute : ∀ uid, (storeAfter store call).field userRoute uid =
        store.field userRoute uid)
  | first (uid : String) (value : Option String) (hcall : OnUser uid call)
      (hphase : phase.half = none) (hnext : next.half = some (uid, value))
      (hwritten : (storeAfter store call).text (onlineKey uid) = value)
  | second (uid : String) (value : Option String) (hcall : OnUser uid call)
      (hphase : phase.half = some (uid, value)) (hnext : next.half = none)
      (hkept : (storeAfter store call).text (onlineKey uid) =
        store.text (onlineKey uid))
      (hwritten : (storeAfter store call).field userRoute uid = value)

theorem routeWrite_of_follows (hhash : HashKeys store)
    (hfollows : RoutePhase.Follows phase call answer next) :
    RouteWrite store phase call next := by
  have hkeep (hcall : ∀ uid, ¬ OnUser uid call)
      (hhalf : next.half = phase.half) :
      RouteWrite store phase call next :=
    .keep hhalf (fun uid => text_online_of_not_on hfollows (hcall uid))
      (fun uid => field_route_of_not_on hfollows (hcall uid))
  cases hfollows with
  | draw | connect | time | query => exact hkeep (fun _ => id) rfl
  | peek => exact .keep rfl (fun _ => rfl) (fun _ => rfl)
  | store | keepAlive | miss | find | renew | revoke =>
      exact hkeep (fun uid => (onlineKey_ne_sessionKey uid _).symm) rfl
  | goOnline uid node token outcome =>
      exact .first uid (some node) rfl rfl rfl
        (ExpiringStore.text_setText node)
  | goOffline uid token outcome =>
      exact .first uid none rfl rfl rfl ExpiringStore.text_delete
  | route uid node token outcome =>
      have hentry : (uid, node) ∈ [(uid, node)] := List.mem_cons_self
      exact .second uid (some node) ⟨rfl, rfl⟩ rfl rfl
        (ExpiringStore.text_eq_of_live (ExpiringStore.live_execute_of_ne
          (userRoute_ne_onlineKey uid).symm))
        (ExpiringStore.field_setHash_of_mem hhash.route (by simp) hentry)
  | unroute uid outcome =>
      exact .second uid none ⟨rfl, rfl⟩ rfl rfl
        (ExpiringStore.text_eq_of_live (ExpiringStore.live_execute_of_ne
          (userRoute_ne_onlineKey uid).symm))
        ((ExpiringStore.field_deleteField uid).trans (if_pos rfl))

end Write

/-! ## Threads -/

def routePhase (thread : LoginThread) : RoutePhase :=
  (Prog.track RoutePhase.advance (RoutePhase.start thread.op)
    thread.log).getD .broken

/-- The thread is between its two writes to the routing data of the user. -/
def HalfOn (state : LoginState) (index : Nat) (uid : String)
    (value : Option String) : Prop :=
  ∃ thread, state.threads[index]? = some thread ∧
    (routePhase thread).half = some (uid, value)

/-- Since the first call of the thread, no other thread has made a call
that `touches`. -/
def Undisturbed (state : LoginState) (index : Nat)
    (touches : LoginCall → Prop) : Prop :=
  state.trace.Pairwise fun newer older =>
    older.1 = index → newer.1 ≠ index → ¬ touches newer.2.1

def Quiescent (state : LoginState) : Prop :=
  ∀ thread ∈ state.threads, ∃ reply, thread.prog = .ret reply

section Threads

variable {state next : LoginState} {thread : LoginThread}

theorem track_routePhase (hthread : loginSystem.Faithful thread) :
    Prog.track RoutePhase.advance (RoutePhase.start thread.op) thread.log =
        some (routePhase thread) ∧
      Prog.Obeys RoutePhase.advance RoutePhase.Settled (routePhase thread)
        thread.prog :=
  hthread.obeys_getD (RoutePhase.obeys_program thread.op) .broken

theorem follows_of_exec {call : LoginCall}
    {rest : call.Answer → LoginProg LoginReply}
    {answer : call.Answer} (hthread : loginSystem.Faithful thread)
    (hsound : routePhase thread ≠ .broken)
    (hprog : thread.prog = .call call rest)
    (hfine : failed call answer = false) :
    RoutePhase.Follows (routePhase thread) call answer
      (routePhase (thread.advance call answer (rest answer))) := by
  obtain ⟨htrack, hobeys⟩ := track_routePhase hthread
  rw [hprog] at hobeys
  have hadvance := hobeys.advance_eq htrack .broken answer
  have hsame : (routePhase thread).advance call answer =
      (routePhase thread).follow call answer := by
    rw [RoutePhase.advance, if_neg]
    simp [hsound, hfine]
  exact RoutePhase.follows_of_follow (hsame.symm.trans hadvance)

theorem RoutePhase.Follows.ne_broken {phase after : RoutePhase}
    {call : LoginCall} {answer : call.Answer}
    (hfollows : RoutePhase.Follows phase call answer after)
    (hphase : phase ≠ .broken) : after ≠ .broken := by
  cases hfollows with
  | connect | time | query => exact hphase
  | _ => exact RoutePhase.noConfusion

theorem OnUser.unique {call : LoginCall} {first second : String}
    (hfirst : OnUser first call) (hsecond : OnUser second call) :
    first = second := by
  cases call with
  | redis call =>
      cases call with
      | command command =>
          cases command with
          | hset key name data => exact hfirst.2.symm.trans hsecond.2
          | hdel key name => exact hfirst.2.symm.trans hsecond.2
          | _ => exact onlineKey_inj.mp (hfirst.symm.trans hsecond)
      | _ => exact hfirst.elim
  | repository call => exact hfirst.elim

/-! ## The invariant -/

/-- At most one thread is between its two writes for a user, and then the
first entry has its value; otherwise the two entries agree. -/
structure PairsKept (state : LoginState) : Prop where
  half : ∀ index uid value, HalfOn state index uid value →
    state.world.store.text (onlineKey uid) = value
  single : ∀ first second uid value other,
    HalfOn state first uid value → HalfOn state second uid other →
      first = second
  whole : ∀ uid, (∀ index value, ¬ HalfOn state index uid value) →
    state.world.store.text (onlineKey uid) =
      state.world.store.field userRoute uid

/-- A node that Redis is given whole. -/
def LoginOp.PlainNode : LoginOp → Prop
  | login _ _ nodeId | loginWithToken _ nodeId => NulFree nodeId
  | logout .. => True

/-- The invariant of runs in which the sessions of some tokens do not go
away; what threads have written to other sessions is not followed. -/
structure RoutingKept (lasting : String → Prop) (state : LoginState) :
    Prop where
  faithful : ∀ thread ∈ state.threads, loginSystem.Faithful thread
  sound : ∀ thread ∈ state.threads, routePhase thread ≠ .broken
  plain : ∀ thread ∈ state.threads, thread.op.PlainNode
  hash : HashKeys state.world.store
  untimed : Untimed state.world.store
  spoken : ∀ index thread, state.threads[index]? = some thread →
    thread.log ≠ [] → ∃ entry ∈ state.trace, entry.1 = index
  pairs : PairsKept state
  recorded : ∀ index thread, state.threads[index]? = some thread →
    ∀ fact ∈ (routePhase thread).facts, fact.About lasting →
      Undisturbed state index fact.Touches → fact.Holds state.world.store

variable {lasting : String → Prop}

theorem facts_begin (op : LoginOp) :
    (routePhase (loginSystem.begin op)).facts = [] := by
  cases op <;> rfl

theorem half_begin (op : LoginOp) :
    (routePhase (loginSystem.begin op)).half = none := by
  cases op <;> rfl

theorem broken_begin (op : LoginOp) :
    routePhase (loginSystem.begin op) ≠ .broken := by
  cases op <;> exact RoutePhase.noConfusion

theorem getElem?_enter {op : LoginOp} {index : Nat}
    (hthread : (state.threads ++ [loginSystem.begin op])[index]? =
      some thread) :
    state.threads[index]? = some thread ∨ thread = loginSystem.begin op := by
  rw [List.getElem?_append] at hthread
  split at hthread
  · exact .inl hthread
  · exact .inr (List.mem_singleton.mp (List.mem_of_getElem? hthread))

theorem halfOn_enter {op : LoginOp} {index : Nat} {uid : String}
    {value : Option String} :
    HalfOn { state with
      threads := state.threads ++ [loginSystem.begin op] } index uid value ↔
      HalfOn state index uid value := by
  constructor
  · rintro ⟨thread, hthread, hphase⟩
    rcases getElem?_enter hthread with hold | rfl
    · exact ⟨thread, hold, hphase⟩
    · rw [half_begin] at hphase
      cases hphase
  · rintro ⟨thread, hthread, hphase⟩
    refine ⟨thread, ?_, hphase⟩
    rw [List.getElem?_append_left (List.getElem?_eq_some_iff.mp hthread).1]
    exact hthread

theorem PairsKept.enter (hstate : PairsKept state) (op : LoginOp) :
    PairsKept { state with
      threads := state.threads ++ [loginSystem.begin op] } := by
  constructor
  · intro index uid value hhalf
    exact hstate.half index uid value (halfOn_enter.mp hhalf)
  · intro first second uid value other hfirst hsecond
    exact hstate.single first second uid value other
      (halfOn_enter.mp hfirst) (halfOn_enter.mp hsecond)
  · intro uid hnone
    apply hstate.whole uid
    intro index value hhalf
    exact hnone index value (halfOn_enter.mpr hhalf)

theorem RoutingKept.enter (hstate : RoutingKept lasting state)
    {op : LoginOp} (hop : op.PlainNode) :
    RoutingKept lasting { state with
      threads := state.threads ++ [loginSystem.begin op] } := by
  constructor
  · intro thread hthread
    rcases List.mem_append.mp hthread with hold | hnew
    · exact hstate.faithful thread hold
    · rw [List.mem_singleton.mp hnew]
      exact ThreadSystem.Faithful.begin op
  · intro thread hthread
    rcases List.mem_append.mp hthread with hold | hnew
    · exact hstate.sound thread hold
    · rw [List.mem_singleton.mp hnew]
      exact broken_begin op
  · intro thread hthread
    rcases List.mem_append.mp hthread with hold | hnew
    · exact hstate.plain thread hold
    · rw [List.mem_singleton.mp hnew]
      exact hop
  · exact hstate.hash
  · exact hstate.untimed
  · intro index thread hthread hlog
    rcases getElem?_enter hthread with hold | rfl
    · exact hstate.spoken index thread hold hlog
    · exact (hlog rfl).elim
  · exact hstate.pairs.enter op
  · intro index thread hthread fact hfact habout hquiet
    rcases getElem?_enter hthread with hold | rfl
    · exact hstate.recorded index thread hold fact hfact habout hquiet
    · rw [facts_begin] at hfact
      cases hfact

section Exec

variable {index : Nat} {call : LoginCall} {answer : call.Answer}
  {other : LoginThread} {world : RedisWorld}

/-- The state after a call, with the thread that made it replaced. -/
def afterCall (state : LoginState) (index : Nat) (call : LoginCall)
    (answer : call.Answer) (world : RedisWorld) (other : LoginThread) :
    LoginState :=
  { world := world
    threads := state.threads.set index other
    trace := (index, ⟨call, answer⟩) :: state.trace }

theorem halfOn_afterCall {i : Nat} {uid : String} {value : Option String}
    (hthread : state.threads[index]? = some thread) :
    HalfOn (afterCall state index call answer world other) i uid value ↔
      i = index ∧ (routePhase other).half = some (uid, value) ∨
        i ≠ index ∧ HalfOn state i uid value := by
  constructor
  · rintro ⟨each, heach, hphase⟩
    rcases getElem?_set_cases heach with ⟨rfl, rfl⟩ | ⟨hi, hold⟩
    · exact .inl ⟨rfl, hphase⟩
    · exact .inr ⟨hi, each, hold, hphase⟩
  · rintro (⟨rfl, hphase⟩ | ⟨hi, each, heach, hphase⟩)
    · have hlength : i < state.threads.length :=
        (List.getElem?_eq_some_iff.mp hthread).1
      exact ⟨other, List.getElem?_set_self hlength, hphase⟩
    · refine ⟨each, ?_, hphase⟩
      exact (List.getElem?_set_ne (Ne.symm hi)).trans heach

theorem halfOn_self {uid : String} {value : Option String}
    (hthread : state.threads[index]? = some thread) :
    HalfOn state index uid value ↔
      (routePhase thread).half = some (uid, value) := by
  constructor
  · rintro ⟨each, heach, hphase⟩
    rw [hthread] at heach
    cases heach
    exact hphase
  · exact fun hphase => ⟨thread, hthread, hphase⟩

/-- No other thread is between its two writes for the user whose routing
data the call touches. -/
def Alone (state : LoginState) (index : Nat) (call : LoginCall) : Prop :=
  ∀ uid, OnUser uid call →
    ∀ i value, i ≠ index → ¬ HalfOn state i uid value

section Pairs

variable {writer : String} {written : Option String}

theorem Alone.ne (halone : Alone state index call)
    (hcall : OnUser writer call) {i : Nat} {uid : String}
    {value : Option String} (hi : i ≠ index)
    (hhalf : HalfOn state i uid value) : uid ≠ writer := by
  rintro rfl
  exact halone uid hcall i value hi hhalf

theorem routing_of_ne {phase after : RoutePhase} {store : RedisStore}
    (hfollows : RoutePhase.Follows phase call answer after)
    (hcall : OnUser writer call) {uid : String} (huid : uid ≠ writer) :
    (storeAfter store call).text (onlineKey uid) =
        store.text (onlineKey uid) ∧
      (storeAfter store call).field userRoute uid =
        store.field userRoute uid := by
  have hnot : ¬ OnUser uid call := fun hon => huid (hon.unique hcall)
  exact ⟨text_online_of_not_on hfollows hnot,
    field_route_of_not_on hfollows hnot⟩

theorem PairsKept.keep (hstate : PairsKept state)
    (hthread : state.threads[index]? = some thread)
    (hhalf : (routePhase other).half = (routePhase thread).half)
    (honline : ∀ uid, world.store.text (onlineKey uid) =
      state.world.store.text (onlineKey uid))
    (hroute : ∀ uid, world.store.field userRoute uid =
      state.world.store.field userRoute uid) :
    PairsKept (afterCall state index call answer world other) := by
  have hsame {i : Nat} {uid : String} {value : Option String} :
      HalfOn (afterCall state index call answer world other) i uid value ↔
        HalfOn state i uid value := by
    rw [halfOn_afterCall hthread, hhalf, ← halfOn_self hthread]
    by_cases hi : i = index
    · simp [hi]
    · simp [hi]
  constructor
  · intro i uid value hi
    exact (honline uid).trans (hstate.half i uid value (hsame.mp hi))
  · intro i j uid value other hi hj
    exact hstate.single i j uid value other (hsame.mp hi) (hsame.mp hj)
  · intro uid hnone
    have hwhole := hstate.whole uid fun i value hi =>
      hnone i value (hsame.mpr hi)
    exact (honline uid).trans (hwhole.trans (hroute uid).symm)

theorem PairsKept.first (hstate : PairsKept state)
    (hthread : state.threads[index]? = some thread)
    (halone : Alone state index call) (hcall : OnUser writer call)
    (hphase : (routePhase thread).half = none)
    (hnext : (routePhase other).half = some (writer, written))
    (hwritten : world.store.text (onlineKey writer) = written)
    (hframe : ∀ uid, uid ≠ writer →
      world.store.text (onlineKey uid) =
          state.world.store.text (onlineKey uid) ∧
        world.store.field userRoute uid =
          state.world.store.field userRoute uid) :
    PairsKept (afterCall state index call answer world other) := by
  have hafter {i : Nat} {uid : String} {value : Option String} :
      HalfOn (afterCall state index call answer world other) i uid value ↔
        i = index ∧ (writer, written) = (uid, value) ∨
          i ≠ index ∧ HalfOn state i uid value := by
    rw [halfOn_afterCall hthread, hnext, Option.some.injEq]
  constructor
  · intro i uid value hi
    rcases hafter.mp hi with ⟨_, heq⟩ | ⟨hne, hold⟩
    · cases heq
      exact hwritten
    · have hframed := hframe uid (halone.ne hcall hne hold)
      exact hframed.1.trans (hstate.half i uid value hold)
  · intro i j uid value value' hi hj
    rcases hafter.mp hi with ⟨rfl, heq⟩ | ⟨hne, hold⟩ <;>
      rcases hafter.mp hj with ⟨rfl, heq'⟩ | ⟨hne', hold'⟩
    · rfl
    · cases heq
      exact (halone.ne hcall hne' hold' rfl).elim
    · cases heq'
      exact (halone.ne hcall hne hold rfl).elim
    · exact hstate.single i j uid value value' hold hold'
  · intro uid hnone
    have huid : uid ≠ writer := by
      rintro rfl
      exact hnone index written (hafter.mpr (.inl ⟨rfl, rfl⟩))
    have hold : ∀ i value, ¬ HalfOn state i uid value := by
      intro i value hi
      by_cases hne : i = index
      · subst hne
        rw [halfOn_self hthread, hphase] at hi
        cases hi
      · exact hnone i value (hafter.mpr (.inr ⟨hne, hi⟩))
    obtain ⟨honline, hroute⟩ := hframe uid huid
    exact honline.trans ((hstate.whole uid hold).trans hroute.symm)

theorem PairsKept.second (hstate : PairsKept state)
    (hthread : state.threads[index]? = some thread)
    (halone : Alone state index call) (hcall : OnUser writer call)
    (hphase : (routePhase thread).half = some (writer, written))
    (hnext : (routePhase other).half = none)
    (hkept : world.store.text (onlineKey writer) =
      state.world.store.text (onlineKey writer))
    (hwritten : world.store.field userRoute writer = written)
    (hframe : ∀ uid, uid ≠ writer →
      world.store.text (onlineKey uid) =
          state.world.store.text (onlineKey uid) ∧
        world.store.field userRoute uid =
          state.world.store.field userRoute uid) :
    PairsKept (afterCall state index call answer world other) := by
  have hafter {i : Nat} {uid : String} {value : Option String} :
      HalfOn (afterCall state index call answer world other) i uid value ↔
        i ≠ index ∧ HalfOn state i uid value := by
    rw [halfOn_afterCall hthread, hnext]
    simp
  constructor
  · intro i uid value hi
    obtain ⟨hne, hold⟩ := hafter.mp hi
    have hframed := hframe uid (halone.ne hcall hne hold)
    exact hframed.1.trans (hstate.half i uid value hold)
  · intro i j uid value value' hi hj
    exact hstate.single i j uid value value' (hafter.mp hi).2
      (hafter.mp hj).2
  · intro uid hnone
    by_cases huid : uid = writer
    · subst huid
      have honline := hstate.half index uid written
        ((halfOn_self hthread).mpr hphase)
      exact hkept.trans (honline.trans hwritten.symm)
    · have hold : ∀ i value, ¬ HalfOn state i uid value := by
        intro i value hi
        by_cases hne : i = index
        · subst hne
          rw [halfOn_self hthread, hphase] at hi
          cases hi
          exact huid rfl
        · exact hnone i value (hafter.mpr ⟨hne, hi⟩)
      obtain ⟨honline, hroute⟩ := hframe uid huid
      exact honline.trans ((hstate.whole uid hold).trans hroute.symm)

theorem PairsKept.exec (hstate : PairsKept state)
    (hthread : state.threads[index]? = some thread)
    (hhash : HashKeys state.world.store)
    (hfollows : RoutePhase.Follows (routePhase thread) call answer
      (routePhase other))
    (hstore : world.store = storeAfter state.world.store call)
    (halone : Alone state index call) :
    PairsKept (afterCall state index call answer world other) := by
  cases routeWrite_of_follows hhash hfollows with
  | keep hhalf honline hroute =>
      rw [← hstore] at honline hroute
      exact hstate.keep hthread hhalf honline hroute
  | first writer written hcall hphase hnext hwritten =>
      rw [← hstore] at hwritten
      apply hstate.first hthread halone hcall hphase hnext hwritten
      intro uid huid
      rw [hstore]
      exact routing_of_ne hfollows hcall huid
  | second writer written hcall hphase hnext hkept hwritten =>
      rw [← hstore] at hkept hwritten
      apply hstate.second hthread halone hcall hphase hnext hkept hwritten
      intro uid huid
      rw [hstore]
      exact routing_of_ne hfollows hcall huid

end Pairs

theorem undisturbed_afterCall {i : Nat} {touches : LoginCall → Prop}
    (hquiet : Undisturbed (afterCall state index call answer world other)
      i touches) :
    Undisturbed state i touches ∧
      ∀ entry ∈ state.trace, entry.1 = i → index ≠ i → ¬ touches call := by
  obtain ⟨hnew, hold⟩ := List.pairwise_cons.mp hquiet
  exact ⟨hold, fun entry hentry => hnew entry hentry⟩

theorem log_of_facts {each : LoginThread} {fact : RouteFact}
    (hfact : fact ∈ (routePhase each).facts) : each.log ≠ [] := by
  intro hlog
  have hstart : routePhase each = RoutePhase.start each.op := by
    rw [routePhase, hlog]
    rfl
  rw [hstart] at hfact
  cases hop : each.op <;> rw [hop] at hfact <;> cases hfact

theorem RoutingKept.exec {rest : call.Answer → LoginProg LoginReply}
    (hstate : RoutingKept lasting state)
    (hthread : state.threads[index]? = some thread)
    (hprog : thread.prog = .call call rest)
    (heffect : state.world.effect call answer = some world)
    (hfine : failed call answer = false)
    (halone : Alone state index call)
    (hsteady : (routePhase thread).Steady state.world.store call) :
    RoutingKept lasting (afterCall state index call answer world
      (thread.advance call answer (rest answer))) := by
  have hmem := List.mem_of_getElem? hthread
  have hfaithful := hstate.faithful thread hmem
  have hfollows := follows_of_exec hfaithful (hstate.sound thread hmem)
    hprog hfine
  have hstore : world.store = storeAfter state.world.store call :=
    store_of_effect hfine heffect
  constructor
  · intro each heach
    rcases List.mem_or_eq_of_mem_set heach with hold | rfl
    · exact hstate.faithful each hold
    · exact hfaithful.advance hprog answer
  · intro each heach
    rcases List.mem_or_eq_of_mem_set heach with hold | rfl
    · exact hstate.sound each hold
    · exact hfollows.ne_broken (hstate.sound thread hmem)
  · intro each heach
    rcases List.mem_or_eq_of_mem_set heach with hold | rfl
    · exact hstate.plain each hold
    · exact hstate.plain thread hmem
  · show HashKeys world.store
    rw [hstore]
    exact hstate.hash.step hfollows
  · show Untimed world.store
    rw [hstore]
    exact hstate.untimed.step hfollows
  · intro i each heach hlog
    rcases getElem?_set_cases heach with ⟨rfl, _⟩ | ⟨_, hold⟩
    · exact ⟨_, List.mem_cons_self, rfl⟩
    · obtain ⟨entry, hentry, heq⟩ := hstate.spoken i each hold hlog
      exact ⟨entry, List.mem_cons_of_mem _ hentry, heq⟩
  · exact hstate.pairs.exec hthread hstate.hash hfollows hstore halone
  · intro i each heach fact hfact habout hquiet
    obtain ⟨hbefore, hcall⟩ := undisturbed_afterCall hquiet
    show fact.Holds world.store
    rw [hstore]
    rcases getElem?_set_cases heach with ⟨rfl, rfl⟩ | ⟨hne, hold⟩
    · apply facts_of_follows hfollows hstate.hash hsteady hfact
      intro hearlier
      exact hstate.recorded i thread hthread fact hearlier habout hbefore
    · obtain ⟨entry, hentry, heq⟩ :=
        hstate.spoken i each hold (log_of_facts hfact)
      have huntouched : ¬ fact.Touches call :=
        hcall entry hentry heq (Ne.symm hne)
      exact RouteFact.holds_of_not_touches hfollows huntouched
        (hstate.recorded i each hold fact hfact habout hbefore)

end Exec

section Disturb

variable {world : RedisWorld}

theorem PairsKept.disturb (hstate : PairsKept state)
    (honline : ∀ uid, world.store.live (onlineKey uid) =
      state.world.store.live (onlineKey uid))
    (hroute : world.store.live userRoute =
      state.world.store.live userRoute) :
    PairsKept { state with world := world } := by
  constructor
  · intro index uid value hhalf
    exact (ExpiringStore.text_eq_of_live (honline uid)).trans
      (hstate.half index uid value hhalf)
  · exact hstate.single
  · intro uid hnone
    have hwhole := hstate.whole uid hnone
    exact (ExpiringStore.text_eq_of_live (honline uid)).trans
      (hwhole.trans (ExpiringStore.field_eq_of_live hroute uid).symm)

theorem RoutingKept.disturb (hstate : RoutingKept lasting state)
    {event : RedisEvent} (hdisturb : state.world.disturb event = some world)
    (honline : ∀ uid, world.store.live (onlineKey uid) =
      state.world.store.live (onlineKey uid))
    (hroute : world.store.live userRoute =
      state.world.store.live userRoute)
    (hsession : ∀ token, lasting token →
      world.store.live (sessionKey token) =
        state.world.store.live (sessionKey token)) :
    RoutingKept lasting { state with world := world } := by
  constructor
  · exact hstate.faithful
  · exact hstate.sound
  · exact hstate.plain
  · exact hstate.hash.disturb hdisturb
  · exact hstate.untimed.disturb hdisturb
  · exact hstate.spoken
  · exact hstate.pairs.disturb honline hroute
  · intro index thread hthread fact hfact habout hquiet
    have hholds := hstate.recorded index thread hthread fact hfact habout
      hquiet
    cases fact with
    | session token node =>
        exact RouteFact.holds_of_live (hsession token habout) hholds
    | online uid node => exact RouteFact.holds_of_live (honline uid) hholds
    | route uid node => exact RouteFact.holds_of_live hroute hholds

end Disturb

/-! ## What the routing data says -/

/-- The thread has read a session of the user. -/
def HasRead (thread : LoginThread) (uid : String) : Prop :=
  ∃ token outcome,
    ⟨.redis (.command (.hmget (sessionKey token) ["uid", "node_id"])),
        outcome⟩ ∈ thread.log ∧
      (readSession token outcome.reply).map SessionInfo.uid = some uid

/-- Routing data follows logins and logouts: the two entries of every user
agree when nothing is running, and they say what the last operation on the
user meant them to say, unless another one came in between. -/
structure RoutingFollows (state : LoginState) : Prop where
  agree : Quiescent state → ∀ uid,
    state.world.store.text (onlineKey uid) =
      state.world.store.field userRoute uid
  login : ∀ index thread uid passwd node result,
    state.threads[index]? = some thread →
    thread.op = .login uid passwd node →
    thread.prog = .ret (.login result) → result.success = true →
    Undisturbed state index (OnUser (cstr uid)) →
      state.world.store.text (onlineKey (cstr uid)) = some node ∧
      state.world.store.field userRoute (cstr uid) = some node
  loginWithToken : ∀ index thread token uid node result,
    state.threads[index]? = some thread →
    thread.op = .loginWithToken token node →
    thread.prog = .ret (.login result) → result.success = true →
    HasRead thread uid → Undisturbed state index (OnUser uid) →
      state.world.store.text (onlineKey uid) = some node ∧
      state.world.store.field userRoute uid = some node
  logout : ∀ index thread uid token reply,
    state.threads[index]? = some thread →
    thread.op = .logout uid token → thread.prog = .ret reply →
    Undisturbed state index (OnUser (cstr uid)) →
      state.world.store.text (onlineKey (cstr uid)) = none ∧
      state.world.store.field userRoute (cstr uid) = none

/-- The session of the token names the node of the last login that opened
it or came by it, unless another operation came in between. -/
structure SessionFollows (token : String) (state : LoginState) : Prop where
  login : ∀ index thread uid passwd node result,
    state.threads[index]? = some thread →
    thread.op = .login uid passwd node →
    thread.prog = .ret (.login result) → result.success = true →
    cstr result.token = token → Undisturbed state index (OnSession token) →
      state.world.store.field (sessionKey token) "node_id" = some node
  loginWithToken : ∀ index thread given node result,
    state.threads[index]? = some thread →
    thread.op = .loginWithToken given node →
    thread.prog = .ret (.login result) → result.success = true →
    cstr given = token → Undisturbed state index (OnSession token) →
      state.world.store.field (sessionKey token) "node_id" = some node

section Returned

variable {index : Nat} {reply : LoginReply}

/-- The phase of a thread that has returned. -/
theorem RoutingKept.settled (hstate : RoutingKept lasting state)
    (hthread : state.threads[index]? = some thread)
    (hprog : thread.prog = .ret reply) :
    (routePhase thread).Settled reply ∧ routePhase thread ≠ .broken ∧
      (routePhase thread).origin = (RoutePhase.start thread.op).origin := by
  have hmem := List.mem_of_getElem? hthread
  have hsound := hstate.sound thread hmem
  obtain ⟨htrack, hobeys⟩ := track_routePhase (hstate.faithful thread hmem)
  rw [hprog] at hobeys
  exact ⟨hobeys, hsound, RoutePhase.origin_of_track htrack hsound⟩

theorem RoutingKept.agree (hstate : RoutingKept lasting state)
    (hquiet : Quiescent state) (uid : String) :
    state.world.store.text (onlineKey uid) =
      state.world.store.field userRoute uid := by
  apply hstate.pairs.whole uid
  rintro index value ⟨thread, hthread, hhalf⟩
  obtain ⟨reply, hprog⟩ := hquiet thread (List.mem_of_getElem? hthread)
  obtain ⟨hsettled, _, _⟩ := hstate.settled hthread hprog
  cases hphase : routePhase thread <;> rw [hphase] at hhalf hsettled <;>
    cases hhalf <;> cases reply <;> exact hsettled

theorem RoutingKept.login {uid passwd node : String} {result : LoginResult}
    (hstate : RoutingKept lasting state)
    (hthread : state.threads[index]? = some thread)
    (hop : thread.op = .login uid passwd node)
    (hprog : thread.prog = .ret (.login result))
    (hsuccess : result.success = true) :
    routePhase thread = .routed (cstr uid) node (cstr result.token) := by
  obtain ⟨hsettled, hsound, horigin⟩ := hstate.settled hthread hprog
  have hplain := hstate.plain thread (List.mem_of_getElem? hthread)
  rw [hop] at horigin hplain
  have hnode : cstr node = node := NulFree.cstr hplain
  rw [RoutePhase.start, hnode] at horigin
  cases hphase : routePhase thread <;>
    rw [hphase] at hsettled hsound horigin <;> cases horigin
  case login | drew =>
    rw [RoutePhase.Settled, hsuccess] at hsettled
    cases hsettled
  case stored | online => exact hsettled.elim
  case routed token => rw [hsettled.2]

theorem RoutingKept.loginWithToken {token node : String}
    {result : LoginResult} (hstate : RoutingKept lasting state)
    (hthread : state.threads[index]? = some thread)
    (hop : thread.op = .loginWithToken token node)
    (hprog : thread.prog = .ret (.login result))
    (hsuccess : result.success = true) :
    ∃ uid, routePhase thread = .renewed (cstr token) node uid := by
  obtain ⟨hsettled, hsound, horigin⟩ := hstate.settled hthread hprog
  have hplain := hstate.plain thread (List.mem_of_getElem? hthread)
  rw [hop] at horigin hplain
  have hnode : cstr node = node := NulFree.cstr hplain
  rw [RoutePhase.start, hnode] at horigin
  cases hphase : routePhase thread <;>
    rw [hphase] at hsettled hsound horigin <;> cases horigin
  case asking =>
    rw [RoutePhase.Settled, hsuccess] at hsettled
    cases hsettled
  case found => exact hsettled.elim
  case renewed uid => exact ⟨uid, rfl⟩

theorem RoutingKept.logout {uid token : String}
    (hstate : RoutingKept lasting state)
    (hthread : state.threads[index]? = some thread)
    (hop : thread.op = .logout uid token)
    (hprog : thread.prog = .ret reply) :
    routePhase thread = .left (cstr uid) := by
  obtain ⟨hsettled, hsound, horigin⟩ := hstate.settled hthread hprog
  rw [hop] at horigin
  cases hphase : routePhase thread <;>
    rw [hphase] at hsettled hsound horigin <;> cases horigin
  case logout | offline => cases reply <;> exact hsettled.elim
  case left => rfl

theorem RoutingKept.reader {uid : String}
    (hstate : RoutingKept lasting state)
    (hthread : state.threads[index]? = some thread)
    (hread : HasRead thread uid) :
    (routePhase thread).reader = some uid := by
  obtain ⟨token, outcome, hmem, huid⟩ := hread
  have hthreads := List.mem_of_getElem? hthread
  obtain ⟨htrack, _⟩ :=
    track_routePhase (hstate.faithful thread hthreads)
  exact RoutePhase.reader_of_track htrack (hstate.sound thread hthreads)
    hmem huid

theorem RoutingKept.follows (hstate : RoutingKept lasting state) :
    RoutingFollows state := by
  constructor
  · exact hstate.agree
  · intro index thread uid passwd node result hthread hop hprog hsuccess
      huser
    have hphase := hstate.login hthread hop hprog hsuccess
    have hrecorded := hstate.recorded index thread hthread
    rw [hphase] at hrecorded
    have honline := hrecorded (.online (cstr uid) (some node))
      (.tail _ (.head _)) trivial huser
    have hroute := hrecorded (.route (cstr uid) (some node))
      (.tail _ (.tail _ (.head _))) trivial huser
    exact ⟨honline, hroute⟩
  · intro index thread token uid node result hthread hop hprog hsuccess
      hread huser
    obtain ⟨owner, hphase⟩ :=
      hstate.loginWithToken hthread hop hprog hsuccess
    have hrecorded := hstate.recorded index thread hthread
    have hreader := hstate.reader hthread hread
    rw [hphase] at hrecorded hreader
    cases hreader
    have honline := hrecorded (.online uid (some node))
      (.tail _ (.head _)) trivial huser
    have hroute := hrecorded (.route uid (some node))
      (.tail _ (.tail _ (.head _))) trivial huser
    exact ⟨honline, hroute⟩
  · intro index thread uid token reply hthread hop hprog huser
    have hphase := hstate.logout hthread hop hprog
    have hrecorded := hstate.recorded index thread hthread
    rw [hphase] at hrecorded
    have honline := hrecorded (.online (cstr uid) none) (.head _) trivial
      huser
    have hroute := hrecorded (.route (cstr uid) none) (.tail _ (.head _))
      trivial huser
    exact ⟨honline, hroute⟩

theorem RoutingKept.sessionFollows {token : String}
    (hstate : RoutingKept lasting state) (hlasting : lasting token) :
    SessionFollows token state := by
  constructor
  · intro index thread uid passwd node result hthread hop hprog hsuccess
      htoken hsession
    have hphase := hstate.login hthread hop hprog hsuccess
    have hrecorded := hstate.recorded index thread hthread
    rw [hphase, htoken] at hrecorded
    exact hrecorded (.session token node) (.head _) hlasting hsession
  · intro index thread given node result hthread hop hprog hsuccess
      hgiven hsession
    obtain ⟨owner, hphase⟩ :=
      hstate.loginWithToken hthread hop hprog hsuccess
    have hrecorded := hstate.recorded index thread hthread
    rw [hphase, hgiven] at hrecorded
    exact hrecorded (.session token node) (.head _) hlasting hsession

end Returned

/-! ## Runs -/

/-- A world in which the routing data is in order, before any thread. -/
structure RoutedWorld where
  world : RedisWorld
  hash : HashKeys world.store
  untimed : Untimed world.store
  agree : ∀ uid, world.store.text (onlineKey uid) =
    world.store.field userRoute uid

/-- Threads start, and make calls that do not fail; keys may go away. -/
def Unfailing : LoginMove → Prop
  | .enter _ | .disturb _ => True
  | .exec _ call answer => failed call answer = false

/-- The routing data of a user is not touched between the two writes of
another thread, a login by token changes only the node of a session whose
user is routed to that node already, nodes are named without a NUL, and no
routing entry is evicted. -/
def InOrder (state : LoginState) : LoginMove → Prop
  | .exec index call _ =>
      Alone state index call ∧
        ∀ thread, state.threads[index]? = some thread →
          (routePhase thread).Steady state.world.store call
  | .enter op => op.PlainNode
  | .disturb (.expire key) => key ≠ userRoute ∧ ∀ uid, key ≠ onlineKey uid
  | .disturb (.advance _) => True

/-- What is stored under the key does not expire, nor is it evicted. -/
def Lasts (key : String) (state : LoginState) : LoginMove → Prop
  | .disturb event => ∀ world, state.world.disturb event = some world →
      world.store.live key = state.world.store.live key
  | .enter _ | .exec .. => True

theorem RoutedWorld.kept (start : RoutedWorld) :
    RoutingKept lasting { world := start.world } := by
  have hnone (index : Nat) (uid : String) (value : Option String) :
      ¬ HalfOn { world := start.world } index uid value := by
    rintro ⟨thread, hthread, _⟩
    cases hthread
  have hpairs : PairsKept { world := start.world } := by
    constructor
    · intro index uid value hhalf
      exact (hnone index uid value hhalf).elim
    · intro first second uid value other hhalf
      exact (hnone first uid value hhalf).elim
    · intro uid _
      exact start.agree uid
  constructor
  · simp
  · simp
  · simp
  · exact start.hash
  · exact start.untimed
  · intro index thread hthread
    cases hthread
  · exact hpairs
  · intro index thread hthread
    cases hthread

/-- An event that is in order leaves the routing entries as they are. -/
theorem routing_of_inOrder {event : RedisEvent} {world : RedisWorld}
    (hstore : Untimed state.world.store)
    (hdisturb : state.world.disturb event = some world)
    (horder : InOrder state (.disturb event)) :
    (∀ uid, world.store.live (onlineKey uid) =
        state.world.store.live (onlineKey uid)) ∧
      world.store.live userRoute = state.world.store.live userRoute := by
  cases event with
  | advance millis =>
      cases hdisturb
      exact ⟨fun uid => live_advance_of_untimed (hstore.online uid),
        live_advance_of_untimed hstore.route⟩
  | expire key =>
      cases hdisturb
      exact ⟨fun uid => ExpiringStore.live_put_of_ne (horder.2 uid).symm none,
        ExpiringStore.live_put_of_ne horder.1.symm none⟩

theorem RoutingKept.step {move : LoginMove}
    (hstate : RoutingKept lasting state)
    (hstep : loginSystem.step state move = some next)
    (hfine : Unfailing move) (horder : InOrder state move)
    (hlasts : ∀ token, lasting token →
      Lasts (sessionKey token) state move) :
    RoutingKept lasting next := by
  cases ThreadSystem.stepped_of_step hstep with
  | enter op => exact hstate.enter horder
  | exec hthread hprog heffect =>
      exact hstate.exec hthread hprog heffect hfine horder.1
        (horder.2 _ hthread)
  | disturb hdisturb =>
      obtain ⟨honline, hroute⟩ :=
        routing_of_inOrder hstate.untimed hdisturb horder
      exact hstate.disturb hdisturb honline hroute
        fun token htoken => hlasts token htoken _ hdisturb

theorem routingKept_of_inOrder (start : RoutedWorld)
    {moves : List LoginMove} (hfine : ∀ move ∈ moves, Unfailing move)
    (horder : Runs.EachStep loginSystem.step InOrder
      { world := start.world } moves)
    (hlasts : ∀ token, lasting token →
      Runs.EachStep loginSystem.step (Lasts (sessionKey token))
        { world := start.world } moves) :
    Runs.Always loginSystem.step (RoutingKept lasting)
      { world := start.world } moves := by
  have hok : Runs.EachStep loginSystem.step
      (fun state move => Unfailing move ∧ InOrder state move ∧
        ∀ token, lasting token → Lasts (sessionKey token) state move)
      { world := start.world } moves := by
    intro before move state next hinit hrun hstep
    have hmem : move ∈ moves :=
      hinit.subset (List.mem_append_right before List.mem_cons_self)
    exact ⟨hfine move hmem, horder before move state next hinit hrun hstep,
      fun token htoken =>
        hlasts token htoken before move state next hinit hrun hstep⟩
  exact Runs.always_of_eachStep start.kept
    (fun _ _ _ hstep hstate hmove =>
      hstate.step hstep hmove.1 hmove.2.1 hmove.2.2) hok

/-- In every interleaving of logins, logins by token and logouts without a
failing command, routing data follows them, as long as every step is in
order; and so does the node in a session that does not expire. -/
theorem routing_follows_of_inOrder (start : RoutedWorld)
    (moves : List LoginMove) (hfine : ∀ move ∈ moves, Unfailing move)
    (horder : Runs.EachStep loginSystem.step InOrder
      { world := start.world } moves) :
    Runs.Always loginSystem.step RoutingFollows { world := start.world }
        moves ∧
      ∀ token, Runs.EachStep loginSystem.step (Lasts (sessionKey token))
          { world := start.world } moves →
        Runs.Always loginSystem.step (SessionFollows token)
          { world := start.world } moves := by
  constructor
  · have hkept : Runs.Always loginSystem.step (RoutingKept fun _ => False)
        { world := start.world } moves :=
      routingKept_of_inOrder start hfine horder fun _ hnone => hnone.elim
    intro before state hinit hrun
    exact (hkept before state hinit hrun).follows
  · intro token hlasts
    have hkept : Runs.Always loginSystem.step (RoutingKept (· = token))
        { world := start.world } moves := by
      apply routingKept_of_inOrder start hfine horder
      rintro _ rfl
      exact hlasts
    intro before state hinit hrun
    exact (hkept before state hinit hrun).sessionFollows rfl

def emptyRouted : RoutedWorld where
  world := {}
  hash := ⟨rfl, fun _ => rfl⟩
  untimed := ⟨fun _ => rfl, rfl⟩
  agree := fun _ => rfl

theorem inOrder_of_single {call : LoginCall} {answer : call.Answer}
    (hsingle : state.threads = [thread])
    (hphase : (routePhase thread).Steady state.world.store call) :
    InOrder state (.exec 0 call answer) := by
  constructor
  · rintro uid - i value hi ⟨each, heach, -⟩
    rw [hsingle] at heach
    cases i with
    | zero => exact hi rfl
    | succ i => cases heach
  · intro each heach
    rw [hsingle] at heach
    cases heach
    exact hphase

theorem routing_follows_firstLogin :
    (∀ move ∈ loginMoves, Unfailing move) ∧
      (Runs.Always loginSystem.step RoutingFollows
          { world := emptyRouted.world } loginMoves ∧
        Runs.Always loginSystem.step (SessionFollows "t")
          { world := emptyRouted.world } loginMoves) := by
  have hfine : ∀ move ∈ loginMoves, Unfailing move := by
    intro move hmove
    simp only [loginMoves, List.mem_cons, List.not_mem_nil,
      or_false] at hmove
    rcases hmove with rfl | rfl | rfl | rfl | rfl | rfl | rfl | rfl | rfl |
      rfl | rfl | rfl | rfl <;> first | exact trivial | exact rfl
  have hplain : (LoginOp.login "ann" "secret" "node-1").PlainNode := by
    simp [LoginOp.PlainNode, NulFree]
  have horder : Runs.EachStep loginSystem.step InOrder
      { world := emptyRouted.world } loginMoves := by
    refine Runs.EachStep.cons rfl hplain ?_
    repeat refine Runs.EachStep.cons rfl (inOrder_of_single rfl trivial) ?_
    exact Runs.eachStep_nil
  have hlasts : Runs.EachStep loginSystem.step (Lasts (sessionKey "t"))
      { world := emptyRouted.world } loginMoves := by
    repeat refine Runs.EachStep.cons rfl trivial ?_
    exact Runs.eachStep_nil
  have hfollows :=
    routing_follows_of_inOrder emptyRouted loginMoves hfine horder
  exact ⟨hfine, hfollows.1, hfollows.2 "t" hlasts⟩

theorem undisturbed_of_last {index : Nat} {touches : LoginCall → Prop}
    (hlast : state.trace.Pairwise fun newer older =>
      older.1 = index → newer.1 = index) :
    Undisturbed state index touches := by
  apply hlast.imp
  intro newer older hsame holder hnewer
  exact (hnewer (hsame holder)).elim

/-- After the login, the same session moves to another node. -/
def movedSession : List LoginMove :=
  loginMoves ++
    [.enter (.loginWithToken "t" "node-2"),
      .exec 1 (.redis .getConnection) true,
      .exec 1 (.redis (.command
        (.hmget (sessionKey "t") ["uid", "node_id"])))
        ⟨true, some (.array [some "ann", some "node-1"])⟩,
      .exec 1 (.redis .getConnection) true,
      .exec 1 (.redis (.command
        (.hmset (sessionKey "t") [("node_id", "node-2")]))) done,
      .exec 1 (.repository (.getUserInfo "ann")) (some userAnn),
      .exec 1 (.repository (.getFriendList "ann")) ([] : List UserInfo),
      .exec 1 (.repository (.getPendingRequests "ann"))
        ([] : List String),
      .exec 1 (.repository (.getUndeliveredMessages "ann"))
        ([] : List MessageInfo)]

theorem routing_stays_movedSession :
    (∀ move ∈ movedSession, Unfailing move) ∧
      ¬ Runs.Always loginSystem.step RoutingFollows
        { world := emptyRouted.world } movedSession := by
  constructor
  · intro move hmove
    simp only [movedSession, loginMoves, List.mem_append, List.mem_cons,
      List.not_mem_nil, or_false] at hmove
    rcases hmove with (rfl | rfl | rfl | rfl | rfl | rfl | rfl | rfl | rfl |
      rfl | rfl | rfl | rfl) | (rfl | rfl | rfl | rfl | rfl | rfl | rfl |
      rfl | rfl) <;> first | exact trivial | exact rfl
  · intro halways
    have hlast := halways movedSession _ (List.prefix_refl _) rfl
    have hmoved := hlast.loginWithToken 1 _ "t" "ann" "node-2" _ rfl rfl rfl
      rfl ⟨"t", ⟨true, some (.array [some "ann", some "node-1"])⟩,
        .tail _ (.head _), rfl⟩ (undisturbed_of_last (by decide))
    exact absurd hmoved.1 (by decide)

end Threads

end MuduoChat
