import MuduoChat.DelayedCaches
import MuduoChat.FriendLinks
import MuduoChat.ServerCaches

/-!
# Friends in memory and in the database

The friend sets in memory are a cache of the accepted rows: workers write the
database, and callbacks tell the cache later.  A login fetches the friends of
its user in a worker and adds them to the cache in a callback.

The cache is coherent in the sense of `CacheView`, as long as writes of one
pair do not overtake each other on their way to the cache, and a removal is
not written while a login that has fetched the pair is on its way.
-/

namespace MuduoChat

namespace ChatNode

variable {config : ServerConfig} {node next : ChatNode} {action : Action}

/-! ## Work under way -/

/-- What the logs of busy workers and the waiting callbacks speak of. -/
def underway {Item : Type}
    (told : (call : NodeCall) → call.Answer → Set Item)
    (awaited : Callback → Set Item) (node : ChatNode) : Set Item :=
  { item |
    (∃ thread ∈ node.threads, ∃ entry ∈ thread.log,
      item ∈ told entry.1 entry.2) ∨
    ∃ loop, ∃ functor ∈ node.server.loops loop,
      item ∈ awaited functor.callback }

section Underway

variable {Item : Type} {told : (call : NodeCall) → call.Answer → Set Item}
  {awaited : Callback → Set Item}

theorem underway_congr (hthreads : next.threads = node.threads)
    (hloops : next.server.loops = node.server.loops) :
    underway told awaited next = underway told awaited node := by
  unfold underway
  rw [hthreads, hloops]

theorem underway_start {item : PoolTask}
    (hthreads : next.threads = node.threads ++ [(system config).begin item])
    (hloops : next.server.loops = node.server.loops) :
    underway told awaited next = underway told awaited node := by
  ext each
  unfold underway
  rw [Set.mem_ofPred_eq, Set.mem_ofPred_eq, hthreads, hloops]
  refine or_congr_left ?_
  constructor
  · rintro ⟨thread, hthread, entry, hentry, htold⟩
    rcases List.mem_append.mp hthread with hold | hnew
    · exact ⟨thread, hold, entry, hentry, htold⟩
    · rw [List.mem_singleton.mp hnew] at hentry
      cases hentry
  · rintro ⟨thread, hthread, hrest⟩
    exact ⟨thread, List.mem_append_left _ hthread, hrest⟩

theorem underway_exec {index : Nat} {thread : NodeThread} {call : NodeCall}
    {answer : call.Answer} {rest : NodeProg (Option Callback)}
    (hthread : node.threads[index]? = some thread)
    (hthreads : next.threads =
      node.threads.set index (thread.advance call answer rest))
    (hloops : next.server.loops = node.server.loops) :
    underway told awaited next =
      told call answer ∪ underway told awaited node := by
  have hindex : index < node.threads.length :=
    (List.getElem?_eq_some_iff.mp hthread).1
  have hadvanced : thread.advance call answer rest ∈ next.threads := by
    rw [hthreads]
    exact List.mem_set hindex _
  have hkept (other : NodeThread) (hother : other ∈ node.threads) :
      ∃ later ∈ next.threads, other.log ⊆ later.log := by
    obtain ⟨place, hplace⟩ := List.mem_iff_getElem?.mp hother
    by_cases hsame : place = index
    · subst hsame
      rw [hthread] at hplace
      cases hplace
      exact ⟨_, hadvanced, List.subset_append_left _ _⟩
    · refine ⟨other, ?_, List.Subset.refl _⟩
      rw [hthreads, List.mem_iff_getElem?]
      exact ⟨place, by rw [List.getElem?_set_ne (Ne.symm hsame), hplace]⟩
  ext each
  constructor
  · rintro (⟨other, hother, entry, hentry, htold⟩ | hwaiting)
    · rw [hthreads] at hother
      rcases List.mem_or_eq_of_mem_set hother with hold | rfl
      · exact .inr (.inl ⟨other, hold, entry, hentry, htold⟩)
      · rcases List.mem_append.mp hentry with hold | hnew
        · exact .inr (.inl ⟨thread, List.mem_of_getElem? hthread, entry,
            hold, htold⟩)
        · rw [List.mem_singleton.mp hnew] at htold
          exact .inl htold
    · rw [hloops] at hwaiting
      exact .inr (.inr hwaiting)
  · rintro (htold | ⟨other, hother, entry, hentry, htold⟩ | hwaiting)
    · exact .inl ⟨_, hadvanced, ⟨call, answer⟩,
        List.mem_append_right _ List.mem_cons_self, htold⟩
    · obtain ⟨later, hlater, hlog⟩ := hkept other hother
      exact .inl ⟨later, hlater, entry, hlog hentry, htold⟩
    · exact .inr (hloops ▸ hwaiting)

theorem underway_finish_subset {index : Nat} {thread : NodeThread}
    {callback : Option Callback}
    (hthreads : next.threads = node.threads.eraseIdx index)
    (hloops : next.server.loops = (node.server.queueInLoop config
      thread.op.request callback).loops) :
    underway told awaited next ⊆
      underway told awaited node ∪
        { item | ∃ done, callback = some done ∧ item ∈ awaited done } := by
  rintro each (⟨other, hother, hrest⟩ | ⟨loop, functor, hfunctor, hin⟩)
  · rw [hthreads] at hother
    exact .inl (.inl ⟨other, List.mem_of_mem_eraseIdx hother, hrest⟩)
  · rw [hloops] at hfunctor
    rcases mem_loops_queueInLoop hfunctor with hold | ⟨hdone, _⟩
    · exact .inl (.inr ⟨loop, functor, hold, hin⟩)
    · exact .inr ⟨functor.callback, hdone, hin⟩

theorem subset_underway_finish {index : Nat} {thread : NodeThread}
    {callback : Option Callback}
    (hthread : node.threads[index]? = some thread)
    (hthreads : next.threads = node.threads.eraseIdx index)
    (hloops : next.server.loops = (node.server.queueInLoop config
      thread.op.request callback).loops)
    (hlog : ∀ entry ∈ thread.log, ∀ item ∈ told entry.1 entry.2,
      ∃ done, callback = some done ∧ item ∈ awaited done) :
    underway told awaited node ⊆ underway told awaited next := by
  rintro each (⟨other, hother, entry, hentry, htold⟩ |
    ⟨loop, functor, hfunctor, hin⟩)
  · obtain ⟨place, hplace⟩ := List.mem_iff_getElem?.mp hother
    by_cases hsame : place = index
    · subst hsame
      rw [hthread] at hplace
      cases hplace
      obtain ⟨done, rfl, hin⟩ := hlog entry hentry each htold
      refine .inr ⟨config.loopOf done.conn, ⟨thread.op.request, done⟩, ?_,
        hin⟩
      rw [hloops]
      exact mem_loops_queueInLoop_self _ _ done
    · refine .inl ⟨other, ?_, entry, hentry, htold⟩
      rw [hthreads, List.mem_eraseIdx_iff_getElem?]
      exact ⟨place, hsame, hplace⟩
  · refine .inr ⟨loop, functor, ?_, hin⟩
    rw [hloops]
    exact mem_loops_queueInLoop_of_mem hfunctor

theorem underway_callback {loop now : Nat} {functor : Functor}
    {rest : List Functor}
    (hloop : node.server.loops loop = functor :: rest) :
    underway told awaited (node.afterCallback loop now functor rest) ⊆
        underway told awaited node ∧
      underway told awaited node ⊆ awaited functor.callback ∪
        underway told awaited (node.afterCallback loop now functor rest) := by
  obtain ⟨_, hloops, _⟩ := afterCallback_frame node loop now functor rest
  constructor
  · rintro each (hlogged | ⟨other, waiting, hwaiting, hin⟩)
    · exact .inl hlogged
    · rw [hloops] at hwaiting
      exact .inr ⟨other, waiting, mem_loops_of_mem_rest hloop hwaiting, hin⟩
  · rintro each (hlogged | ⟨other, waiting, hwaiting, hin⟩)
    · exact .inr (.inl hlogged)
    · by_cases hsame : waiting = functor
      · subst hsame
        exact .inl hin
      · refine .inr (.inr ⟨other, waiting, ?_, hin⟩)
        rw [hloops]
        exact mem_rest_of_ne hloop hwaiting hsame

theorem underway_quiescent (hquiet : node.Quiescent) :
    underway told awaited node = ∅ := by
  rw [Set.eq_empty_iff_forall_notMem]
  rintro each (⟨thread, hthread, _⟩ | ⟨loop, functor, hfunctor, _⟩)
  · rw [hquiet.threads] at hthread
    cases hthread
  · rw [hquiet.loops loop] at hfunctor
    cases hfunctor

end Underway

/-! ## Friends as a cache -/

/-- The writes of an acceptance. -/
def accepts : (call : NodeCall) → call.Answer → Set (Sym2 String)
  | .sql (.query (.updateFriendshipStatus 1 requester responder)), _ =>
      {s(requester, responder)}
  | .sql (.query (.insertIgnoreFriendship uid friend 1)), _ =>
      {s(uid, friend)}
  | _, _ => ∅

/-- The last write of an acceptance. -/
def completes : (call : NodeCall) → call.Answer → Set (Sym2 String)
  | .sql (.query (.insertIgnoreFriendship uid friend 1)), _ =>
      {s(uid, friend)}
  | _, _ => ∅

def acceptAwaited : Callback → Set (Sym2 String)
  | .friendResponse _ requester responder true => {s(requester, responder)}
  | _ => ∅

def removes : (call : NodeCall) → call.Answer → Set (Sym2 String)
  | .sql (.query (.deleteFriendships uid friend)), _ => {s(uid, friend)}
  | _, _ => ∅

def removeAwaited : Callback → Set (Sym2 String)
  | .friendRemove _ uid target => {s(uid, target)}
  | _ => ∅

abbrev Fetch := String × Set (Sym2 String)

def fetches : (call : NodeCall) → call.Answer → Set Fetch
  | .sql (.query (.selectFriends uid)), outcome =>
      { fetch | ∃ friends, outcome.result = some friends ∧
        fetch = (uid, SessionManager.pairsOf uid
          (friends.map UserInfo.ofRow)) }
  | _, _ => ∅

def fetchAwaited (callback : Callback) : Set Fetch :=
  { fetch | ∃ conn result token,
    ChatServer.entry callback = some (conn, result, token) ∧
      fetch = (result.userInfo.uid,
        SessionManager.pairsOf result.userInfo.uid result.friends) }

def friendView (node : ChatNode) : CacheView (Sym2 String) String where
  stored := node.world.db.links
  cached := node.server.sessions.friendPairs
  adding := underway accepts acceptAwaited node
  added := underway completes acceptAwaited node
  removing := underway removes removeAwaited node
  fetched := underway fetches fetchAwaited node
  entered := { uid | node.server.sessions.isOnline uid = true }

def Involves (uid : String) (link : Sym2 String) : Prop := uid ∈ link

/-! ## The claimed agreement and its conditions -/

/-- When the node is idle, the friends of everyone who is online are those
`getFriendList` returns. -/
def FriendsAgree (node : ChatNode) : Prop :=
  node.Quiescent → ∀ uid, node.server.sessions.isOnline uid = true →
    ∀ friend, friend ∈ node.server.sessions.getFriends uid ↔
      friend ∈ node.world.db.friendUids uid

/-- No call on the database fails, and friend responses name registered
users. -/
def Sheltered (node : ChatNode) : Action → Prop
  | .receive _ (.friendResp req) =>
      node.world.db.Registered req.fromUid ∧
        node.world.db.Registered req.toUid
  | .exec _ (.sql .getConnection) conn => conn = true
  | .exec _ (.sql (.query statement)) outcome =>
      outcome.executed = true ∧
        outcome.result = (node.world.db.execStatement statement).2
  | _ => True

/-- Writes of one pair take turns: an acceptance is not written while a
removal is under way, nor a removal while an acceptance is, or a login that
has fetched the pair.  An acceptance leaves its pair with an accepted row, and
a rejection does not take the only one. -/
def FriendsTakeTurns (node : ChatNode) : Action → Prop
  | .exec _ (.sql (.query (.updateFriendshipStatus status requester
      responder))) _ =>
      if status = 1 then
        s(requester, responder) ∉ (friendView node).removing
      else ⟨requester, responder, 1⟩ ∈ node.world.db.friendships →
        requester ≠ responder ∧
          ⟨responder, requester, 1⟩ ∈ node.world.db.friendships
  | .exec _ (.sql (.query (.insertIgnoreFriendship uid friend 1))) _ =>
      s(uid, friend) ∉ (friendView node).removing ∧
        (⟨friend, uid, 1⟩ ∈ node.world.db.friendships ∨
          ⟨uid, friend, 1⟩ ∈ node.world.db.friendships ∨
          ¬ node.world.db.friendships.HasKey (uid, friend))
  | .exec _ (.sql (.query (.deleteFriendships uid friend))) _ =>
      s(uid, friend) ∉ (friendView node).adding ∧
        ∀ fetch ∈ (friendView node).fetched, s(uid, friend) ∉ fetch.2
  | _ => True

/-! ## The programs -/

/-- Answers of calls that did not fail. -/
def Unfailed : (call : NodeCall) → call.Answer → Prop
  | .sql .getConnection, conn => conn = true
  | .sql (.query (.updateFriendshipStatus ..)), outcome =>
      outcome.result.isSome = true
  | .sql (.query (.selectFriends _)), outcome =>
      outcome.result.isSome = true
  | _, _ => True

theorem unfailed_of_sheltered {index : Nat} {call : NodeCall}
    {answer : call.Answer}
    (hsheltered : Sheltered node (.exec index call answer)) :
    Unfailed call answer := by
  unfold Unfailed
  split
  · exact hsheltered
  · obtain ⟨_, hresult⟩ := hsheltered
    rw [hresult]
    rfl
  · obtain ⟨_, hresult⟩ := hsheltered
    rw [hresult]
    rfl
  · trivial

section Programs

open Prog

theorem ensures_accept (requester responder : String) :
    (answerRepository (.respondFriendRequest requester responder
      true)).Ensures fun log _ =>
        (∀ entry ∈ log, Unfailed entry.1 entry.2) → ∃ outcome,
          ⟨.sql (.query (.insertIgnoreFriendship responder requester 1)),
            outcome⟩ ∈ log := by
  refine ensures_call.mpr fun conn => ?_
  cases conn with
  | false =>
      refine ensures_ret.mpr fun hlog => ?_
      cases hlog _ (.head _)
  | true =>
      refine ensures_call.mpr fun updated => ?_
      obtain ⟨executed, result⟩ := updated
      cases result with
      | none =>
          intro log value _ hlog
          cases hlog _ (.tail _ (.head _))
      | some _ =>
          refine ensures_call.mpr fun inserted => ?_
          refine ensures_call.mpr fun returned => ?_
          exact ensures_ret.mpr fun _ => ⟨inserted, by simp⟩

theorem ensures_remove (uid friend : String) :
    (answerRepository (.removeFriends uid friend)).Ensures fun log _ =>
      (∀ entry ∈ log, Unfailed entry.1 entry.2) → ∃ outcome,
        ⟨.sql (.query (.deleteFriendships uid friend)), outcome⟩ ∈ log := by
  intro log removed hreaches hlog
  obtain ⟨hmem, -⟩ | ⟨outcome, hmem, -⟩ := ensures_query log removed hreaches
  · cases hlog _ hmem
  · exact ⟨outcome, hmem⟩

theorem ensures_getFriendList (uid : String) :
    (answerRepository (.getFriendList uid)).Ensures fun log friends =>
      (∀ entry ∈ log, Unfailed entry.1 entry.2) → ∃ outcome rows,
        ⟨.sql (.query (.selectFriends uid)), outcome⟩ ∈ log ∧
          outcome.result = some rows ∧ friends = rows.map UserInfo.ofRow := by
  intro log friends hreaches hlog
  obtain ⟨hmem, -⟩ | ⟨outcome, hmem, hfriends⟩ :=
    ensures_query log friends hreaches
  · cases hlog _ hmem
  · have hfound : outcome.result.isSome = true := hlog _ hmem
    obtain ⟨found, hresult⟩ := Option.isSome_iff_exists.mp hfound
    refine ⟨outcome, found, hmem, hresult, ?_⟩
    rw [hfriends, hresult]
    rfl

/-- What a friend task has called, and the callback it returns. -/
def Settles (task : Task) (log : List (Sigma RepositoryCall.Answer))
    (callback : Option Callback) : Prop :=
  match task with
  | .respondFriendRequest conn requester responder accepted =>
      callback = some (.friendResponse conn requester responder accepted) ∧
        ∃ ok, ⟨.respondFriendRequest requester responder accepted, ok⟩ ∈ log
  | .removeFriend conn uid target =>
      callback = some (.friendRemove conn uid target) ∧
        ∃ ok, ⟨.removeFriends uid target, ok⟩ ∈ log
  | _ => ∀ done, callback = some done →
      acceptAwaited done = ∅ ∧ removeAwaited done = ∅

theorem ensures_settles (nodeId : String) (task : Task) :
    (task.program nodeId).Ensures (Settles task) := by
  cases task with
  | respondFriendRequest conn requester responder accepted =>
      exact ensures_call.mpr fun ok =>
        ensures_ret.mpr ⟨rfl, ok, List.mem_cons_self⟩
  | removeFriend conn uid target =>
      exact ensures_call.mpr fun ok =>
        ensures_ret.mpr ⟨rfl, ok, List.mem_cons_self⟩
  | _ =>
      have hany {α : Type} (service : ServiceProg α) :
          service.Ensures fun _ _ => True := fun _ _ _ => trivial
      refine (hany _).bind fun log value _ => ensures_ret.mpr ?_
      intro done hdone
      cases hdone <;> exact ⟨rfl, rfl⟩

end Programs

theorem task_of_accept {task : Task} {requester responder : String}
    (hsends : task.Sends (.updateFriendshipStatus 1 requester responder)) :
    ∃ conn, task = .respondFriendRequest conn requester responder true := by
  obtain ⟨call, hmakes, hsends⟩ := hsends
  generalize hstatement :
    Statement.updateFriendshipStatus 1 requester responder = statement
    at hsends
  cases hsends with
  | updateStatus asking answering accepted =>
      rw [Statement.updateFriendshipStatus.injEq] at hstatement
      obtain ⟨hstatus, rfl, rfl⟩ := hstatement
      cases hmakes with
      | respondFriendRequest conn =>
          cases accepted with
          | true => exact ⟨conn, rfl⟩
          | false => cases hstatus
  | _ => cases hstatement

theorem task_of_mirror {task : Task} {uid friend : String}
    (hsends : task.Sends (.insertIgnoreFriendship uid friend 1)) :
    ∃ conn, task = .respondFriendRequest conn friend uid true := by
  obtain ⟨call, hmakes, hsends⟩ := hsends
  cases hsends with
  | insertMirror =>
      cases hmakes with
      | respondFriendRequest conn => exact ⟨conn, rfl⟩

theorem task_of_delete {task : Task} {uid friend : String}
    (hsends : task.Sends (.deleteFriendships uid friend)) :
    ∃ conn, task = .removeFriend conn uid friend := by
  obtain ⟨call, hmakes, hsends⟩ := hsends
  cases hsends with
  | deleteFriendships =>
      cases hmakes with
      | removeFriends conn => exact ⟨conn, rfl⟩

/-! ## Tasks that are done -/

section Done

variable {thread : NodeThread} {callback : Option Callback}

theorem settled (hthread : (system config).Faithful thread)
    (hprog : thread.prog = .ret callback) :
    ∃ outer : List (Sigma RepositoryCall.Answer),
      Settles thread.op.task outer callback ∧
      ∀ entry ∈ outer, ∃ part, part ⊆ thread.log ∧
        Prog.Reaches (answerRepository entry.1) part (.ret entry.2) := by
  obtain ⟨outer, houter, hparts⟩ := calls_of_done hthread hprog
  exact ⟨outer, ensures_settles config.nodeId thread.op.task outer callback
    houter, hparts⟩

/-- What an acceptance has written is what its callback speaks of. -/
theorem acceptAwaited_of_accepts (hthread : (system config).Faithful thread)
    (hprog : thread.prog = .ret callback) :
    ∀ entry ∈ thread.log, ∀ link ∈ accepts entry.1 entry.2,
      ∃ done, callback = some done ∧ link ∈ acceptAwaited done := by
  rintro ⟨call, answer⟩ hentry link hlink
  obtain ⟨outer, hsettles, _⟩ := settled hthread hprog
  have hdone (requester responder : String)
      (htask : ∃ conn, thread.op.task =
        .respondFriendRequest conn requester responder true)
      (hpair : link = s(requester, responder)) :
      ∃ done, callback = some done ∧ link ∈ acceptAwaited done := by
    obtain ⟨conn, htask⟩ := htask
    rw [htask] at hsettles
    exact ⟨_, hsettles.1, hpair⟩
  revert hlink
  show link ∈ accepts call answer → _
  unfold accepts
  split
  · intro hlink
    exact hdone _ _ (task_of_accept (sends_of_log hthread hentry)) hlink
  · intro hlink
    exact hdone _ _ (task_of_mirror (sends_of_log hthread hentry))
      (hlink.trans Sym2.eq_swap)
  · exact False.elim

theorem completes_of_acceptAwaited
    (hthread : (system config).Faithful thread)
    (hprog : thread.prog = .ret callback)
    (hlog : ∀ entry ∈ thread.log, Unfailed entry.1 entry.2) :
    ∀ done, callback = some done → ∀ link ∈ acceptAwaited done,
      ∃ entry ∈ thread.log, link ∈ completes entry.1 entry.2 := by
  intro done hdone link hlink
  obtain ⟨outer, hsettles, hparts⟩ := settled hthread hprog
  generalize thread.op.task = task at hsettles
  cases task with
  | respondFriendRequest conn requester responder accepted =>
      obtain ⟨rfl, ok, hcall⟩ := hsettles
      cases hdone
      cases accepted with
      | false => exact hlink.elim
      | true =>
          obtain ⟨part, hpart, hpath⟩ := hparts _ hcall
          obtain ⟨outcome, hmem⟩ := ensures_accept requester responder part
            ok hpath fun entry hentry => hlog entry (hpart hentry)
          exact ⟨_, hpart hmem, hlink.trans Sym2.eq_swap⟩
  | removeFriend conn uid target =>
      obtain ⟨rfl, _⟩ := hsettles
      cases hdone
      exact hlink.elim
  | _ =>
      rw [(hsettles done hdone).1] at hlink
      exact hlink.elim

theorem removeAwaited_of_removes (hthread : (system config).Faithful thread)
    (hprog : thread.prog = .ret callback) :
    ∀ entry ∈ thread.log, ∀ link ∈ removes entry.1 entry.2,
      ∃ done, callback = some done ∧ link ∈ removeAwaited done := by
  rintro ⟨call, answer⟩ hentry link hlink
  obtain ⟨outer, hsettles, _⟩ := settled hthread hprog
  revert hlink
  show link ∈ removes call answer → _
  unfold removes
  split
  · intro hlink
    obtain ⟨conn, htask⟩ := task_of_delete (sends_of_log hthread hentry)
    rw [htask] at hsettles
    exact ⟨_, hsettles.1, hlink⟩
  · exact False.elim

theorem removes_of_removeAwaited (hthread : (system config).Faithful thread)
    (hprog : thread.prog = .ret callback)
    (hlog : ∀ entry ∈ thread.log, Unfailed entry.1 entry.2) :
    ∀ done, callback = some done → ∀ link ∈ removeAwaited done,
      ∃ entry ∈ thread.log, link ∈ removes entry.1 entry.2 := by
  intro done hdone link hlink
  obtain ⟨outer, hsettles, hparts⟩ := settled hthread hprog
  generalize thread.op.task = task at hsettles
  cases task with
  | respondFriendRequest conn requester responder accepted =>
      obtain ⟨rfl, _⟩ := hsettles
      cases hdone
      exact hlink.elim
  | removeFriend conn uid target =>
      obtain ⟨rfl, ok, hcall⟩ := hsettles
      cases hdone
      obtain ⟨part, hpart, hpath⟩ := hparts _ hcall
      obtain ⟨outcome, hmem⟩ := ensures_remove uid target part ok hpath
        fun entry hentry => hlog entry (hpart hentry)
      exact ⟨_, hpart hmem, hlink⟩
  | _ =>
      rw [(hsettles done hdone).2] at hlink
      exact hlink.elim

/-- A login adds the friends it has read. -/
theorem fetches_of_fetchAwaited (hthread : (system config).Faithful thread)
    (hprog : thread.prog = .ret callback)
    (hlog : ∀ entry ∈ thread.log, Unfailed entry.1 entry.2)
    (hread : ∀ uid outcome info,
      ⟨.sql (.query (.selectUser uid)), outcome⟩ ∈ thread.log →
        outcome.result = some (some info) → info.uid = uid ∧ NulFree uid) :
    ∀ done, callback = some done → ∀ fetch ∈ fetchAwaited done,
      ∃ entry ∈ thread.log, fetch ∈ fetches entry.1 entry.2 := by
  rintro done rfl fetch ⟨conn, result, token, hentry, rfl⟩
  obtain ⟨outer, houter, hparts⟩ := calls_of_done hthread hprog
  obtain ⟨uid, hcollected⟩ := ChatServer.collected_of_entry houter hentry
  obtain ⟨first, hfirst, hpath⟩ := hparts _ hcollected.userInfo
  obtain ⟨outcome, row, hmem, hresult, hinfo⟩ :=
    ensures_getUserInfo uid first _ hpath result.userInfo rfl
  obtain ⟨hsame, hnul⟩ := hread uid outcome row (hfirst hmem) hresult
  have huid : result.userInfo.uid = uid := by
    rw [hinfo]
    show cstr row.uid = uid
    rw [hsame, hnul.cstr]
  obtain ⟨second, hsecond, hpath⟩ := hparts _ hcollected.friends
  obtain ⟨outcome, rows, hmem, hresult, hfriends⟩ :=
    ensures_getFriendList uid second _ hpath
      fun entry hentry => hlog entry (hsecond hentry)
  replace hfriends : result.friends = rows.map UserInfo.ofRow := hfriends
  rw [huid, hfriends]
  exact ⟨_, hsecond hmem, rows, hresult, rfl⟩

end Done

end ChatNode

end MuduoChat
