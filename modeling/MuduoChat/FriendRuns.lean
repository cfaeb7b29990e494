import MuduoChat.NodeFriends

/-!
# Friend lists over whole runs

Every step of a node is one of the operations of `CacheView` that keep the
cache coherent, provided the database does not fail, its uids are read as they
are stored and writes of one pair take turns.  So the friends in memory are
those of the database whenever the node is idle.
-/

namespace MuduoChat

namespace ChatNode

open CacheView (Coherent)

variable {config : ServerConfig} {node next : ChatNode} {action : Action}

/-! ## Calls -/

/-- `next` comes from `node` by a call of one worker. -/
structure Calls (node next : ChatNode) (index : Nat) (thread : NodeThread)
    (call : NodeCall) (answer : call.Answer) : Prop where
  worker : node.threads[index]? = some thread
  threads : ∃ rest, next.threads =
    node.threads.set index (thread.advance call answer rest)
  server : next.server = node.server

section Calls

variable {index : Nat} {thread : NodeThread} {call : NodeCall}
  {answer : call.Answer}

theorem Calls.underway {Item : Type}
    {told : (call : NodeCall) → call.Answer → Set Item}
    {awaited : Callback → Set Item}
    (hcalls : Calls node next index thread call answer) :
    ChatNode.underway told awaited next =
      told call answer ∪ ChatNode.underway told awaited node := by
  obtain ⟨rest, hthreads⟩ := hcalls.threads
  exact underway_exec hcalls.worker hthreads (by rw [hcalls.server])

theorem Calls.cached (hcalls : Calls node next index thread call answer) :
    (friendView next).cached = (friendView node).cached := by
  unfold friendView
  rw [hcalls.server]

theorem Calls.entered (hcalls : Calls node next index thread call answer) :
    (friendView next).entered = (friendView node).entered := by
  unfold friendView
  rw [hcalls.server]

theorem Calls.same {Item : Type}
    {told : (call : NodeCall) → call.Answer → Set Item}
    {awaited : Callback → Set Item}
    (hcalls : Calls node next index thread call answer)
    (htold : told call answer = ∅) :
    ChatNode.underway told awaited next =
      ChatNode.underway told awaited node := by
  rw [hcalls.underway, htold, Set.empty_union]

theorem Calls.keep (hcalls : Calls node next index thread call answer)
    (hnode : Coherent Involves (friendView node))
    (hlinks : next.world.db.links = node.world.db.links)
    (haccepts : accepts call answer = ∅)
    (hcompletes : completes call answer = ∅)
    (hremoves : removes call answer = ∅)
    (hfetches : fetches call answer = ∅) :
    Coherent Involves (friendView next) :=
  hnode.keep hlinks hcalls.cached (hcalls.same haccepts).symm.subset
    (hcalls.same hcompletes).subset (hcalls.same hremoves)
    (hcalls.same hfetches).subset hcalls.entered.subset

theorem Calls.accept {requester responder : String}
    {outcome : QueryOutcome (.updateFriendshipStatus 1 requester responder)}
    (hcalls : Calls node next index thread
      (.sql (.query (.updateFriendshipStatus 1 requester responder)))
      outcome)
    (hnode : Coherent Involves (friendView node))
    (hdb : next.world.db = (node.world.db.execStatement
      (.updateFriendshipStatus 1 requester responder)).1)
    (hfree : s(requester, responder) ∉ (friendView node).removing) :
    Coherent Involves (friendView next) := by
  have hlinks := @Database.links_accept node.world.db requester responder
  rw [← hdb] at hlinks
  refine hnode.store hlinks.1 hlinks.2 hfree hcalls.underway ?_
    hcalls.cached (hcalls.same rfl) (hcalls.same rfl) hcalls.entered
  intro link hlink
  exact .inl ((hcalls.same rfl).subset hlink)

theorem Calls.mirror {uid friend : String}
    {outcome : QueryOutcome (.insertIgnoreFriendship uid friend 1)}
    (hcalls : Calls node next index thread
      (.sql (.query (.insertIgnoreFriendship uid friend 1))) outcome)
    (hnode : Coherent Involves (friendView node))
    (hdb : next.world.db = (node.world.db.execStatement
      (.insertIgnoreFriendship uid friend 1)).1)
    (hfree : s(uid, friend) ∉ (friendView node).removing)
    (hlinked : s(uid, friend) ∈ next.world.db.links) :
    Coherent Involves (friendView next) := by
  have hlinks := @Database.links_insertFriendship node.world.db uid friend 1
  rw [← hdb] at hlinks
  refine hnode.store hlinks.1 hlinks.2 hfree hcalls.underway ?_
    hcalls.cached (hcalls.same rfl) (hcalls.same rfl) hcalls.entered
  intro link hlink
  rcases hcalls.underway.subset hlink with hnew | hold
  · cases hnew
    exact .inr hlinked
  · exact .inl hold

theorem completes_subset_accepts :
    (friendView node).added ⊆ (friendView node).adding := by
  have hcompletes (call : NodeCall) (answer : call.Answer) :
      completes call answer ⊆ accepts call answer := by
    unfold completes
    split
    · exact Set.Subset.refl _
    · exact Set.empty_subset _
  rintro link (⟨thread, hthread, entry, hentry, hlink⟩ | hwaiting)
  · exact .inl ⟨thread, hthread, entry, hentry, hcompletes _ _ hlink⟩
  · exact .inr hwaiting

theorem Calls.remove {uid friend : String}
    {outcome : QueryOutcome (.deleteFriendships uid friend)}
    (hcalls : Calls node next index thread
      (.sql (.query (.deleteFriendships uid friend))) outcome)
    (hnode : Coherent Involves (friendView node))
    (hdb : next.world.db = (node.world.db.execStatement
      (.deleteFriendships uid friend)).1)
    (hadding : s(uid, friend) ∉ (friendView node).adding)
    (hfetched : ∀ fetch ∈ (friendView node).fetched,
      s(uid, friend) ∉ fetch.2) :
    Coherent Involves (friendView next) := by
  have hlinks := @Database.links_remove node.world.db uid friend
  rw [← hdb] at hlinks
  have hcached := hcalls.cached
  have hentered := hcalls.entered
  refine hnode.remove hadding completes_subset_accepts hfetched ?_
  unfold friendView at *
  rw [CacheView.mk.injEq]
  exact ⟨hlinks, hcached, hcalls.same rfl, hcalls.same rfl, hcalls.underway,
    hcalls.same rfl, hentered⟩

theorem Calls.fetch {uid : String}
    {outcome : QueryOutcome (.selectFriends uid)}
    (hcalls : Calls node next index thread
      (.sql (.query (.selectFriends uid))) outcome)
    (hnode : Coherent Involves (friendView node))
    (hlinked : node.world.db.UsersLinked)
    (hnul : node.world.db.NulFreeRows)
    (hdb : next.world.db = node.world.db)
    (hresult : outcome.result = some (node.world.db.selectFriends uid)) :
    Coherent Involves (friendView next) := by
  let friends := (node.world.db.selectFriends uid).map UserInfo.ofRow
  have hfetches : fetches (.sql (.query (.selectFriends uid))) outcome =
      {(uid, SessionManager.pairsOf uid friends)} := by
    ext fetch
    constructor
    · rintro ⟨rows, hrows, rfl⟩
      rw [hresult] at hrows
      cases hrows
      rfl
    · rintro rfl
      exact ⟨_, hresult, rfl⟩
  have hfetched : (friendView next).fetched =
      insert (uid, SessionManager.pairsOf uid friends)
        (friendView node).fetched := by
    show ChatNode.underway fetches fetchAwaited next = _
    rw [hcalls.underway, hfetches]
    rfl
  have hcached := hcalls.cached
  have hentered := hcalls.entered
  have hread {user : UserInfo}
      (huser : s(uid, user.uid) ∈ node.world.db.links) :
      user.ofRow.uid = user.uid := (hnul.of_link huser).2.cstr
  have hmembers (link : Sym2 String) :
      link ∈ SessionManager.pairsOf uid friends ↔
        link ∈ node.world.db.links ∧ Involves uid link := by
    constructor
    · rintro ⟨info, hinfo, rfl⟩
      obtain ⟨user, huser, rfl⟩ := List.mem_map.mp hinfo
      have hlink := (Database.mem_selectFriends.mp huser).2
      rw [hread hlink]
      exact ⟨hlink, Sym2.mem_mk_left uid user.uid⟩
    · rintro ⟨hlink, hinvolves⟩
      obtain ⟨friend, rfl⟩ := Sym2.mem_iff_exists.mp hinvolves
      obtain ⟨user, huser, rfl⟩ := List.mem_map.mp
        ((Database.mem_uids_selectFriends hlinked).mpr hlink)
      exact ⟨user.ofRow, List.mem_map_of_mem huser, by rw [hread hlink]⟩
  have hview : friendView next = { friendView node with
      fetched := insert (uid, SessionManager.pairsOf uid friends)
        (friendView node).fetched } := by
    unfold friendView at *
    rw [CacheView.mk.injEq]
    exact ⟨Database.links_congr (by rw [hdb]), hcached, hcalls.same rfl,
      hcalls.same rfl, hcalls.same rfl, hfetched, hentered⟩
  exact hnode.fetch hmembers hview

end Calls

/-! ## The invariant -/

/-- A friend response names registered users. -/
def NamesUsers (db : Database) (task : Task) : Prop :=
  ∀ conn requester responder accepted,
    task = .respondFriendRequest conn requester responder accepted →
      db.Registered requester ∧ db.Registered responder

structure FriendsKept (config : ServerConfig) (node : ChatNode) : Prop where
  users : UsersRead config node
  linked : node.world.db.UsersLinked
  unfailed : ∀ thread ∈ node.threads, ∀ entry ∈ thread.log,
    Unfailed entry.1 entry.2
  queued : ∀ item ∈ node.server.queue, NamesUsers node.world.db item.task
  running : ∀ thread ∈ node.threads,
    NamesUsers node.world.db thread.op.task
  symmetric : node.server.sessions.Mutual
  coherent : Coherent Involves (friendView node)

theorem NamesUsers.grows {db after : Database} {task : Task}
    (hnames : NamesUsers db task) (hgrows : db.Grows after) :
    NamesUsers after task := by
  intro conn requester responder accepted htask
  obtain ⟨hrequester, hresponder⟩ :=
    hnames conn requester responder accepted htask
  exact ⟨hgrows.users _ hrequester, hgrows.users _ hresponder⟩

theorem nulFreeRows_of_uids {db : Database} (hdb : db.UsersLinked)
    (hnul : NulFreeUids db.users) : db.NulFreeRows := by
  have hfree {uid : String} (huid : db.Registered uid) : NulFree uid := by
    obtain ⟨user, huser, rfl⟩ := huid
    exact hnul user huser
  intro row hrow
  obtain ⟨hrequester, htarget⟩ := hdb row hrow
  exact ⟨hfree hrequester, hfree htarget⟩

theorem coherent_exec {index : Nat} {thread : NodeThread} {call : NodeCall}
    {answer : call.Answer} {rest : call.Answer → NodeProg (Option Callback)}
    (hnode : FriendsKept config node)
    (hcalls : Calls node next index thread call answer)
    (hprog : thread.prog = .call call rest)
    (heffect : node.world.effect call answer = some next.world)
    (hnul : NulFreeUids node.world.db.users)
    (hsheltered : Sheltered node (.exec index call answer))
    (hturns : FriendsTakeTurns node (.exec index call answer)) :
    Coherent Involves (friendView next) := by
  have hmem := List.mem_of_getElem? hcalls.worker
  cases call with
  | session call =>
      obtain ⟨redis, _, hworld⟩ := Option.map_eq_some_iff.mp heffect
      have hlinks : next.world.db.links = node.world.db.links := by
        rw [← hworld]
      exact hcalls.keep hnode.coherent hlinks rfl rfl rfl rfl
  | sql call =>
      obtain ⟨db, hdb, hworld⟩ := Option.map_eq_some_iff.mp heffect
      cases call with
      | query statement =>
          obtain ⟨hexecuted, hresult⟩ := hsheltered
          have hafter : next.world.db =
              (node.world.db.execStatement statement).1 := by
            rw [← hworld]
            rcases query_of_effect hdb with ⟨_, hdone, _⟩ | ⟨hlost, _⟩
            · exact hdone
            · rw [hexecuted] at hlost
              cases hlost
          have htask := sends_of_faithful
            (hnode.users.faithful thread hmem) hprog
          have hsends := htask
          obtain ⟨made, hmakes, hsends⟩ := hsends
          cases hsends with
          | updateStatus requester responder accepted =>
              cases accepted with
              | true => exact hcalls.accept hnode.coherent hafter hturns
              | false =>
                  have hlinks : next.world.db.links =
                      node.world.db.links := by
                    rw [hafter]
                    exact Database.links_reject (by decide) hturns
                  exact hcalls.keep hnode.coherent hlinks rfl rfl rfl rfl
          | insertRequest sender target message =>
              have hlinks : next.world.db.links =
                  node.world.db.links := by
                rw [hafter]
                exact Database.links_request
              exact hcalls.keep hnode.coherent hlinks rfl rfl rfl rfl
          | insertMirror requester responder =>
              obtain ⟨hfree, hrows⟩ := hturns
              obtain ⟨conn, hrespond⟩ := task_of_mirror htask
              obtain ⟨hrequester, hresponder⟩ := hnode.running thread hmem
                conn requester responder true hrespond
              refine hcalls.mirror hnode.coherent hafter hfree ?_
              rw [hafter]
              exact Database.linked_insertFriendship hresponder hrequester
                hrows
          | deleteFriendships uid friend =>
              exact hcalls.remove hnode.coherent hafter hturns.1 hturns.2
          | selectFriends uid =>
              exact hcalls.fetch hnode.coherent hnode.linked
                (nulFreeRows_of_uids hnode.linked hnul) hafter hresult
          | _ =>
              have hlinks : next.world.db.links = node.world.db.links := by
                rw [hafter]
                exact Database.links_congr
                  (Database.friendships_execStatement id)
              exact hcalls.keep hnode.coherent hlinks rfl rfl rfl rfl
      | _ =>
          have hlinks : next.world.db.links = node.world.db.links := by
            cases hdb
            rw [← hworld]
          exact hcalls.keep hnode.coherent hlinks rfl rfl rfl rfl

theorem coherent_finish {index : Nat} {thread : NodeThread}
    {callback : Option Callback} (hnode : FriendsKept config node)
    (hnul : NulFreeUids node.world.db.users)
    (hthread : node.threads[index]? = some thread)
    (hprog : thread.prog = .ret callback) :
    Coherent Involves (friendView { node with
      server := node.server.queueInLoop config thread.op.request callback
      threads := node.threads.eraseIdx index
      finished := (thread.op, callback) :: node.finished }) := by
  have hmem := List.mem_of_getElem? hthread
  have hfaithful := hnode.users.faithful thread hmem
  have hunfailed := hnode.unfailed thread hmem
  have hsessions :=
    queueInLoop_sessions config node.server thread.op.request callback
  have hloses {Item : Type}
      {told : (call : NodeCall) → call.Answer → Set Item}
      {awaited : Callback → Set Item}
      (hawaited : ∀ done, callback = some done → ∀ item ∈ awaited done,
        ∃ entry ∈ thread.log, item ∈ told entry.1 entry.2) :
      underway told awaited { node with
        server := node.server.queueInLoop config thread.op.request callback
        threads := node.threads.eraseIdx index
        finished := (thread.op, callback) :: node.finished } ⊆
          underway told awaited node := by
    intro item hitem
    rcases underway_finish_subset rfl rfl hitem with hold | ⟨done, hdone, hin⟩
    · exact hold
    · exact .inl ⟨thread, hmem, hawaited done hdone item hin⟩
  refine hnode.coherent.keep rfl ?_ ?_ ?_ ?_ ?_ ?_
  · exact SessionManager.friendPairs_congr (by rw [hsessions])
  · exact subset_underway_finish hthread rfl rfl
      (acceptAwaited_of_accepts hfaithful hprog)
  · exact hloses (completes_of_acceptAwaited hfaithful hprog hunfailed)
  · apply Set.Subset.antisymm
    · exact hloses (removes_of_removeAwaited hfaithful hprog hunfailed)
    · exact subset_underway_finish hthread rfl rfl
        (removeAwaited_of_removes hfaithful hprog)
  · refine hloses (fetches_of_fetchAwaited hfaithful hprog hunfailed ?_)
    intro uid outcome info hlog hresult
    obtain ⟨⟨user, huser, hsame⟩, hinfo⟩ :=
      hnode.users.read thread hmem uid outcome info hlog hresult
    refine ⟨hinfo, ?_⟩
    rw [← hinfo, ← hsame]
    exact hnul user huser
  · intro uid huid
    have honline : (node.server.queueInLoop config thread.op.request
        callback).sessions.isOnline uid = true := huid
    rw [hsessions] at honline
    exact honline

/-! ## Callbacks -/

theorem isOnline_afterCallback {loop now : Nat} {functor : Functor}
    {rest : List Functor} {uid : String}
    (honline : (node.afterCallback loop now functor
      rest).server.sessions.isOnline uid = true) :
    node.server.sessions.isOnline uid = true ∨
      ∃ conn result token, ChatServer.entry functor.callback =
          some (conn, result, token) ∧
        uid = result.userInfo.uid := by
  have hresponds := responds_afterCallback node loop now functor rest
  unfold SessionManager.isOnline at honline ⊢
  rw [hresponds.users] at honline
  cases hentry : ChatServer.entry functor.callback with
  | none =>
      rw [hentry] at honline
      exact .inl honline
  | some login =>
      obtain ⟨conn, result, token⟩ := login
      by_cases huid : uid = result.userInfo.uid
      · exact .inr ⟨conn, result, token, rfl, huid⟩
      · rw [hentry] at honline
        have hupdated : (Function.update node.server.sessions.users
            result.userInfo.uid (some conn) uid).isSome = true := honline
        rw [Function.update_of_ne huid] at hupdated
        exact .inl hupdated

theorem relate_of_entry {callback : Callback} {conn : Conn}
    {result : LoginResult} {token : String}
    (hentry : ChatServer.entry callback = some (conn, result, token))
    (manager : SessionManager) :
    callback.relate manager = result.friends.foldl (fun manager friend =>
        manager.addFriendship result.userInfo.uid friend.uid) manager ∧
      acceptAwaited callback = ∅ ∧ removeAwaited callback = ∅ := by
  cases callback with
  | tokenLogin target login given =>
      simp only [ChatServer.entry] at hentry
      split at hentry
      · rename_i hsuccess
        cases hentry
        exact ⟨if_pos hsuccess, rfl, rfl⟩
      · cases hentry
  | login target login =>
      simp only [ChatServer.entry] at hentry
      split at hentry
      · rename_i hsuccess
        cases hentry
        exact ⟨if_pos hsuccess, rfl, rfl⟩
      · cases hentry
  | _ => cases hentry

theorem coherent_callback {loop now : Nat} {functor : Functor}
    {rest : List Functor} (hnode : FriendsKept config node)
    (hloop : node.server.loops loop = functor :: rest) :
    Coherent Involves
      (friendView (node.afterCallback loop now functor rest)) := by
  have hwaits : functor ∈ node.server.loops loop :=
    hloop ▸ List.mem_cons_self
  have hcached : (friendView (node.afterCallback loop now functor
        rest)).cached =
      (functor.callback.relate node.server.sessions).friendPairs :=
    SessionManager.friendPairs_congr
      (ChatServer.caches_runCallback _ functor.request now
        functor.callback).2
  have hadding : _ ∧ (friendView node).adding ⊆
      acceptAwaited functor.callback ∪
        (friendView (node.afterCallback loop now functor rest)).adding :=
    underway_callback hloop
  have hadded : (friendView (node.afterCallback loop now functor
      rest)).added ⊆ (friendView node).added := (underway_callback hloop).1
  have hremoving : (friendView (node.afterCallback loop now functor
        rest)).removing ⊆ (friendView node).removing ∧
      (friendView node).removing ⊆ removeAwaited functor.callback ∪
        (friendView (node.afterCallback loop now functor rest)).removing :=
    underway_callback hloop
  have hfetched : (friendView (node.afterCallback loop now functor
      rest)).fetched ⊆ (friendView node).fetched :=
    (underway_callback hloop).1
  have hkeepsAdding (hnone : acceptAwaited functor.callback = ∅) :
      (friendView node).adding ⊆ (friendView
        (node.afterCallback loop now functor rest)).adding := by
    intro link hlink
    rcases hadding.2 hlink with hnow | hlater
    · rw [hnone] at hnow
      exact hnow.elim
    · exact hlater
  have hkeepsRemoving (hnone : removeAwaited functor.callback = ∅) :
      (friendView (node.afterCallback loop now functor rest)).removing =
        (friendView node).removing := by
    apply Set.Subset.antisymm hremoving.1
    intro link hlink
    rcases hremoving.2 hlink with hnow | hlater
    · rw [hnone] at hnow
      exact hnow.elim
    · exact hlater
  cases hentry : ChatServer.entry functor.callback with
  | some login =>
      obtain ⟨conn, result, token⟩ := login
      obtain ⟨hrelate, haccept, hremove⟩ :=
        relate_of_entry hentry node.server.sessions
      have hfetch : (result.userInfo.uid, SessionManager.pairsOf
          result.userInfo.uid result.friends) ∈ (friendView node).fetched :=
        .inr ⟨loop, functor, hwaits, conn, result, token, hentry, rfl⟩
      refine hnode.coherent.enter hfetch ?_ ?_ (hkeepsAdding haccept) hadded
        rfl (hkeepsRemoving hremove) hfetched
      · rw [hcached, hrelate]
        exact (SessionManager.befriend_all hnode.symmetric _ _).2
      · intro uid huid
        rcases isOnline_afterCallback huid with hold | hnew
        · exact .inr hold
        · obtain ⟨_, _, _, hsame, rfl⟩ := hnew
          rw [hentry] at hsame
          cases hsame
          exact .inl rfl
  | none =>
      have hentered : (friendView (node.afterCallback loop now functor
          rest)).entered ⊆ (friendView node).entered := by
        intro uid huid
        rcases isOnline_afterCallback huid with hold | hnew
        · exact hold
        · obtain ⟨_, _, _, hsame, _⟩ := hnew
          rw [hentry] at hsame
          cases hsame
      have hkeep
          (hrelate : functor.callback.relate node.server.sessions =
            node.server.sessions)
          (haccept : acceptAwaited functor.callback = ∅)
          (hremove : removeAwaited functor.callback = ∅) :
          Coherent Involves
            (friendView (node.afterCallback loop now functor rest)) := by
        refine hnode.coherent.keep rfl ?_ (hkeepsAdding haccept) hadded
          (hkeepsRemoving hremove) hfetched hentered
        rw [hcached, hrelate]
        rfl
      obtain ⟨request, callback⟩ := functor
      cases callback with
      | tokenLogin conn result token | login conn result =>
          refine hkeep ?_ rfl rfl
          simp only [ChatServer.entry, ite_eq_right_iff, reduceCtorEq,
            imp_false, Bool.not_eq_true] at hentry
          simp [Callback.relate, hentry]
      | friendResponse conn requester responder accepted =>
          cases accepted with
          | false => exact hkeep rfl rfl rfl
          | true =>
              refine hnode.coherent.applyAdd
                (.inr ⟨loop, _, hwaits, rfl⟩) ?_ hadding.2 hadded rfl
                (hkeepsRemoving rfl) hfetched hentered
              rw [hcached]
              exact SessionManager.friendPairs_addFriendship
      | friendRemove conn uid target =>
          refine hnode.coherent.applyRemove
            (.inr ⟨loop, _, hwaits, rfl⟩) ?_ hremoving.2 hremoving.1
            (hkeepsAdding rfl) hadded rfl hfetched hentered
          rw [hcached]
          exact SessionManager.friendPairs_removeFriendship
      | _ => exact hkeep rfl rfl rfl

/-! ## Receptions and disconnections -/

theorem isOnline_eraseUser {manager : SessionManager} {session : Session}
    {uid : String}
    (honline : (manager.eraseUser session).isOnline uid = true) :
    manager.isOnline uid = true := by
  unfold SessionManager.eraseUser at honline
  split at honline
  · exact honline
  · have hupdated : (Function.update manager.users session.uid none
        uid).isSome = true := honline
    by_cases huid : uid = session.uid
    · subst huid
      rw [Function.update_self] at hupdated
      cases hupdated
    · rw [Function.update_of_ne huid] at hupdated
      exact hupdated

theorem isOnline_deauthenticate {manager : SessionManager} {conn : Conn}
    {uid : String}
    (honline : (manager.deauthenticate conn).isOnline uid = true) :
    manager.isOnline uid = true := by
  unfold SessionManager.deauthenticate at honline
  split at honline
  · exact honline
  · exact isOnline_eraseUser honline

theorem isOnline_receive {server : ChatServer} {conn : Conn}
    {envelope : Envelope} {uid : String}
    (honline : (server.receive conn envelope).sessions.isOnline uid = true) :
    server.sessions.isOnline uid = true := by
  unfold SessionManager.isOnline at honline
  rw [(ChatServer.responds_receive server conn envelope).users] at honline
  cases envelope with
  | logoutReq req => exact isOnline_deauthenticate honline
  | _ => exact honline

theorem isOnline_close {server : ChatServer} {conn : Conn} {uid : String}
    (honline : (server.close conn).sessions.isOnline uid = true) :
    server.sessions.isOnline uid = true := by
  have hleft : ((server.sessions.setDisconnected conn).onDisconnection
      conn).isOnline uid = true := honline
  unfold SessionManager.onDisconnection at hleft
  split at hleft
  · exact hleft
  · have hbefore : (server.sessions.setDisconnected conn).isOnline uid =
        true := isOnline_eraseUser hleft
    exact hbefore

/-- Steps that only touch what the friends do not depend on. -/
theorem coherent_frame (config : ServerConfig)
    (hnode : Coherent Involves (friendView node))
    (hdb : next.world.db.friendships = node.world.db.friendships)
    (hthreads : next.threads = node.threads ∨ ∃ item,
      next.threads = node.threads ++ [(system config).begin item])
    (hloops : next.server.loops = node.server.loops)
    (hfriends : next.server.sessions.friendships =
      node.server.sessions.friendships)
    (honline : ∀ uid, next.server.sessions.isOnline uid = true →
      node.server.sessions.isOnline uid = true) :
    Coherent Involves (friendView next) := by
  have hsame {Item : Type}
      {told : (call : NodeCall) → call.Answer → Set Item}
      {awaited : Callback → Set Item} :
      underway told awaited next = underway told awaited node := by
    rcases hthreads with hidle | ⟨item, hbegun⟩
    · exact underway_congr hidle hloops
    · exact underway_start hbegun hloops
  exact hnode.keep (Database.links_congr hdb)
    (SessionManager.friendPairs_congr hfriends) hsame.symm.subset
    hsame.subset hsame hsame.subset honline

/-! ## Steps -/

theorem namesUsers_of_followUp {db : Database} {task : Task}
    (hfollow : task.IsFollowUp) : NamesUsers db task := by
  rintro conn requester responder accepted rfl
  exact hfollow.elim

theorem linked_exec {call : NodeCall} {answer : call.Answer}
    {world : NodeWorld}
    (hlinked : node.world.db.UsersLinked)
    (hgrows : node.world.db.Grows world.db)
    (heffect : node.world.effect call answer = some world) :
    world.db.UsersLinked := by
  cases call with
  | session call =>
      obtain ⟨redis, _, rfl⟩ := Option.map_eq_some_iff.mp heffect
      exact hlinked
  | sql call =>
      obtain ⟨db, hdb, rfl⟩ := Option.map_eq_some_iff.mp heffect
      cases call with
      | query statement =>
          rcases query_of_effect hdb with ⟨_, rfl, _⟩ | ⟨_, _, rfl⟩
          · exact hlinked.execStatement hgrows
          · exact hlinked
      | _ =>
          cases hdb
          exact hlinked

theorem FriendsKept.step (hnode : FriendsKept config node)
    (hstep : step config node action = some next)
    (hnul : NulFreeUids node.world.db.users)
    (hsheltered : Sheltered node action)
    (hturns : FriendsTakeTurns node action) : FriendsKept config next := by
  have husers := hnode.users.step hstep
  have hgrows := database_step hnode.users.faithful hstep
  have hquiet {server : ChatServer}
      (hqueue : server.queue = node.server.queue)
      (hloops : server.loops = node.server.loops)
      (hfriends : server.sessions.friendships =
        node.server.sessions.friendships)
      (honline : ∀ uid, server.sessions.isOnline uid = true →
        node.server.sessions.isOnline uid = true)
      (hread : UsersRead config { node with server := server }) :
      FriendsKept config { node with server := server } :=
    ⟨hread, hnode.linked, hnode.unfailed,
      fun item hitem => hnode.queued item (hqueue ▸ hitem), hnode.running,
      hnode.symmetric.congr hfriends,
      coherent_frame config hnode.coherent rfl (.inl rfl) hloops hfriends
        honline⟩
  cases steps_of_step hstep with
  | receive conn envelope =>
      have hcaches := ChatServer.cachesKept_receive node.server conn envelope
      refine ⟨husers, hnode.linked, hnode.unfailed, ?_, hnode.running,
        hnode.symmetric.congr hcaches.friendships, ?_⟩
      · intro item hitem
        rcases mem_queue_receive hitem with hold | ⟨_, hrequests⟩
        · exact hnode.queued item hold
        · rintro target requester responder accepted htask
          rw [htask] at hrequests
          cases hrequests
          exact ⟨hsheltered.2, hsheltered.1⟩
      · exact coherent_frame config hnode.coherent rfl (.inl rfl)
          (loops_receive _ _ _) hcaches.friendships
          fun uid => isOnline_receive
  | close conn =>
      exact hquiet rfl rfl
        (ChatServer.cachesKept_close node.server conn).friendships
        (fun uid => isOnline_close) husers
  | invalidLength conn => exact hquiet rfl rfl rfl (fun _ => id) husers
  | parseError conn => exact hquiet rfl rfl rfl (fun _ => id) husers
  | start item rest hqueue =>
      have hmem (other : PoolTask) (hother : other ∈ item :: rest) :
          NamesUsers node.world.db other.task :=
        hnode.queued other (hqueue ▸ hother)
      refine ⟨husers, hnode.linked, ?_, ?_, ?_, hnode.symmetric, ?_⟩
      · intro thread hthread entry hentry
        rcases List.mem_append.mp hthread with hold | hnew
        · exact hnode.unfailed thread hold entry hentry
        · rw [List.mem_singleton.mp hnew] at hentry
          cases hentry
      · intro other hother
        exact hmem other (List.mem_cons_of_mem item hother)
      · intro thread hthread
        rcases List.mem_append.mp hthread with hold | hnew
        · exact hnode.running thread hold
        · rw [List.mem_singleton.mp hnew]
          exact hmem item List.mem_cons_self
      · exact coherent_frame config hnode.coherent rfl (.inr ⟨item, rfl⟩)
          rfl rfl fun _ => id
  | @exec index call answer thread world rest hthread hprog heffect =>
      have hmem := List.mem_of_getElem? hthread
      refine ⟨husers, linked_exec hnode.linked hgrows heffect, ?_, ?_, ?_,
        hnode.symmetric, ?_⟩
      · intro other hother entry hentry
        rcases List.mem_or_eq_of_mem_set hother with hold | rfl
        · exact hnode.unfailed other hold entry hentry
        · rcases List.mem_append.mp hentry with hold | hnew
          · exact hnode.unfailed thread hmem entry hold
          · rw [List.mem_singleton.mp hnew]
            exact unfailed_of_sheltered hsheltered
      · intro item hitem
        exact (hnode.queued item hitem).grows hgrows
      · intro other hother
        rcases List.mem_or_eq_of_mem_set hother with hold | rfl
        · exact (hnode.running other hold).grows hgrows
        · exact (hnode.running thread hmem).grows hgrows
      · exact coherent_exec hnode ⟨hthread, ⟨_, rfl⟩, rfl⟩ hprog heffect hnul
          hsheltered hturns
  | @finish index thread callback hthread hprog =>
      have hqueue :=
        queueInLoop_queue config node.server thread.op.request callback
      have hsessions :=
        queueInLoop_sessions config node.server thread.op.request callback
      refine ⟨husers, hnode.linked, ?_, ?_, ?_, ?_,
        coherent_finish hnode hnul hthread hprog⟩
      · intro other hother
        exact hnode.unfailed other (List.mem_of_mem_eraseIdx hother)
      · intro item hitem
        exact hnode.queued item (hqueue ▸ hitem)
      · intro other hother
        exact hnode.running other (List.mem_of_mem_eraseIdx hother)
      · exact hnode.symmetric.congr (by rw [hsessions])
  | callback loop now functor rest hloop =>
      obtain ⟨_, _, tasks, hqueue, hfollow⟩ :=
        afterCallback_frame node loop now functor rest
      refine ⟨husers, hnode.linked, hnode.unfailed, ?_, hnode.running, ?_,
        coherent_callback hnode hloop⟩
      · intro item hitem
        rw [hqueue] at hitem
        rcases List.mem_append.mp hitem with hold | hnew
        · exact hnode.queued item hold
        · obtain ⟨task, htask, rfl⟩ := List.mem_map.mp hnew
          exact namesUsers_of_followUp (hfollow task htask)
      · exact (hnode.symmetric.relate functor.callback).congr
          (ChatServer.caches_runCallback _ functor.request now
            functor.callback).2
  | @disturb event world hdisturb =>
      have hdb : world.db.friendships = node.world.db.friendships ∧
          world.db.users = node.world.db.users := by
        cases event with
        | redis event =>
            obtain ⟨redis, _, rfl⟩ := Option.map_eq_some_iff.mp hdisturb
            exact ⟨rfl, rfl⟩
        | tick clock =>
            cases hdisturb
            exact ⟨rfl, rfl⟩
      refine ⟨husers, ?_, hnode.unfailed, ?_, ?_, hnode.symmetric,
        coherent_frame config hnode.coherent hdb.1 (.inl rfl) rfl rfl
          fun _ => id⟩
      · refine hnode.linked.grows hgrows fun row hrow => .inl ⟨row, ?_, rfl⟩
        rwa [← hdb.1]
      · intro item hitem
        exact (hnode.queued item hitem).grows hgrows
      · intro thread hthread
        exact (hnode.running thread hthread).grows hgrows

/-! ## Whole runs -/

/-- A database whose friendships join registered users, as its foreign keys
demand. -/
structure LinkedDatabase where
  db : Database := {}
  linked : db.UsersLinked

theorem friendsKept_start (stored : LinkedDatabase) (redis : RedisWorld) :
    FriendsKept config { world := { db := stored.db, redis := redis } } := by
  refine ⟨usersRead_start _, stored.linked, ?_, ?_, ?_, ?_, ?_⟩
  · simp
  · simp [ChatServer.initial]
  · simp
  · intro uid friend hfriend
    cases hfriend
  · have hnothing {Item : Type}
        {told : (call : NodeCall) → call.Answer → Set Item}
        {awaited : Callback → Set Item} :
        underway told awaited
          { world := { db := stored.db, redis := redis } } = ∅ :=
      underway_quiescent ⟨rfl, rfl, fun _ => rfl⟩
    constructor
    · rintro link ⟨uid, friend, hfriend, _⟩
      cases hfriend
    · intro uid huid
      cases huid
    · intro fetch hfetch
      exact (hnothing.subset hfetch).elim
    · intro fetch hfetch
      exact (hnothing.subset hfetch).elim
    · intro link hlink
      exact (hnothing.subset hlink).elim
    · intro link hlink
      exact (hnothing.subset hlink).elim

theorem FriendsKept.agree (hnode : FriendsKept config node)
    (hnul : NulFreeUids node.world.db.users) : FriendsAgree node := by
  intro hquiet uid honline friend
  have hagrees : s(uid, friend) ∈ (friendView node).cached ↔
      s(uid, friend) ∈ (friendView node).stored :=
    hnode.coherent.agrees (underway_quiescent hquiet)
      (underway_quiescent hquiet) honline (Sym2.mem_mk_left uid friend)
  have hrows := nulFreeRows_of_uids hnode.linked hnul
  calc friend ∈ node.server.sessions.getFriends uid
      ↔ s(uid, friend) ∈ node.server.sessions.friendPairs :=
        hnode.symmetric.mem_friendPairs.symm
    _ ↔ s(uid, friend) ∈ node.world.db.links := hagrees
    _ ↔ friend ∈ node.world.db.friendUids uid :=
        (hrows.mem_friendUids hnode.linked).symm

/-- Every registered uid is read as it is stored. -/
def UidsReadable (node : ChatNode) : Prop :=
  NulFreeUids node.world.db.users

/-- Actions that are sheltered wherever they happen. -/
def Answered : Action → Prop
  | .receive _ (.friendResp _) => False
  | .exec _ (.sql .getConnection) conn => conn = true
  | .exec _ (.sql (.query _)) outcome => outcome.result.isSome = true
  | _ => True

theorem sheltered_of_answered
    (hstep : step config node action = some next)
    (hanswered : Answered action) : Sheltered node action := by
  cases steps_of_step hstep with
  | receive conn envelope =>
      cases envelope with
      | friendResp req => exact hanswered.elim
      | _ => trivial
  | @exec index call answer thread world rest hthread hprog heffect =>
      cases call with
      | session call => trivial
      | sql call =>
          cases call with
          | query statement =>
              obtain ⟨db, hdb, _⟩ := Option.map_eq_some_iff.mp heffect
              obtain ⟨result, hresult⟩ :=
                Option.isSome_iff_exists.mp hanswered
              obtain ⟨hexecuted, _, hsame⟩ := executed_of_result hdb hresult
              exact ⟨hexecuted, hresult.trans hsame.symm⟩
          | getConnection => exact hanswered
          | _ => trivial
  | _ => trivial

theorem eachStep_of_answered {start : ChatNode} {actions : List Action}
    (hanswered : ∀ action ∈ actions, Answered action) :
    Runs.EachStep (step config) Sheltered start actions := by
  intro before action state next hinit _ hstep
  refine sheltered_of_answered hstep (hanswered action ?_)
  exact hinit.subset (List.mem_append_right _ List.mem_cons_self)

theorem mem_users_execStatement {db : Database} {statement : Statement}
    {user : UserInfo}
    (huser : user ∈ (db.execStatement statement).1.users) :
    user ∈ db.users ∨ ∃ nickname email passwd,
      statement = .insertUser user.uid nickname email passwd := by
  cases statement with
  | insertUser uid nickname email passwd =>
      simp only [Database.execStatement] at huser
      split at huser
      · exact .inl huser
      · rcases KeyedTable.mem_insertIgnore.mp huser with hold | ⟨-, rfl⟩
        · exact .inl hold
        · exact .inr ⟨nickname, email, passwd, rfl⟩
  | insertIgnoreFriendship | insertMessage | insertOfflineMessage
  | insertRoom | insertIgnoreRoomMember =>
      simp only [Database.execStatement] at huser
      split at huser <;> exact .inl huser
  | insertSession =>
      simp only [Database.execStatement] at huser
      split at huser
      · exact .inl huser
      · split at huser <;> exact .inl huser
  | _ => exact .inl huser

/-- Actions that register no uid with a NUL. -/
def RegistersNulFree : Action → Prop
  | .exec _ (.sql (.query (.insertUser uid _ _ _))) _ => NulFree uid
  | _ => True

theorem UidsReadable.step (hnode : UidsReadable node)
    (hstep : step config node action = some next)
    (haction : RegistersNulFree action) : UidsReadable next := by
  cases steps_of_step hstep with
  | exec hthread hprog heffect =>
      rename_i call answer _ _ _
      cases call with
      | session call =>
          obtain ⟨redis, _, rfl⟩ := Option.map_eq_some_iff.mp heffect
          exact hnode
      | sql call =>
          obtain ⟨db, hdb, rfl⟩ := Option.map_eq_some_iff.mp heffect
          cases call with
          | query statement =>
              rcases query_of_effect hdb with ⟨_, rfl, _⟩ | ⟨_, _, rfl⟩
              · intro user huser
                rcases mem_users_execStatement huser with
                  hold | ⟨_, _, _, rfl⟩
                · exact hnode user hold
                · exact haction
              · exact hnode
          | _ =>
              cases hdb
              exact hnode
  | disturb hdisturb =>
      rename_i event _
      cases event with
      | redis event =>
          obtain ⟨redis, _, rfl⟩ := Option.map_eq_some_iff.mp hdisturb
          exact hnode
      | tick clock =>
          cases hdisturb
          exact hnode
  | _ => exact hnode

theorem always_uidsReadable {world : NodeWorld} {actions : List Action}
    (hstart : NulFreeUids world.db.users)
    (hactions : ∀ action ∈ actions, RegistersNulFree action) :
    Runs.Always (step config) UidsReadable { world := world } actions := by
  have hfirst : UidsReadable { world := world } := hstart
  exact Runs.always_of_eachStep hfirst
    (fun _ _ _ hstep hnode haction => UidsReadable.step hnode hstep haction)
    (Runs.eachStep_of_forall fun action haction _ => hactions action haction)

def annAndBob : Database where
  users := (KeyedTable.empty.insertIgnore { uid := "ann" }).insertIgnore
    { uid := "bob" }
  credentials := (KeyedTable.empty.insertIgnore
    ⟨"ann", "secret"⟩).insertIgnore ⟨"bob", "hidden"⟩
  friendships := KeyedTable.empty.insertIgnore ⟨"ann", "bob", 1⟩

def friendsStored : LinkedDatabase where
  db := annAndBob
  linked := by
    intro row hrow
    cases List.mem_singleton.mp hrow
    exact ⟨⟨{ uid := "ann" }, .head _, rfl⟩,
      ⟨{ uid := "bob" }, .tail _ (.head _), rfl⟩⟩

def removeCalls (index : Nat) (conn : Conn) (uid target : String) :
    List Action :=
  [.receive conn (.friendRemove { targetUid := target }), .start] ++
    queryOf index (.deleteFriendships uid target) () ++ [.finish index]

theorem answered_queryOf (index : Nat) (statement : Statement)
    (result : statement.Result) :
    ∀ action ∈ queryOf index statement result, Answered action :=
  forall_mem_queryOf rfl trivial rfl

theorem answered_loginCalls (index : Nat) (uid passwd token : String) :
    ∀ action ∈ loginCalls index uid passwd token, Answered action :=
  forall_mem_loginCalls rfl trivial rfl rfl rfl trivial trivial trivial
    fun _ => trivial

theorem answered_quietLogin (conn : Conn) (uid passwd token : String)
    (friends : List UserInfo) :
    ∀ action ∈ quietLogin config conn uid passwd token friends,
      Answered action :=
  forall_mem_quietLogin trivial trivial
    (answered_loginCalls 0 uid passwd token)
    (forall_mem_collectCalls rfl trivial rfl rfl rfl) trivial trivial

theorem answered_removeCalls (index : Nat) (conn : Conn)
    (uid target : String) :
    ∀ action ∈ removeCalls index conn uid target, Answered action := by
  simp only [removeCalls, List.forall_mem_append, List.forall_mem_cons]
  exact ⟨⟨⟨trivial, trivial, List.forall_mem_nil _⟩,
    answered_queryOf index _ _⟩, trivial, List.forall_mem_nil _⟩

/-- Actions that take their turn wherever they happen. -/
def Unwritten : Action → Prop
  | .exec _ (.sql (.query (.updateFriendshipStatus ..))) _ => False
  | .exec _ (.sql (.query (.insertIgnoreFriendship ..))) _ => False
  | .exec _ (.sql (.query (.deleteFriendships ..))) _ => False
  | _ => True

theorem unwritten_quietLogin (conn : Conn) (uid passwd token : String)
    (friends : List UserInfo) :
    ∀ action ∈ quietLogin config conn uid passwd token friends,
      Unwritten action :=
  forall_mem_quietLogin trivial trivial
    (forall_mem_loginCalls trivial trivial trivial trivial trivial trivial
      trivial trivial fun _ => trivial)
    (forall_mem_collectCalls trivial trivial trivial trivial trivial)
    trivial trivial

theorem eachStep_of_unwritten {start : ChatNode} {actions : List Action}
    (hunwritten : ∀ action ∈ actions, Unwritten action) :
    Runs.EachStep (step config) FriendsTakeTurns start actions := by
  refine Runs.eachStep_of_forall fun action haction state => ?_
  have hfree := hunwritten action haction
  revert hfree
  unfold FriendsTakeTurns
  split
  · exact False.elim
  · exact False.elim
  · exact False.elim
  · exact fun _ => trivial

theorem registersNulFree_quietLogin (conn : Conn)
    (uid passwd token : String) (friends : List UserInfo) :
    ∀ action ∈ quietLogin config conn uid passwd token friends,
      RegistersNulFree action :=
  forall_mem_quietLogin trivial trivial
    (forall_mem_loginCalls trivial trivial trivial trivial trivial trivial
      trivial trivial fun _ => trivial)
    (forall_mem_collectCalls trivial trivial trivial trivial trivial)
    trivial trivial

def removeAfterLogin : List Action :=
  quietLogin twoWorkers 0 "ann" "secret" "t" [{ uid := "bob" }] ++
    removeCalls 0 0 "ann" "bob" ++ [.callback 0 0]

theorem takeTurns_removeAfterLogin :
    Runs.EachStep (step twoWorkers) FriendsTakeTurns
      { world := { db := friendsStored.db } } removeAfterLogin := by
  let before : List Action :=
    quietLogin twoWorkers 0 "ann" "secret" "t" [{ uid := "bob" }] ++
      (removeCalls 0 0 "ann" "bob").take 3
  let after : List Action :=
    (removeCalls 0 0 "ann" "bob").drop 4 ++ [.callback 0 0]
  have hrun : ∃ middle next thread,
      Runs.runFrom (step twoWorkers) { world := { db := friendsStored.db } }
        before = some middle ∧
      step twoWorkers middle (.exec 0
        (.sql (.query (.deleteFriendships "ann" "bob"))) ⟨true, some ()⟩) =
          some next ∧
      middle.threads = [thread] ∧
      thread.log = [⟨.sql .getConnection, true⟩] ∧
      ∀ loop, middle.server.loops loop = [] := by
    refine ⟨_, _, _, rfl, rfl, rfl, rfl, ?_⟩
    intro loop
    cases loop <;> rfl
  obtain ⟨middle, next, thread, hmiddle, hnext, hthreads, hlog, hloops⟩ :=
    hrun
  have hnothing {Item : Type}
      {told : (call : NodeCall) → call.Answer → Set Item}
      {awaited : Callback → Set Item}
      (htold : told (.sql .getConnection) true = ∅) :
      underway told awaited middle = ∅ := by
    rw [Set.eq_empty_iff_forall_notMem]
    rintro item (⟨other, hother, entry, hentry, hitem⟩ |
      ⟨loop, functor, hin, _⟩)
    · rw [hthreads] at hother
      rw [List.mem_singleton.mp hother, hlog] at hentry
      rw [List.mem_singleton.mp hentry, htold] at hitem
      exact hitem
    · rw [hloops loop] at hin
      cases hin
  have hbefore : ∀ action ∈ before, Unwritten action := by
    refine List.forall_mem_append.mpr
      ⟨unwritten_quietLogin 0 "ann" "secret" "t" _, ?_⟩
    simp [removeCalls, queryOf, Unwritten]
  have hafter : ∀ action ∈ after, Unwritten action := by
    simp [after, removeCalls, queryOf, Unwritten]
  have hall : Runs.EachStep (step twoWorkers) FriendsTakeTurns
      { world := { db := friendsStored.db } }
      (before ++ .exec 0
        (.sql (.query (.deleteFriendships "ann" "bob"))) ⟨true, some ()⟩ ::
          after) := by
    refine Runs.EachStep.append (eachStep_of_unwritten hbefore) ?_
    intro state hstate
    rw [hmiddle] at hstate
    cases hstate
    refine Runs.EachStep.cons hnext ⟨?_, ?_⟩
      (eachStep_of_unwritten hafter)
    · intro hadding
      exact (hnothing rfl).subset hadding
    · intro fetch hfetch
      exact ((hnothing rfl).subset hfetch).elim
  exact hall

/-- The second user removes the first one, who is logging in and has read the
friend list. -/
def removeDuringLogin : List Action :=
  quietLogin twoWorkers 1 "bob" "hidden" "u" [{ uid := "ann" }] ++
    [.receive 0 (.loginReq { uid := "ann", passwd := "secret" }), .start] ++
    loginCalls 0 "ann" "secret" "t" ++
    queryOf 0 (.selectFriends "ann") [{ uid := "bob" }] ++
    removeCalls 1 1 "bob" "ann" ++ [.callback 0 0] ++
    queryOf 0 (.selectPendingRequesters "ann") [] ++
    queryOf 0 (.selectUndelivered "ann") [] ++ [.finish 0, .callback 0 0]

end ChatNode

end MuduoChat
