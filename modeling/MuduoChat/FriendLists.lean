import MuduoChat.FriendLinks

/-!
# The friend lists of two users

A call of `MySQLFriendRepo` names two users and touches no row of any other
pair.  Friendship is read from the accepted rows of a pair in either
direction, so the lists of two users agree about each other, and once the rows
of a pair are deleted both lists stay silent until one of the two asks or
answers again.

The lists hold the uids as they are read.  Two uids that agree up to a NUL are
one name in every list, so all this needs uids without one.
-/

namespace MuduoChat

/-- The call asks or answers between these two. -/
def FriendOp.Renews (uid₁ uid₂ : String) : FriendOp → Prop
  | .addFriendRequest sender target _ => s(sender, target) = s(uid₁, uid₂)
  | .respondFriendRequest requester responder _ =>
      s(requester, responder) = s(uid₁, uid₂)
  | .removeFriends .. => False

namespace Database

/-- The uids `getPendingRequests` returns. -/
def pendingUids (db : Database) (uid : String) : List String :=
  (Prog.run exec db (MySQLFriendRepo.getPendingRequests uid)).2

def friendList (db : Database) (uid : String) : List UserInfo :=
  (Prog.run exec db (MySQLFriendRepo.getFriendList uid)).2

/-- Neither of the two is in a list of the other. -/
def Strangers (db : Database) (uid₁ uid₂ : String) : Prop :=
  uid₂ ∉ db.friendUids uid₁ ∧ uid₁ ∉ db.friendUids uid₂ ∧
    uid₂ ∉ db.pendingUids uid₁ ∧ uid₁ ∉ db.pendingUids uid₂

/-- Two databases whose lists agree about every other pair. -/
def SameListsOff (db after : Database) (pair : Sym2 String) : Prop :=
  (∀ uid info, s(uid, info.uid) ≠ pair →
      (info ∈ after.friendList uid ↔ info ∈ db.friendList uid)) ∧
    ∀ uid requester, s(uid, requester) ≠ pair →
      (requester ∈ after.pendingUids uid ↔ requester ∈ db.pendingUids uid)

variable {db middle after : Database} {uid friend requester responder : String}
  {pair : Sym2 String}

theorem mem_friendList {info : UserInfo} :
    info ∈ db.friendList uid ↔
      ∃ user, (user ∈ db.users ∧ s(uid, user.uid) ∈ db.links) ∧
        user.ofRow = info := by
  unfold friendList
  rw [FriendHistory.getFriendList_eq, List.mem_map]
  exact exists_congr fun user => and_congr_left fun _ => mem_selectFriends

theorem mem_pendingUids :
    requester ∈ db.pendingUids uid ↔
      ∃ other, ⟨other, uid, 0⟩ ∈ db.friendships ∧
        cstr other = requester := by
  have hlist : db.pendingUids uid =
      ((db.friendships.rows.filter fun row =>
        row.targetUid = uid && row.status = 0).map
          FriendshipRow.requesterUid).map cstr := by
    simp [pendingUids, MySQLFriendRepo.getPendingRequests, exec,
      execStatement]
  rw [hlist, List.mem_map]
  refine exists_congr fun other => and_congr_left fun _ => ?_
  rw [List.mem_map]
  constructor
  · rintro ⟨⟨asking, asked, status⟩, hrow, rfl⟩
    obtain ⟨hmem, hselected⟩ := List.mem_filter.mp hrow
    simp only [Bool.and_eq_true, decide_eq_true_eq] at hselected
    obtain ⟨rfl, rfl⟩ := hselected
    exact hmem
  · intro hrow
    exact ⟨_, List.mem_filter.mpr ⟨hrow, by simp⟩, rfl⟩

theorem NulFreeRows.mem_pendingUids (hnul : db.NulFreeRows) :
    requester ∈ db.pendingUids uid ↔
      ⟨requester, uid, 0⟩ ∈ db.friendships := by
  rw [Database.mem_pendingUids]
  constructor
  · rintro ⟨other, hrow, rfl⟩
    rwa [NulFree.cstr (hnul _ hrow).1]
  · intro hrow
    exact ⟨requester, hrow, NulFree.cstr (hnul _ hrow).1⟩

theorem nulFree_of_mem_friendUids (hfriend : friend ∈ db.friendUids uid) :
    NulFree friend := by
  rw [friendUids_eq] at hfriend
  obtain ⟨other, -, rfl⟩ := List.mem_map.mp hfriend
  exact nulFree_cstr other

theorem NulFreeRows.nodup_friendUids (hnul : db.NulFreeRows) :
    (db.friendUids uid).Nodup := by
  have hkeys : ((db.selectFriends uid).map UserInfo.uid).Nodup := by
    have hnodup : (db.selectFriends uid).Nodup := List.nodup_dedup _
    refine hnodup.map_on ?_
    intro first hfirst second hsecond hsame
    exact KeyedTable.eq_of_key_eq (mem_selectFriends.mp hfirst).1
      (mem_selectFriends.mp hsecond).1 hsame
  have hread : ∀ other ∈ (db.selectFriends uid).map UserInfo.uid,
      cstr other = other := by
    intro other hother
    obtain ⟨info, hinfo, rfl⟩ := List.mem_map.mp hother
    exact (hnul.of_link (mem_selectFriends.mp hinfo).2).2.cstr
  rw [friendUids_eq, List.map_congr_left hread, List.map_id']
  exact hkeys

/-! ## The rows of other pairs -/

/-- Only the friendships of one pair may have changed. -/
structure ChangesOnly (db after : Database) (pair : Sym2 String) : Prop where
  users : after.users = db.users
  rows : ∀ row : FriendshipRow, s(row.requesterUid, row.targetUid) ≠ pair →
    (row ∈ after.friendships ↔ row ∈ db.friendships)

theorem ChangesOnly.trans (hfirst : db.ChangesOnly middle pair)
    (hsecond : middle.ChangesOnly after pair) :
    db.ChangesOnly after pair where
  users := hsecond.users.trans hfirst.users
  rows := fun row hrow => (hsecond.rows row hrow).trans (hfirst.rows row hrow)

theorem changesOnly_insert (requester responder : String)
    (status : Nat) :
    db.ChangesOnly (db.execStatement (.insertIgnoreFriendship requester
      responder status)).1 s(requester, responder) where
  users := by
    simp only [execStatement]
    split <;> rfl
  rows := by
    intro row hrow
    rw [mem_insertFriendship]
    constructor
    · rintro (hold | ⟨rfl, _⟩)
      · exact hold
      · exact (hrow rfl).elim
    · exact .inl

theorem changesOnly_update (requester responder : String)
    (status : Nat) :
    db.ChangesOnly (db.execStatement (.updateFriendshipStatus status requester
      responder)).1 s(requester, responder) where
  users := rfl
  rows := by
    intro row hrow
    rw [mem_updateStatus]
    constructor
    · rintro (⟨hold, _⟩ | ⟨rfl, _⟩)
      · exact hold
      · exact (hrow rfl).elim
    · intro hold
      refine .inl ⟨hold, ?_⟩
      rintro ⟨rfl, rfl⟩
      exact hrow rfl

theorem changesOnly_delete (requester responder : String) :
    db.ChangesOnly (db.execStatement (.deleteFriendships requester
      responder)).1 s(requester, responder) where
  users := rfl
  rows := by
    intro row hrow
    rw [mem_deleteFriendships]
    exact and_iff_left hrow

/-- What holds of all uids in the table and of the pair holds afterwards. -/
theorem ChangesOnly.forall_uids {good : String → Prop}
    (hchanges : db.ChangesOnly after s(requester, responder))
    (hdb : ∀ row ∈ db.friendships,
      good row.requesterUid ∧ good row.targetUid)
    (hrequester : good requester) (hresponder : good responder) :
    ∀ row ∈ after.friendships,
      good row.requesterUid ∧ good row.targetUid := by
  intro row hrow
  by_cases hpair : s(row.requesterUid, row.targetUid) =
      s(requester, responder)
  · rcases Sym2.eq_iff.mp hpair with ⟨hfirst, hsecond⟩ | ⟨hfirst, hsecond⟩
    · rw [hfirst, hsecond]
      exact ⟨hrequester, hresponder⟩
    · rw [hfirst, hsecond]
      exact ⟨hresponder, hrequester⟩
  · exact hdb row ((hchanges.rows row hpair).mp hrow)

theorem UsersLinked.changesOnly (hdb : db.UsersLinked)
    (hchanges : db.ChangesOnly after s(requester, responder))
    (hrequester : db.Registered requester)
    (hresponder : db.Registered responder) : after.UsersLinked := by
  intro row hrow
  unfold Registered
  rw [hchanges.users]
  exact hchanges.forall_uids hdb hrequester hresponder row hrow

theorem ChangesOnly.mem_links {link : Sym2 String}
    (hchanges : db.ChangesOnly after pair) (hlink : link ≠ pair) :
    link ∈ after.links ↔ link ∈ db.links := by
  constructor
  · rintro ⟨row, hrow, hstatus, rfl⟩
    exact ⟨row, (hchanges.rows row hlink).mp hrow, hstatus, rfl⟩
  · rintro ⟨row, hrow, hstatus, rfl⟩
    exact ⟨row, (hchanges.rows row hlink).mpr hrow, hstatus, rfl⟩

theorem ChangesOnly.sameListsOff (hchanges : db.ChangesOnly after pair)
    (hdb : db.NulFreeRows) (hafter : after.NulFreeRows) :
    db.SameListsOff after pair := by
  refine ⟨?_, ?_⟩
  · intro uid info hother
    rw [mem_friendList, mem_friendList, hchanges.users]
    constructor
    · rintro ⟨user, ⟨huser, hlink⟩, rfl⟩
      have huid : user.ofRow.uid = user.uid := (hafter.of_link hlink).2.cstr
      rw [huid] at hother
      exact ⟨user, ⟨huser, (hchanges.mem_links hother).mp hlink⟩, rfl⟩
    · rintro ⟨user, ⟨huser, hlink⟩, rfl⟩
      have huid : user.ofRow.uid = user.uid := (hdb.of_link hlink).2.cstr
      rw [huid] at hother
      exact ⟨user, ⟨huser, (hchanges.mem_links hother).mpr hlink⟩, rfl⟩
  · intro uid requester hother
    have hother' : s(requester, uid) ≠ pair := by
      rw [Sym2.eq_swap]
      exact hother
    rw [hafter.mem_pendingUids, hdb.mem_pendingUids, hchanges.rows _ hother']

theorem strangers_of_noRow (hdb : db.UsersLinked) (hnul : db.NulFreeRows)
    (hnone : ∀ row ∈ db.friendships,
      s(row.requesterUid, row.targetUid) ≠ s(uid, friend)) :
    db.Strangers uid friend := by
  have hunlinked : s(uid, friend) ∉ db.links := by
    rintro ⟨row, hrow, _, hpair⟩
    exact hnone row hrow hpair.symm
  refine ⟨?_, ?_, ?_, ?_⟩
  · rw [hnul.mem_friendUids hdb]
    exact hunlinked
  · rw [hnul.mem_friendUids hdb, Sym2.eq_swap]
    exact hunlinked
  · intro hpending
    exact hnone _ (hnul.mem_pendingUids.mp hpending) Sym2.eq_swap
  · intro hpending
    exact hnone _ (hnul.mem_pendingUids.mp hpending) rfl

theorem NulFreeRows.changesOnly (hdb : db.NulFreeRows)
    (hchanges : db.ChangesOnly after s(requester, responder))
    (hrequester : NulFree requester) (hresponder : NulFree responder) :
    after.NulFreeRows :=
  hchanges.forall_uids hdb hrequester hresponder

end Database

/-! ## Histories -/

namespace FriendHistory

variable {history next : FriendHistory} {op : FriendOp} {ops : List FriendOp}
  {uid₁ uid₂ : String}

def pair (op : FriendOp) : Sym2 String := s(op.uids.1, op.uids.2)

theorem step_changesOnly (hstep : history.step op = some next) :
    history.db.ChangesOnly next.db (pair op) := by
  obtain ⟨_, rfl⟩ := step_eq_some hstep
  cases op with
  | addFriendRequest sender target message =>
      exact Database.changesOnly_insert sender target 0
  | respondFriendRequest requester responder accepted =>
      cases accepted with
      | false => exact Database.changesOnly_update requester responder 2
      | true =>
          have hmirror (db : Database) := db.changesOnly_insert responder
            requester 1
          rw [Sym2.eq_swap] at hmirror
          exact (Database.changesOnly_update requester responder 1).trans
            (hmirror _)
  | removeFriends uid₁ uid₂ => exact Database.changesOnly_delete uid₁ uid₂

theorem step_usersLinked (hlinked : history.db.UsersLinked)
    (hstep : history.step op = some next) : next.db.UsersLinked := by
  obtain ⟨⟨hfirst, hsecond⟩, _⟩ := step_eq_some hstep
  exact hlinked.changesOnly (step_changesOnly hstep) hfirst hsecond

/-- No row joins the two. -/
def Cleared (history : FriendHistory) (uid₁ uid₂ : String) : Prop :=
  ∀ row ∈ history.db.friendships,
    s(row.requesterUid, row.targetUid) ≠ s(uid₁, uid₂)

theorem cleared_of_remove
    (hstep : history.step (.removeFriends uid₁ uid₂) = some next) :
    next.Cleared uid₁ uid₂ := by
  obtain ⟨_, rfl⟩ := step_eq_some hstep
  intro row hrow
  exact (Database.mem_deleteFriendships.mp hrow).2

theorem Cleared.step (hcleared : history.Cleared uid₁ uid₂)
    (hstep : history.step op = some next) (hop : ¬ op.Renews uid₁ uid₂) :
    next.Cleared uid₁ uid₂ := by
  have hother (hpair : pair op ≠ s(uid₁, uid₂)) :
      next.Cleared uid₁ uid₂ := by
    intro row hrow hsame
    have hold : row ∈ history.db.friendships :=
      ((step_changesOnly hstep).rows row (hsame ▸ hpair.symm)).mp hrow
    exact hcleared row hold hsame
  cases op with
  | addFriendRequest sender target message => exact hother hop
  | respondFriendRequest requester responder accepted => exact hother hop
  | removeFriends first second =>
      by_cases hpair : s(first, second) = s(uid₁, uid₂)
      · intro row hrow
        rw [← hpair]
        exact cleared_of_remove hstep row hrow
      · exact hother hpair

theorem Cleared.run (hcleared : history.Cleared uid₁ uid₂)
    (hrun : Runs.runFrom FriendHistory.step history ops = some next)
    (hops : ∀ op ∈ ops, ¬ op.Renews uid₁ uid₂) :
    next.Cleared uid₁ uid₂ := by
  induction ops generalizing history with
  | nil => exact Option.some.inj hrun ▸ hcleared
  | cons op rest ih =>
      obtain ⟨middle, hstep, hrest⟩ := Option.bind_eq_some_iff.mp hrun
      have hmiddle := hcleared.step hstep (hops op List.mem_cons_self)
      exact ih hmiddle hrest fun later hlater =>
        hops later (List.mem_cons_of_mem op hlater)

theorem run_usersLinked (users : KeyedTable UserInfo.uid)
    (hrun : Runs.runFrom step (start users) ops = some history) :
    history.db.UsersLinked := by
  refine @Runs.invariant_of_run _ _ step
    (fun history => history.db.UsersLinked) _ _ _ ?_ ?_ hrun
  · intro row hrow
    exact absurd hrow KeyedTable.not_mem_empty
  · intro history op next hstep hlinked
    exact step_usersLinked hlinked hstep

/-- The lists of a sequence of calls: they are symmetric and free of
duplicates, a removed pair stays out of both until it asks or answers again,
and no call touches an entry of another pair. -/
structure ListsExact (users : KeyedTable UserInfo.uid) (ops : List FriendOp)
    (history : FriendHistory) : Prop where
  symmetric : ∀ uid friend, friend ∈ history.db.friendUids uid ↔
    uid ∈ history.db.friendUids friend
  nodup : ∀ uid, (history.db.friendUids uid).Nodup
  removed : ∀ before uid₁ uid₂ later,
    ops = before ++ .removeFriends uid₁ uid₂ :: later →
      (∀ op ∈ later, ¬ op.Renews uid₁ uid₂) →
        history.db.Strangers uid₁ uid₂
  others : ∀ before op later middle next, ops = before ++ op :: later →
    Runs.runFrom step (start users) before = some middle →
      middle.step op = some next →
        middle.db.SameListsOff next.db s(op.uids.1, op.uids.2)

/-- The calls name uids that come back as they were stored. -/
def NamesNulFree (ops : List FriendOp) : Prop :=
  ∀ op ∈ ops, NulFree op.uids.1 ∧ NulFree op.uids.2

theorem run_nulFreeRows (users : KeyedTable UserInfo.uid)
    (hnames : NamesNulFree ops)
    (hrun : Runs.runFrom step (start users) ops = some history) :
    history.db.NulFreeRows := by
  have halways : Runs.Always step (fun history => history.db.NulFreeRows)
      (start users) ops := by
    refine Runs.always_of_eachStep ?_ ?_ (Runs.eachStep_of_forall
      fun op hop _ => hnames op hop)
    · intro row hrow
      exact absurd hrow KeyedTable.not_mem_empty
    · rintro history op next hstep hnul ⟨hfirst, hsecond⟩
      exact hnul.changesOnly (step_changesOnly hstep) hfirst hsecond
  exact halways ops history (List.prefix_refl ops) hrun

theorem listsExact_of_namesNulFree (users : KeyedTable UserInfo.uid)
    (hnames : NamesNulFree ops)
    (hrun : Runs.runFrom step (start users) ops = some history) :
    ListsExact users ops history := by
  have hlinked := run_usersLinked users hrun
  have hnul := run_nulFreeRows users hnames hrun
  constructor
  · intro uid friend
    rw [hnul.mem_friendUids hlinked, hnul.mem_friendUids hlinked,
      Sym2.eq_swap]
  · intro uid
    exact hnul.nodup_friendUids
  · rintro before uid₁ uid₂ later rfl hlater
    rw [Runs.runFrom_append] at hrun
    obtain ⟨middle, _, hafter⟩ := Option.bind_eq_some_iff.mp hrun
    obtain ⟨removed, hstep, hrest⟩ := Option.bind_eq_some_iff.mp hafter
    have hremoved : removed.Cleared uid₁ uid₂ := cleared_of_remove hstep
    have hcleared := hremoved.run hrest hlater
    exact Database.strangers_of_noRow hlinked hnul hcleared
  · rintro before op later middle next rfl hbefore hstep
    have hmiddle := run_nulFreeRows users
      (fun other hother => hnames other (List.mem_append_left _ hother))
      hbefore
    obtain ⟨hfirst, hsecond⟩ := hnames op (by simp)
    have hchanges := step_changesOnly hstep
    exact hchanges.sameListsOff hmiddle
      (hmiddle.changesOnly hchanges hfirst hsecond)

theorem run_registered {start : FriendHistory}
    (hrun : Runs.runFrom step start ops = some history) :
    ∀ op ∈ ops, start.db.Registered op.uids.1 ∧
      start.db.Registered op.uids.2 := by
  induction ops generalizing start with
  | nil => exact List.forall_mem_nil _
  | cons op rest ih =>
      obtain ⟨middle, hstep, hrest⟩ := Option.bind_eq_some_iff.mp hrun
      refine List.forall_mem_cons.mpr ⟨(step_eq_some hstep).1, ?_⟩
      have hlater := ih hrest
      unfold Database.Registered at hlater ⊢
      rwa [step_users hstep] at hlater

/-- A friend of a user whose uid has a NUL does not find the user in any
list. -/
theorem selfFriend_asymmetric {users : KeyedTable UserInfo.uid}
    {user : UserInfo} (huser : user ∈ users) (hnul : ¬ NulFree user.uid) :
    ∃ ops history, Runs.runFrom step (start users) ops = some history ∧
      ¬ ListsExact users ops history := by
  obtain ⟨asked, friends, hasked, hfriends, -, hrow⟩ :=
    @run_selfFriend users user.uid ⟨user, huser, rfl⟩
  have hrun : Runs.runFrom step (start users)
      [.addFriendRequest user.uid user.uid "",
        .respondFriendRequest user.uid user.uid true] = some friends := by
    simp [hasked, hfriends]
  refine ⟨_, friends, hrun, fun hexact => hnul ?_⟩
  have hlink : s(user.uid, user.uid) ∈ friends.db.links :=
    Database.mem_links.mpr (.inl hrow)
  have hfriend : cstr user.uid ∈ friends.db.friendUids user.uid :=
    (Database.mem_friendUids (run_usersLinked users hrun)).mpr
      ⟨user.uid, hlink, rfl⟩
  exact Database.nulFree_of_mem_friendUids
    ((hexact.symmetric _ _).mp hfriend)

/-- The lists are exact after all calls that name uids without a NUL, and
after all calls whatsoever precisely when every registered uid is such. -/
theorem friend_lists_exact_iff (users : KeyedTable UserInfo.uid) :
    (∀ ops history, NamesNulFree ops →
      Runs.runFrom step (start users) ops = some history →
        ListsExact users ops history) ∧
    ((∀ ops history, Runs.runFrom step (start users) ops = some history →
        ListsExact users ops history) ↔
      NulFreeUids users) := by
  refine ⟨fun ops history => listsExact_of_namesNulFree users, ?_, ?_⟩
  · intro hexact user huser
    by_contra hnul
    obtain ⟨ops, history, hrun, hbroken⟩ := selfFriend_asymmetric huser hnul
    exact hbroken (hexact ops history hrun)
  · intro hnul ops history hrun
    refine listsExact_of_namesNulFree users ?_ hrun
    have hfree {uid : String} (huid : (start users).db.Registered uid) :
        NulFree uid := by
      obtain ⟨user, huser, rfl⟩ := huid
      exact hnul user huser
    intro op hop
    obtain ⟨hfirst, hsecond⟩ := run_registered hrun op hop
    exact ⟨hfree hfirst, hfree hsecond⟩

/-- Alice and a user whose uid has a NUL are friends.  She reads another name
in her list, and nobody of that name has her in theirs. -/
theorem friend_lists_exact_fails_nul :
    ∃ history, Runs.runFrom step
        (start ⟨[{ uid := "alice" }, { uid := "bob\x00by" }], by decide⟩)
        [.addFriendRequest "alice" "bob\x00by" "hi",
          .respondFriendRequest "alice" "bob\x00by" true] = some history ∧
      "bob" ∈ history.db.friendUids "alice" ∧
      "alice" ∉ history.db.friendUids "bob" := by
  refine ⟨_, rfl, ?_, ?_⟩
  · decide
  · decide

end FriendHistory

end MuduoChat
