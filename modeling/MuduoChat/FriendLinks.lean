import MuduoChat.FriendConsent
import MuduoChat.NodeUsers
import Mathlib.Data.Sym.Sym2

/-!
# Friends in the database

Two users are linked when an accepted row joins them, whichever of them asked.
What the statements of `MySQLFriendRepo` do to the links, and which of them do
nothing.
-/

namespace MuduoChat

namespace Database

/-- The pairs that an accepted row joins. -/
def links (db : Database) : Set (Sym2 String) :=
  { link | ∃ row ∈ db.friendships, row.status = 1 ∧
    link = s(row.requesterUid, row.targetUid) }

/-- The foreign keys of the friendships. -/
def UsersLinked (db : Database) : Prop :=
  ∀ row ∈ db.friendships, db.Registered row.requesterUid ∧
    db.Registered row.targetUid

/-- The uids of the friendships come back as they were stored. -/
def NulFreeRows (db : Database) : Prop :=
  ∀ row ∈ db.friendships, NulFree row.requesterUid ∧ NulFree row.targetUid

/-- The uids `getFriendList` returns. -/
def friendUids (db : Database) (uid : String) : List String :=
  (Prog.run exec db (MySQLFriendRepo.getFriendList uid)).2.map UserInfo.uid

variable {db after : Database} {uid friend requester responder : String}

theorem mem_links :
    s(uid, friend) ∈ db.links ↔
      ⟨uid, friend, 1⟩ ∈ db.friendships ∨
        ⟨friend, uid, 1⟩ ∈ db.friendships := by
  constructor
  · rintro ⟨row, hrow, hstatus, hpair⟩
    obtain ⟨asking, asked, status⟩ := row
    cases hstatus
    rcases Sym2.eq_iff.mp hpair with ⟨rfl, rfl⟩ | ⟨rfl, rfl⟩
    · exact .inl hrow
    · exact .inr hrow
  · rintro (hrow | hrow)
    · exact ⟨_, hrow, rfl, rfl⟩
    · exact ⟨_, hrow, rfl, Sym2.eq_swap⟩

theorem mem_selectFriends {info : UserInfo} :
    info ∈ db.selectFriends uid ↔
      info ∈ db.users ∧ s(uid, info.uid) ∈ db.links := by
  unfold selectFriends
  rw [List.mem_dedup, List.mem_append, FriendHistory.mem_acceptedFrom,
    FriendHistory.mem_acceptedFrom, ← and_or_left]
  refine and_congr_right fun _ => ?_
  rw [mem_links]
  constructor
  · rintro (⟨row, hrow, hstatus, rfl, hfar⟩ | ⟨row, hrow, hstatus, rfl, hfar⟩)
    · left
      rw [← hstatus, ← hfar]
      exact hrow
    · right
      rw [← hstatus, ← hfar]
      exact hrow
  · rintro (hrow | hrow)
    · exact .inl ⟨_, hrow, rfl, rfl, rfl⟩
    · exact .inr ⟨_, hrow, rfl, rfl, rfl⟩

theorem mem_uids_selectFriends (hdb : db.UsersLinked) :
    friend ∈ (db.selectFriends uid).map UserInfo.uid ↔
      s(uid, friend) ∈ db.links := by
  rw [List.mem_map]
  constructor
  · rintro ⟨info, hinfo, rfl⟩
    exact (mem_selectFriends.mp hinfo).2
  · intro hlink
    have hregistered : db.Registered friend := by
      rcases mem_links.mp hlink with hrow | hrow
      · exact (hdb _ hrow).2
      · exact (hdb _ hrow).1
    obtain ⟨info, hinfo, rfl⟩ := hregistered
    exact ⟨info, mem_selectFriends.mpr ⟨hinfo, hlink⟩, rfl⟩

theorem friendUids_eq :
    db.friendUids uid =
      ((db.selectFriends uid).map UserInfo.uid).map cstr := by
  unfold friendUids
  rw [FriendHistory.getFriendList_eq, List.map_map, List.map_map]
  rfl

theorem mem_friendUids (hdb : db.UsersLinked) :
    friend ∈ db.friendUids uid ↔
      ∃ other, s(uid, other) ∈ db.links ∧ cstr other = friend := by
  rw [friendUids_eq, List.mem_map]
  exact exists_congr fun other =>
    and_congr_left fun _ => mem_uids_selectFriends hdb

theorem NulFreeRows.of_link (hnul : db.NulFreeRows)
    (hlink : s(uid, friend) ∈ db.links) : NulFree uid ∧ NulFree friend := by
  rcases mem_links.mp hlink with hrow | hrow
  · exact hnul _ hrow
  · exact (hnul _ hrow).symm

theorem NulFreeRows.mem_friendUids (hnul : db.NulFreeRows)
    (hdb : db.UsersLinked) :
    friend ∈ db.friendUids uid ↔ s(uid, friend) ∈ db.links := by
  rw [Database.mem_friendUids hdb]
  constructor
  · rintro ⟨other, hlink, rfl⟩
    rwa [(hnul.of_link hlink).2.cstr]
  · intro hlink
    exact ⟨friend, hlink, (hnul.of_link hlink).2.cstr⟩

/-! ## Statements -/

theorem links_congr (hsame : after.friendships = db.friendships) :
    after.links = db.links := by
  unfold links
  rw [hsame]

theorem mem_updateStatus {status : Nat} {row : FriendshipRow} :
    row ∈ (db.execStatement (.updateFriendshipStatus status requester
        responder)).1.friendships ↔
      row ∈ db.friendships ∧
          ¬ (row.requesterUid = requester ∧ row.targetUid = responder) ∨
        row = ⟨requester, responder, status⟩ ∧
          db.friendships.HasKey (requester, responder) :=
  FriendHistory.mem_settle

/-- Acceptance makes at most one link. -/
theorem links_accept :
    db.links ⊆ (db.execStatement (.updateFriendshipStatus 1 requester
        responder)).1.links ∧
      (db.execStatement (.updateFriendshipStatus 1 requester
        responder)).1.links ⊆ insert s(requester, responder) db.links := by
  constructor
  · rintro link ⟨row, hrow, hstatus, rfl⟩
    by_cases hselected : row.requesterUid = requester ∧
        row.targetUid = responder
    · obtain ⟨rfl, rfl⟩ := hselected
      exact ⟨_, mem_updateStatus.mpr (.inr ⟨rfl, row, hrow, rfl⟩), rfl, rfl⟩
    · exact ⟨row, mem_updateStatus.mpr (.inl ⟨hrow, hselected⟩), hstatus,
        rfl⟩
  · rintro link ⟨row, hrow, hstatus, rfl⟩
    rcases mem_updateStatus.mp hrow with ⟨hold, _⟩ | ⟨rfl, _⟩
    · exact .inr ⟨row, hold, hstatus, rfl⟩
    · exact .inl rfl

/-- A rejection breaks no link when the other row stands for it. -/
theorem links_reject {status : Nat} (hstatus : status ≠ 1)
    (hmirror : ⟨requester, responder, 1⟩ ∈ db.friendships →
      requester ≠ responder ∧ ⟨responder, requester, 1⟩ ∈ db.friendships) :
    (db.execStatement (.updateFriendshipStatus status requester
      responder)).1.links = db.links := by
  ext link
  constructor
  · rintro ⟨row, hrow, hone, rfl⟩
    rcases mem_updateStatus.mp hrow with ⟨hold, _⟩ | ⟨rfl, _⟩
    · exact ⟨row, hold, hone, rfl⟩
    · exact (hstatus hone).elim
  · rintro ⟨row, hrow, hone, rfl⟩
    by_cases hselected : row.requesterUid = requester ∧
        row.targetUid = responder
    · obtain ⟨asking, asked, _⟩ := row
      obtain ⟨rfl, rfl⟩ := hselected
      cases hone
      obtain ⟨hne, hother⟩ := hmirror hrow
      refine ⟨_, mem_updateStatus.mpr (.inl ⟨hother, ?_⟩), rfl,
        Sym2.eq_swap⟩
      rintro ⟨hsame, _⟩
      exact hne hsame.symm
    · exact ⟨row, mem_updateStatus.mpr (.inl ⟨hrow, hselected⟩), hone, rfl⟩

theorem mem_insertFriendship {status : Nat} {row : FriendshipRow} :
    row ∈ (db.execStatement (.insertIgnoreFriendship requester responder
        status)).1.friendships ↔
      row ∈ db.friendships ∨
        row = ⟨requester, responder, status⟩ ∧
          ¬ db.friendships.HasKey (requester, responder) ∧
          db.Registered requester ∧ db.Registered responder := by
  unfold execStatement
  dsimp only
  split
  · rename_i hregistered
    refine KeyedTable.mem_insertIgnore.trans (or_congr_right ?_)
    constructor
    · rintro ⟨hfree, rfl⟩
      exact ⟨rfl, hfree, hregistered⟩
    · rintro ⟨rfl, hfree, _⟩
      exact ⟨hfree, rfl⟩
  · rename_i hunregistered
    constructor
    · exact .inl
    · rintro (hold | ⟨_, _, hregistered⟩)
      · exact hold
      · exact (hunregistered hregistered).elim

theorem links_insertFriendship {status : Nat} :
    db.links ⊆ (db.execStatement (.insertIgnoreFriendship requester
        responder status)).1.links ∧
      (db.execStatement (.insertIgnoreFriendship requester responder
        status)).1.links ⊆ insert s(requester, responder) db.links := by
  constructor
  · rintro link ⟨row, hrow, hone, rfl⟩
    exact ⟨row, mem_insertFriendship.mpr (.inl hrow), hone, rfl⟩
  · rintro link ⟨row, hrow, hone, rfl⟩
    rcases mem_insertFriendship.mp hrow with hold | ⟨rfl, _⟩
    · exact .inr ⟨row, hold, hone, rfl⟩
    · exact .inl rfl

theorem links_request :
    (db.execStatement (.insertIgnoreFriendship requester responder
      0)).1.links = db.links := by
  apply Set.Subset.antisymm
  · rintro link ⟨row, hrow, hone, rfl⟩
    rcases mem_insertFriendship.mp hrow with hold | ⟨rfl, _⟩
    · exact ⟨row, hold, hone, rfl⟩
    · cases hone
  · exact links_insertFriendship.1

/-- The second row of an acceptance completes the link, unless the pair has
only a row the other way that is not accepted. -/
theorem linked_insertFriendship (hrequester : db.Registered requester)
    (hresponder : db.Registered responder)
    (hrows : ⟨responder, requester, 1⟩ ∈ db.friendships ∨
      ⟨requester, responder, 1⟩ ∈ db.friendships ∨
      ¬ db.friendships.HasKey (requester, responder)) :
    s(requester, responder) ∈ (db.execStatement
      (.insertIgnoreFriendship requester responder 1)).1.links := by
  rw [mem_links]
  rcases hrows with hrow | hrow | hfree
  · exact .inr (mem_insertFriendship.mpr (.inl hrow))
  · exact .inl (mem_insertFriendship.mpr (.inl hrow))
  · exact .inl (mem_insertFriendship.mpr
      (.inr ⟨rfl, hfree, hrequester, hresponder⟩))

theorem mem_deleteFriendships {row : FriendshipRow} :
    row ∈ (db.execStatement (.deleteFriendships requester
        responder)).1.friendships ↔
      row ∈ db.friendships ∧
        s(row.requesterUid, row.targetUid) ≠ s(requester, responder) := by
  refine KeyedTable.mem_delete.trans (and_congr_right fun _ => ?_)
  rw [Ne, Sym2.eq_iff]
  simp only [Bool.or_eq_false_iff, Bool.and_eq_false_iff,
    decide_eq_false_iff_not, not_or, not_and_or]

theorem links_remove :
    (db.execStatement (.deleteFriendships requester responder)).1.links =
      db.links \ {s(requester, responder)} := by
  ext link
  constructor
  · rintro ⟨row, hrow, hone, rfl⟩
    obtain ⟨hold, hne⟩ := mem_deleteFriendships.mp hrow
    exact ⟨⟨row, hold, hone, rfl⟩, hne⟩
  · rintro ⟨⟨row, hrow, hone, rfl⟩, hne⟩
    exact ⟨row, mem_deleteFriendships.mpr ⟨hrow, hne⟩, hone, rfl⟩

end Database

/-- The statements that write friendships. -/
def Statement.Befriends : Statement → Prop
  | .insertIgnoreFriendship .. | .updateFriendshipStatus ..
  | .deleteFriendships .. => True
  | _ => False

namespace Database

variable {db : Database} {statement : Statement}

theorem friendships_execStatement (hother : ¬ statement.Befriends) :
    (db.execStatement statement).1.friendships = db.friendships := by
  cases statement with
  | insertIgnoreFriendship | updateFriendshipStatus | deleteFriendships =>
      exact (hother trivial).elim
  | insertMessage | insertOfflineMessage | insertUser | insertRoom
  | insertIgnoreRoomMember =>
      simp only [execStatement]
      split <;> rfl
  | insertSession =>
      simp only [execStatement]
      split
      · rfl
      · split <;> rfl
  | _ => rfl

theorem UsersLinked.grows {after : Database} (hdb : db.UsersLinked)
    (hgrows : db.Grows after)
    (hrows : ∀ row ∈ after.friendships,
      (∃ old ∈ db.friendships, old.pair = row.pair) ∨
        after.Registered row.requesterUid ∧
          after.Registered row.targetUid) : after.UsersLinked := by
  intro row hrow
  rcases hrows row hrow with ⟨old, hold, hpair⟩ | hregistered
  · obtain ⟨hrequester, htarget⟩ := hdb old hold
    obtain ⟨hfirst, hsecond⟩ := Prod.mk.inj hpair
    rw [← hfirst, ← hsecond]
    exact ⟨hgrows.users _ hrequester, hgrows.users _ htarget⟩
  · exact hregistered

theorem UsersLinked.execStatement (hdb : db.UsersLinked)
    (hgrows : db.Grows (db.execStatement statement).1) :
    (db.execStatement statement).1.UsersLinked := by
  apply hdb.grows hgrows
  intro row hrow
  by_cases hbefriends : statement.Befriends
  · cases statement with
    | updateFriendshipStatus status requester responder =>
        rcases mem_updateStatus.mp hrow with
          ⟨hold, _⟩ | ⟨rfl, old, hold, hkey⟩
        · exact .inl ⟨row, hold, rfl⟩
        · exact .inl ⟨old, hold, hkey⟩
    | insertIgnoreFriendship requester target status =>
        rcases mem_insertFriendship.mp hrow with
          hold | ⟨rfl, _, hrequester, htarget⟩
        · exact .inl ⟨row, hold, rfl⟩
        · exact .inr ⟨hgrows.users _ hrequester, hgrows.users _ htarget⟩
    | deleteFriendships uid₁ uid₂ =>
        exact .inl ⟨row, (KeyedTable.mem_delete.mp hrow).1, rfl⟩
    | _ => exact hbefriends.elim
  · rw [friendships_execStatement hbefriends] at hrow
    exact .inl ⟨row, hrow, rfl⟩

end Database

end MuduoChat
