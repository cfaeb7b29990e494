import MuduoChat.LabelledRuns
import MuduoChat.MySQLRepos

/-!
# Friendship by consent

The friendships table records requests and answers, and `getFriendList` reads
the accepted rows in both directions.  This file follows the table through
arbitrary sequences of `addFriendRequest`, `respondFriendRequest` and
`removeFriends` calls and asks whether friends have always consented: since
the last removal one of them asked and the other accepted.

`respondFriendRequest` updates the request and inserts the mirror row, without
looking whether there was a request to update.  An acceptance out of the blue
therefore makes two users friends.  As long as every acceptance finds a row of
the pair in one direction or the other, friendship needs consent.

This is so for uids that come back from the database as they were stored.  A
uid with a NUL in it is read up to there, and its friends find another name in
their lists.
-/

namespace MuduoChat

inductive FriendOp where
  | addFriendRequest (sender target message : String)
  | respondFriendRequest (requester responder : String) (accepted : Bool)
  | removeFriends (uid₁ uid₂ : String)
  deriving DecidableEq

namespace FriendOp

def program : FriendOp → DbProg Bool
  | addFriendRequest sender target message =>
      MySQLFriendRepo.addFriendRequest sender target message
  | respondFriendRequest requester responder accepted =>
      MySQLFriendRepo.respondFriendRequest requester responder accepted
  | removeFriends uid₁ uid₂ => MySQLFriendRepo.removeFriends uid₁ uid₂

def uids : FriendOp → String × String
  | addFriendRequest sender target _ => (sender, target)
  | respondFriendRequest requester responder _ => (requester, responder)
  | removeFriends uid₁ uid₂ => (uid₁, uid₂)

def removes (uid₁ uid₂ : String) : FriendOp → Bool
  | removeFriends first second =>
      (first = uid₁ && second = uid₂) || (first = uid₂ && second = uid₁)
  | _ => false

theorem removes_comm (op : FriendOp) (uid₁ uid₂ : String) :
    op.removes uid₁ uid₂ = op.removes uid₂ uid₁ := by
  cases op with
  | removeFriends first second =>
      simp only [removes]
      exact Bool.or_comm _ _
  | _ => rfl

end FriendOp

/-! ## Consent -/

/-- The calls made since the last removal of the pair, newest first. -/
def sinceRemoval (uid₁ uid₂ : String) (past : List FriendOp) :
    List FriendOp :=
  past.takeWhile fun op => !op.removes uid₁ uid₂

/-- Since the last removal, `requester` has asked `target`. -/
def Asked (past : List FriendOp) (requester target : String) : Prop :=
  ∃ message, .addFriendRequest requester target message ∈
    sinceRemoval requester target past

/-- Since the last removal, one of the two has asked and the other has
accepted this request afterwards. -/
def Consented (past : List FriendOp) (uid₁ uid₂ : String) : Prop :=
  ∃ requester responder message,
    ((requester = uid₁ ∧ responder = uid₂) ∨
      (requester = uid₂ ∧ responder = uid₁)) ∧
    [.respondFriendRequest requester responder true,
      .addFriendRequest requester responder message].Sublist
        (sinceRemoval uid₁ uid₂ past)

section Consent

variable {past : List FriendOp} {op : FriendOp} {uid₁ uid₂ : String}

theorem sinceRemoval_comm (uid₁ uid₂ : String) (past : List FriendOp) :
    sinceRemoval uid₁ uid₂ past = sinceRemoval uid₂ uid₁ past := by
  unfold sinceRemoval
  congr 1
  funext op
  rw [op.removes_comm]

theorem sinceRemoval_cons_of_removes (hop : op.removes uid₁ uid₂ = true) :
    sinceRemoval uid₁ uid₂ (op :: past) = [] := by
  simp [sinceRemoval, hop]

theorem sinceRemoval_cons (hop : op.removes uid₁ uid₂ = false) :
    sinceRemoval uid₁ uid₂ (op :: past) =
      op :: sinceRemoval uid₁ uid₂ past := by
  simp [sinceRemoval, hop]

theorem Consented.symm (hconsent : Consented past uid₁ uid₂) :
    Consented past uid₂ uid₁ := by
  obtain ⟨requester, responder, message, hpair, hcalls⟩ := hconsent
  exact ⟨requester, responder, message, hpair.symm,
    sinceRemoval_comm uid₁ uid₂ past ▸ hcalls⟩

theorem Consented.cons (hconsent : Consented past uid₁ uid₂)
    (hop : op.removes uid₁ uid₂ = false) :
    Consented (op :: past) uid₁ uid₂ := by
  obtain ⟨requester, responder, message, hpair, hcalls⟩ := hconsent
  have hstill :
      [.respondFriendRequest requester responder true,
        .addFriendRequest requester responder message].Sublist
          (sinceRemoval uid₁ uid₂ (op :: past)) := by
    rw [sinceRemoval_cons hop]
    exact hcalls.cons op
  exact ⟨requester, responder, message, hpair, hstill⟩

theorem Asked.cons (hasked : Asked past uid₁ uid₂)
    (hop : op.removes uid₁ uid₂ = false) :
    Asked (op :: past) uid₁ uid₂ := by
  obtain ⟨message, hcall⟩ := hasked
  have hstill : .addFriendRequest uid₁ uid₂ message ∈
      sinceRemoval uid₁ uid₂ (op :: past) := by
    rw [sinceRemoval_cons hop]
    exact List.mem_cons_of_mem op hcall
  exact ⟨message, hstill⟩

theorem asked_or_consented_cons
    (hpast : Asked past uid₁ uid₂ ∨ Consented past uid₁ uid₂)
    (hop : op.removes uid₁ uid₂ = false) :
    Asked (op :: past) uid₁ uid₂ ∨ Consented (op :: past) uid₁ uid₂ := by
  rcases hpast with hasked | hconsent
  · exact .inl (hasked.cons hop)
  · exact .inr (hconsent.cons hop)

theorem Asked.accept (hasked : Asked past uid₁ uid₂) :
    Consented (.respondFriendRequest uid₁ uid₂ true :: past) uid₁ uid₂ := by
  obtain ⟨message, hcall⟩ := hasked
  refine ⟨uid₁, uid₂, message, .inl ⟨rfl, rfl⟩, ?_⟩
  rw [sinceRemoval_cons rfl]
  exact (List.singleton_sublist.mpr hcall).cons_cons _

theorem Consented.asked (hconsent : Consented past uid₁ uid₂) :
    Asked past uid₁ uid₂ ∨ Asked past uid₂ uid₁ := by
  obtain ⟨requester, responder, message, hpair, hcalls⟩ := hconsent
  have hcall : .addFriendRequest requester responder message ∈
      sinceRemoval uid₁ uid₂ past := hcalls.subset (by simp)
  rcases hpair with ⟨rfl, rfl⟩ | ⟨rfl, rfl⟩
  · exact .inl ⟨message, hcall⟩
  · exact .inr ⟨message, sinceRemoval_comm _ _ past ▸ hcall⟩

theorem asked_of_cons (hasked : Asked (op :: past) uid₁ uid₂)
    (hop : ∀ message, op ≠ .addFriendRequest uid₁ uid₂ message) :
    op.removes uid₁ uid₂ = false ∧ Asked past uid₁ uid₂ := by
  obtain ⟨message, hcall⟩ := hasked
  cases hremoves : op.removes uid₁ uid₂ with
  | true =>
      rw [sinceRemoval_cons_of_removes hremoves] at hcall
      simp at hcall
  | false =>
      rw [sinceRemoval_cons hremoves] at hcall
      rcases List.mem_cons.mp hcall with heq | hmem
      · exact absurd heq.symm (hop message)
      · exact ⟨rfl, message, hmem⟩

end Consent

/-! ## Histories of the table -/

/-- Every registered uid comes back as it was stored. -/
def NulFreeUids (users : KeyedTable UserInfo.uid) : Prop :=
  ∀ user ∈ users, NulFree user.uid

/-- The database and the calls it has seen, newest first. -/
structure FriendHistory where
  db : Database
  past : List FriendOp

namespace FriendHistory

def start (users : KeyedTable UserInfo.uid) : FriendHistory :=
  { db := { users := users }, past := [] }

/-- One call, between registered users, run to its end. -/
def step (history : FriendHistory) (op : FriendOp) :
    Option FriendHistory :=
  if history.db.Registered op.uids.1 ∧ history.db.Registered op.uids.2 then
    some
      { db := (Prog.run Database.exec history.db op.program).1
        past := op :: history.past }
  else none

def IsFriend (history : FriendHistory) (uid friend : String) : Prop :=
  ∃ info ∈ (Prog.run Database.exec history.db
    (MySQLFriendRepo.getFriendList uid)).2, info.uid = friend

def ConsentKept (history : FriendHistory) : Prop :=
  ∀ uid friend, history.IsFriend uid friend →
    Consented history.past uid friend

/-- An acceptance finds a row of the pair, in one direction or the other. -/
def AnswersRequest (history : FriendHistory) : FriendOp → Prop
  | .respondFriendRequest requester responder true =>
      history.db.friendships.HasKey (requester, responder) ∨
        history.db.friendships.HasKey (responder, requester)
  | _ => True

/-- An acceptance does so, and both uids come back as they were stored. -/
def AnswersReadably (history : FriendHistory) : FriendOp → Prop
  | .respondFriendRequest requester responder true =>
      NulFree requester ∧ NulFree responder ∧
        (history.db.friendships.HasKey (requester, responder) ∨
          history.db.friendships.HasKey (responder, requester))
  | _ => True

/-! ## What the calls do to the table -/

section Calls

variable {db : Database}

theorem run_addFriendRequest {sender target message : String}
    (hsender : db.Registered sender) (htarget : db.Registered target) :
    (Prog.run Database.exec db
      (MySQLFriendRepo.addFriendRequest sender target message)).1 =
      { db with
        friendships := db.friendships.insertIgnore ⟨sender, target, 0⟩ } := by
  simp [MySQLFriendRepo.addFriendRequest, Database.exec,
    Database.execStatement, hsender, htarget]

def settle (table : KeyedTable FriendshipRow.pair)
    (requester responder : String) (status : Nat) :
    KeyedTable FriendshipRow.pair :=
  table.update
    (fun row => row.requesterUid = requester && row.targetUid = responder)
    (fun row => { row with status := status })
    (FriendshipRow.pair_withStatus status)

theorem run_accept {requester responder : String}
    (hrequester : db.Registered requester)
    (hresponder : db.Registered responder) :
    (Prog.run Database.exec db
      (MySQLFriendRepo.respondFriendRequest requester responder true)).1 =
      { db with
        friendships := (settle db.friendships requester responder 1
          ).insertIgnore ⟨responder, requester, 1⟩ } := by
  have hrequester' (table : KeyedTable FriendshipRow.pair) :
      ({ db with friendships := table } : Database).Registered requester :=
    hrequester
  have hresponder' (table : KeyedTable FriendshipRow.pair) :
      ({ db with friendships := table } : Database).Registered responder :=
    hresponder
  simp [MySQLFriendRepo.respondFriendRequest, Database.exec,
    Database.execStatement, settle, hrequester', hresponder']

theorem run_reject {requester responder : String} :
    (Prog.run Database.exec db
      (MySQLFriendRepo.respondFriendRequest requester responder false)).1 =
      { db with
        friendships := settle db.friendships requester responder 2 } := by
  simp [MySQLFriendRepo.respondFriendRequest, Database.exec,
    Database.execStatement, settle]

theorem run_removeFriends {uid₁ uid₂ : String} :
    (Prog.run Database.exec db
      (MySQLFriendRepo.removeFriends uid₁ uid₂)).1 =
      { db with
        friendships := db.friendships.delete fun row =>
          (FriendOp.removeFriends uid₁ uid₂).removes row.requesterUid
            row.targetUid } := by
  have hselected (row : FriendshipRow) :
      ((row.requesterUid = uid₁ && row.targetUid = uid₂) ||
        (row.requesterUid = uid₂ && row.targetUid = uid₁)) =
      (FriendOp.removeFriends uid₁ uid₂).removes row.requesterUid
        row.targetUid := by
    simp only [FriendOp.removes, eq_comm]
    grind
  simp [MySQLFriendRepo.removeFriends, Database.exec,
    Database.execStatement, hselected]

/-- What a call between registered users leaves of the table. -/
def leaves (table : KeyedTable FriendshipRow.pair) :
    FriendOp → KeyedTable FriendshipRow.pair
  | .addFriendRequest sender target _ =>
      table.insertIgnore ⟨sender, target, 0⟩
  | .respondFriendRequest requester responder true =>
      (settle table requester responder 1).insertIgnore
        ⟨responder, requester, 1⟩
  | .respondFriendRequest requester responder false =>
      settle table requester responder 2
  | .removeFriends uid₁ uid₂ =>
      table.delete fun row =>
        (FriendOp.removeFriends uid₁ uid₂).removes row.requesterUid
          row.targetUid

theorem run_program {op : FriendOp} (hfirst : db.Registered op.uids.1)
    (hsecond : db.Registered op.uids.2) :
    (Prog.run Database.exec db op.program).1 =
      { db with friendships := leaves db.friendships op } := by
  cases op with
  | addFriendRequest sender target message =>
      exact @run_addFriendRequest db sender target message hfirst hsecond
  | respondFriendRequest requester responder accepted =>
      cases accepted with
      | false => exact run_reject
      | true => exact run_accept hfirst hsecond
  | removeFriends uid₁ uid₂ => exact run_removeFriends

theorem getFriendList_eq (uid : String) :
    (Prog.run Database.exec db (MySQLFriendRepo.getFriendList uid)).2 =
      (db.selectFriends uid).map UserInfo.ofRow := by
  simp [MySQLFriendRepo.getFriendList, Database.exec,
    Database.execStatement]

theorem mem_acceptedFrom {near far : FriendshipRow → String} {uid : String}
    {info : UserInfo} :
    info ∈ db.acceptedFrom near far uid ↔
      info ∈ db.users ∧ ∃ row ∈ db.friendships, row.status = 1 ∧
        near row = uid ∧ far row = info.uid := by
  unfold Database.acceptedFrom
  rw [List.mem_filter, List.any_eq_true]
  refine and_congr_right fun _ => exists_congr fun row => ?_
  refine and_congr_right fun _ => ?_
  simp only [Bool.and_eq_true, decide_eq_true_eq]
  tauto

theorem isFriend_iff {history : FriendHistory} {uid friend : String} :
    history.IsFriend uid friend ↔
      ∃ other, cstr other = friend ∧ history.db.Registered other ∧
        ∃ row ∈ history.db.friendships, row.status = 1 ∧
          ((row.requesterUid = uid ∧ row.targetUid = other) ∨
            (row.targetUid = uid ∧ row.requesterUid = other)) := by
  unfold IsFriend
  rw [getFriendList_eq]
  simp only [Database.selectFriends, List.mem_map, List.mem_dedup,
    List.mem_append, mem_acceptedFrom]
  constructor
  · rintro ⟨_, ⟨info, ⟨huser, row, hrow, hstatus, hnear, hfar⟩ |
      ⟨huser, row, hrow, hstatus, hnear, hfar⟩, rfl⟩, rfl⟩
    · exact ⟨info.uid, rfl, ⟨info, huser, rfl⟩, row, hrow, hstatus,
        .inl ⟨hnear, hfar⟩⟩
    · exact ⟨info.uid, rfl, ⟨info, huser, rfl⟩, row, hrow, hstatus,
        .inr ⟨hnear, hfar⟩⟩
  · rintro ⟨_, rfl, ⟨info, huser, rfl⟩, row, hrow, hstatus,
      hends | hends⟩
    · exact ⟨_, ⟨info, .inl ⟨huser, row, hrow, hstatus, hends⟩, rfl⟩, rfl⟩
    · exact ⟨_, ⟨info, .inr ⟨huser, row, hrow, hstatus, hends⟩, rfl⟩, rfl⟩

end Calls

/-! ## The invariant -/

/-- Every row goes back to a request, the accepted ones to consent, and no
request since the last removal has been lost. -/
structure Explained (table : KeyedTable FriendshipRow.pair)
    (past : List FriendOp) : Prop where
  accepted : ∀ row ∈ table, row.status = 1 →
    Consented past row.requesterUid row.targetUid
  asked : ∀ row ∈ table,
    Asked past row.requesterUid row.targetUid ∨
      Consented past row.requesterUid row.targetUid
  kept : ∀ requester target, Asked past requester target →
    table.HasKey (requester, target)

section Invariant

variable {table : KeyedTable FriendshipRow.pair} {past : List FriendOp}

theorem Explained.add (hexplained : Explained table past)
    (sender target message : String) :
    Explained (table.insertIgnore ⟨sender, target, 0⟩)
      (.addFriendRequest sender target message :: past) where
  accepted := by
    intro row hrow hstatus
    rcases KeyedTable.mem_insertIgnore.mp hrow with hold | ⟨-, rfl⟩
    · exact (hexplained.accepted row hold hstatus).cons rfl
    · simp at hstatus
  asked := by
    intro row hrow
    rcases KeyedTable.mem_insertIgnore.mp hrow with hold | ⟨-, rfl⟩
    · exact asked_or_consented_cons (hexplained.asked row hold) rfl
    · have hcall : .addFriendRequest sender target message ∈
          sinceRemoval sender target
            (.addFriendRequest sender target message :: past) := by
        rw [sinceRemoval_cons rfl]
        exact List.mem_cons_self
      exact .inl ⟨message, hcall⟩
  kept := by
    intro requester other hasked
    by_cases hnew : (requester, other) = (sender, target)
    · rw [hnew]
      exact KeyedTable.hasKey_insertIgnore_self _ _
    · have hothers : ∀ text, FriendOp.addFriendRequest sender target message ≠
          .addFriendRequest requester other text := by
        intro text heq
        cases heq
        exact hnew rfl
      have hbefore : Asked past requester other :=
        (asked_of_cons hasked hothers).2
      exact (hexplained.kept requester other hbefore).insertIgnore _

theorem mem_settle {requester responder : String} {status : Nat}
    {row : FriendshipRow} :
    row ∈ settle table requester responder status ↔
      row ∈ table ∧
          ¬ (row.requesterUid = requester ∧ row.targetUid = responder) ∨
        row = ⟨requester, responder, status⟩ ∧
          table.HasKey (requester, responder) := by
  unfold settle
  rw [KeyedTable.mem_update]
  constructor
  · rintro ⟨old, hold, rfl⟩
    by_cases hselected : old.requesterUid = requester ∧
        old.targetUid = responder
    · obtain ⟨rfl, rfl⟩ := hselected
      exact .inr ⟨by simp, old, hold, rfl⟩
    · have hnot : ¬ (decide (old.requesterUid = requester) &&
          decide (old.targetUid = responder)) = true := by
        simpa using hselected
      rw [if_neg hnot]
      exact .inl ⟨hold, hselected⟩
  · rintro (⟨hold, hselected⟩ | ⟨rfl, old, hold, hkey⟩)
    · refine ⟨row, hold, ?_⟩
      have hnot : ¬ (decide (row.requesterUid = requester) &&
          decide (row.targetUid = responder)) = true := by
        simpa using hselected
      rw [if_neg hnot]
    · obtain ⟨rfl, rfl⟩ := Prod.mk.inj hkey
      exact ⟨old, hold, by simp⟩

theorem hasKey_settle {requester responder : String} {status : Nat}
    {pair : String × String} :
    (settle table requester responder status).HasKey pair ↔
      table.HasKey pair :=
  KeyedTable.hasKey_update

theorem Explained.asked_of_hasKey (hexplained : Explained table past)
    {requester target : String} (hkey : table.HasKey (requester, target)) :
    Asked past requester target ∨ Consented past requester target := by
  obtain ⟨row, hrow, hpair⟩ := hkey
  have hasked := hexplained.asked row hrow
  cases hpair
  exact hasked

theorem Explained.consented (hexplained : Explained table past)
    {requester responder : String}
    (hkey : table.HasKey (requester, responder)) :
    Consented (.respondFriendRequest requester responder true :: past)
      requester responder := by
  rcases hexplained.asked_of_hasKey hkey with hasked | hconsent
  · exact hasked.accept
  · exact hconsent.cons rfl

theorem Explained.settle (hexplained : Explained table past)
    (requester responder : String) (accepted : Bool) :
    Explained
      (settle table requester responder (if accepted then 1 else 2))
      (.respondFriendRequest requester responder accepted :: past) where
  accepted := by
    intro row hrow hstatus
    rcases mem_settle.mp hrow with ⟨hold, -⟩ | ⟨rfl, hkey⟩
    · exact (hexplained.accepted row hold hstatus).cons rfl
    · cases accepted with
      | false => simp at hstatus
      | true => exact hexplained.consented hkey
  asked := by
    intro row hrow
    rcases mem_settle.mp hrow with ⟨hold, -⟩ | ⟨rfl, hkey⟩
    · exact asked_or_consented_cons (hexplained.asked row hold) rfl
    · exact asked_or_consented_cons (hexplained.asked_of_hasKey hkey) rfl
  kept := by
    intro sender target hasked
    have hbefore : Asked past sender target :=
      (asked_of_cons hasked (by simp)).2
    exact hasKey_settle.mpr (hexplained.kept sender target hbefore)

/-- The mirror row of an acceptance that found a row of the pair. -/
theorem Explained.mirror {requester responder : String}
    (hexplained : Explained
      (FriendHistory.settle table requester responder 1)
      (.respondFriendRequest requester responder true :: past))
    (hrow : table.HasKey (requester, responder) ∨
      table.HasKey (responder, requester))
    (hbefore : Explained table past) :
    Explained
      ((FriendHistory.settle table requester responder 1).insertIgnore
        ⟨responder, requester, 1⟩)
      (.respondFriendRequest requester responder true :: past) := by
  have hmirror :
      ¬ (FriendHistory.settle table requester responder 1).HasKey
        (responder, requester) →
      Consented (.respondFriendRequest requester responder true :: past)
        responder requester := by
    intro hfree
    rw [hasKey_settle] at hfree
    exact (hbefore.consented (hrow.resolve_right hfree)).symm
  constructor
  · intro row hmem hstatus
    rcases KeyedTable.mem_insertIgnore.mp hmem with hold | ⟨hfree, rfl⟩
    · exact hexplained.accepted row hold hstatus
    · exact hmirror hfree
  · intro row hmem
    rcases KeyedTable.mem_insertIgnore.mp hmem with hold | ⟨hfree, rfl⟩
    · exact hexplained.asked row hold
    · exact .inr (hmirror hfree)
  · intro sender target hasked
    exact (hexplained.kept sender target hasked).insertIgnore _

theorem Explained.remove (hexplained : Explained table past)
    (uid₁ uid₂ : String) :
    Explained
      (table.delete fun row =>
        (FriendOp.removeFriends uid₁ uid₂).removes row.requesterUid
          row.targetUid)
      (.removeFriends uid₁ uid₂ :: past) where
  accepted := by
    intro row hrow hstatus
    obtain ⟨hold, hother⟩ := KeyedTable.mem_delete.mp hrow
    exact (hexplained.accepted row hold hstatus).cons hother
  asked := by
    intro row hrow
    obtain ⟨hold, hother⟩ := KeyedTable.mem_delete.mp hrow
    exact asked_or_consented_cons (hexplained.asked row hold) hother
  kept := by
    intro requester target hasked
    obtain ⟨hother, hbefore⟩ := asked_of_cons hasked (by simp)
    obtain ⟨row, hrow, hpair⟩ := hexplained.kept requester target hbefore
    cases hpair
    exact ⟨row, KeyedTable.mem_delete.mpr ⟨hrow, hother⟩, rfl⟩

end Invariant

/-! ## Exactness -/

variable {history next : FriendHistory} {op : FriendOp}

def RowsExplained (history : FriendHistory) : Prop :=
  Explained history.db.friendships history.past

theorem step_eq_some (hstep : history.step op = some next) :
    (history.db.Registered op.uids.1 ∧ history.db.Registered op.uids.2) ∧
      next =
        { db := (Prog.run Database.exec history.db op.program).1
          past := op :: history.past } := by
  obtain ⟨hregistered, hnext⟩ := Option.ite_none_right_eq_some.mp hstep
  exact ⟨hregistered, (Option.some.inj hnext).symm⟩

theorem step_leaves (hstep : history.step op = some next) :
    next =
      { db := { history.db with
          friendships := leaves history.db.friendships op }
        past := op :: history.past } := by
  obtain ⟨⟨hfirst, hsecond⟩, rfl⟩ := step_eq_some hstep
  rw [run_program hfirst hsecond]

/-- The uids of the accepted rows come back as they were stored. -/
def Readable (history : FriendHistory) : Prop :=
  ∀ row ∈ history.db.friendships, row.status = 1 →
    NulFree row.requesterUid ∧ NulFree row.targetUid

theorem AnswersReadably.answersRequest (hanswers : history.AnswersReadably op) :
    history.AnswersRequest op := by
  cases op with
  | respondFriendRequest requester responder accepted =>
      cases accepted with
      | true => exact hanswers.2.2
      | false => trivial
  | _ => trivial

theorem AnswersRequest.readably (hanswers : history.AnswersRequest op)
    (hfirst : NulFree op.uids.1) (hsecond : NulFree op.uids.2) :
    history.AnswersReadably op := by
  cases op with
  | respondFriendRequest requester responder accepted =>
      cases accepted with
      | true => exact ⟨hfirst, hsecond, hanswers⟩
      | false => trivial
  | _ => trivial

theorem RowsExplained.consentKept (hexplained : history.RowsExplained)
    (hreadable : history.Readable) : history.ConsentKept := by
  intro uid friend hfriend
  obtain ⟨other, rfl, -, row, hrow, hstatus, ⟨rfl, rfl⟩ | ⟨rfl, rfl⟩⟩ :=
    isFriend_iff.mp hfriend
  · rw [(hreadable row hrow hstatus).2.cstr]
    exact hexplained.accepted row hrow hstatus
  · rw [(hreadable row hrow hstatus).1.cstr]
    exact (hexplained.accepted row hrow hstatus).symm

theorem RowsExplained.step (hexplained : history.RowsExplained)
    (hstep : history.step op = some next)
    (hanswers : history.AnswersRequest op) : next.RowsExplained := by
  obtain rfl := step_leaves hstep
  cases op with
  | addFriendRequest sender target message =>
      exact hexplained.add sender target message
  | respondFriendRequest requester responder accepted =>
      cases accepted with
      | false => exact hexplained.settle requester responder false
      | true =>
          exact (hexplained.settle requester responder true).mirror hanswers
            hexplained
  | removeFriends uid₁ uid₂ => exact hexplained.remove uid₁ uid₂

theorem Readable.step (hreadable : history.Readable)
    (hstep : history.step op = some next)
    (hanswers : history.AnswersReadably op) : next.Readable := by
  obtain rfl := step_leaves hstep
  intro row hrow hstatus
  cases op with
  | addFriendRequest sender target message =>
      rcases KeyedTable.mem_insertIgnore.mp hrow with hold | ⟨-, rfl⟩
      · exact hreadable row hold hstatus
      · simp at hstatus
  | respondFriendRequest requester responder accepted =>
      cases accepted with
      | false =>
          rcases mem_settle.mp hrow with ⟨hold, -⟩ | ⟨rfl, -⟩
          · exact hreadable row hold hstatus
          · simp at hstatus
      | true =>
          obtain ⟨hrequester, hresponder, -⟩ := hanswers
          rcases KeyedTable.mem_insertIgnore.mp hrow with hold | ⟨-, rfl⟩
          · rcases mem_settle.mp hold with ⟨hold, -⟩ | ⟨rfl, -⟩
            · exact hreadable row hold hstatus
            · exact ⟨hrequester, hresponder⟩
          · exact ⟨hresponder, hrequester⟩
  | removeFriends uid₁ uid₂ =>
      exact hreadable row (KeyedTable.mem_delete.mp hrow).1 hstatus

theorem step_users (hstep : history.step op = some next) :
    next.db.users = history.db.users := by
  obtain rfl := step_leaves hstep
  rfl

/-- After an acceptance the requester is read in the list of the responder,
unless the only row of the pair is one the other way. -/
theorem isFriend_of_accept {requester responder : String}
    (hstep : history.step (.respondFriendRequest requester responder true) =
      some next)
    (hrows : history.db.friendships.HasKey (requester, responder) ∨
      ¬ history.db.friendships.HasKey (responder, requester)) :
    next.IsFriend responder (cstr requester) := by
  obtain ⟨⟨hfirst, -⟩, -⟩ := step_eq_some hstep
  obtain rfl := step_leaves hstep
  rw [isFriend_iff]
  rcases hrows with hkey | hfree
  · exact ⟨requester, rfl, hfirst, ⟨requester, responder, 1⟩,
      KeyedTable.mem_insertIgnore.mpr (.inl (mem_settle.mpr
        (.inr ⟨rfl, hkey⟩))), rfl, .inr ⟨rfl, rfl⟩⟩
  · have hmirror : ¬ (settle history.db.friendships requester responder
        1).HasKey (responder, requester) := by
      rw [hasKey_settle]
      exact hfree
    exact ⟨requester, rfl, hfirst, ⟨responder, requester, 1⟩,
      KeyedTable.mem_insertIgnore.mpr (.inr ⟨hmirror, rfl⟩), rfl,
      .inl ⟨rfl, rfl⟩⟩

theorem answersRequest_of_consentKept (hstep : history.step op = some next)
    (hexplained : history.RowsExplained) (hnul : NulFree op.uids.1)
    (hconsent : next.ConsentKept) : history.AnswersRequest op := by
  cases op with
  | respondFriendRequest requester responder accepted =>
      cases accepted with
      | false => trivial
      | true =>
          by_contra hnone
          obtain ⟨hnorow, hnomirror⟩ := not_or.mp hnone
          have hagreed := hconsent responder (cstr requester)
            (isFriend_of_accept hstep (.inr hnomirror))
          replace hnul : NulFree requester := hnul
          rw [hnul.cstr] at hagreed
          obtain ⟨-, rfl⟩ := step_eq_some hstep
          rcases hagreed.asked with hasked | hasked
          · exact hnomirror (hexplained.kept _ _
              (asked_of_cons hasked (by simp)).2)
          · exact hnorow (hexplained.kept _ _
              (asked_of_cons hasked (by simp)).2)
  | _ => trivial

theorem start_rowsExplained (users : KeyedTable UserInfo.uid) :
    (start users).RowsExplained where
  accepted := fun _ hrow => absurd hrow KeyedTable.not_mem_empty
  asked := fun _ hrow => absurd hrow KeyedTable.not_mem_empty
  kept := by
    rintro requester target ⟨message, hcall⟩
    simp [start, sinceRemoval] at hcall

theorem start_readable (users : KeyedTable UserInfo.uid) :
    (start users).Readable := by
  intro row hrow
  exact absurd hrow KeyedTable.not_mem_empty

theorem consentKept_of_answersReadably (users : KeyedTable UserInfo.uid)
    {ops : List FriendOp}
    (hanswers : Runs.EachStep step AnswersReadably (start users) ops) :
    Runs.Always step ConsentKept (start users) ops := by
  have hinv : Runs.Always step
      (fun history => history.RowsExplained ∧ history.Readable)
      (start users) ops := by
    refine Runs.always_of_eachStep ⟨start_rowsExplained users,
      start_readable users⟩ ?_ hanswers
    rintro history op next hstep ⟨hexplained, hreadable⟩ hop
    exact ⟨hexplained.step hstep hop.answersRequest,
      hreadable.step hstep hop⟩
  intro before history hprefix hrun
  obtain ⟨hexplained, hreadable⟩ := hinv before history hprefix hrun
  exact hexplained.consentKept hreadable

/-- A user may ask for their own friendship and accept. -/
theorem run_selfFriend {users : KeyedTable UserInfo.uid} {uid : String}
    (huid : (start users).db.Registered uid) :
    ∃ asked friends,
      (start users).step (.addFriendRequest uid uid "") = some asked ∧
      asked.step (.respondFriendRequest uid uid true) = some friends ∧
      ⟨uid, uid, 0⟩ ∈ asked.db.friendships ∧
      ⟨uid, uid, 1⟩ ∈ friends.db.friendships := by
  obtain ⟨asked, hasked⟩ : ∃ asked,
      (start users).step (.addFriendRequest uid uid "") = some asked :=
    ⟨_, if_pos ⟨huid, huid⟩⟩
  have hpending : ⟨uid, uid, 0⟩ ∈ asked.db.friendships := by
    obtain rfl := step_leaves hasked
    exact KeyedTable.mem_insertIgnore.mpr
      (.inr ⟨fun ⟨_, hrow, _⟩ => KeyedTable.not_mem_empty hrow, rfl⟩)
  have hstill : asked.db.Registered uid := by
    unfold Database.Registered
    rw [step_users hasked]
    exact huid
  obtain ⟨friends, hfriends⟩ : ∃ friends,
      asked.step (.respondFriendRequest uid uid true) = some friends :=
    ⟨_, if_pos ⟨hstill, hstill⟩⟩
  refine ⟨asked, friends, hasked, hfriends, hpending, ?_⟩
  obtain rfl := step_leaves hfriends
  exact KeyedTable.mem_insertIgnore.mpr (.inl (mem_settle.mpr
    (.inr ⟨rfl, _, hpending, rfl⟩)))

/-- A user whose uid has a NUL is then a friend of the uid that is read. -/
theorem selfFriend_unconsented {users : KeyedTable UserInfo.uid}
    {user : UserInfo} (huser : user ∈ users) (hnul : ¬ NulFree user.uid) :
    ∃ ops, Runs.EachStep step AnswersRequest (start users) ops ∧
      ¬ Runs.Always step ConsentKept (start users) ops := by
  obtain ⟨asked, friends, hasked, hfriends, hpending, -⟩ :=
    @run_selfFriend users user.uid ⟨user, huser, rfl⟩
  have hkey : asked.db.friendships.HasKey (user.uid, user.uid) :=
    ⟨_, hpending, rfl⟩
  refine ⟨[_, _], Runs.EachStep.cons hasked trivial
    (Runs.EachStep.cons hfriends (.inl hkey) Runs.eachStep_nil), ?_⟩
  intro halways
  have hrun : Runs.runFrom step (start users)
      [.addFriendRequest user.uid user.uid "",
        .respondFriendRequest user.uid user.uid true] = some friends := by
    simp [hasked, hfriends]
  obtain ⟨requester, responder, message, hpair, hcalls⟩ :=
    halways _ _ (List.prefix_refl _) hrun user.uid (cstr user.uid)
      (isFriend_of_accept hfriends (.inl hkey))
  have hcall : .respondFriendRequest requester responder true ∈
      friends.past := (List.takeWhile_sublist _).subset
    (hcalls.subset (by simp))
  obtain ⟨-, rfl⟩ := step_eq_some hfriends
  obtain ⟨-, rfl⟩ := step_eq_some hasked
  have hsame : requester = user.uid ∧ responder = user.uid := by
    simpa [start] using hcall
  refine hnul (cstr_eq_self.mp ?_)
  rcases hpair with ⟨-, hread⟩ | ⟨hread, -⟩
  · exact hread.symm.trans hsame.2
  · exact hread.symm.trans hsame.1

/-- Friendship needs consent along the sequences of calls in which every
acceptance finds a row of its pair in the table and the uids of the pair have
no NUL.  Where no registered uid has one, these are exactly the sequences
along which it needs consent, and only there. -/
theorem consent_kept_iff (users : KeyedTable UserInfo.uid) :
    (∀ ops, Runs.EachStep step AnswersReadably (start users) ops →
      Runs.Always step ConsentKept (start users) ops) ∧
    ((∀ ops, Runs.Always step ConsentKept (start users) ops ↔
        Runs.EachStep step AnswersRequest (start users) ops) ↔
      NulFreeUids users) := by
  refine ⟨fun ops => consentKept_of_answersReadably users, ?_, ?_⟩
  · intro hexact user huser
    by_contra hnul
    obtain ⟨ops, hanswers, hbroken⟩ := selfFriend_unconsented huser hnul
    exact hbroken ((hexact ops).mpr hanswers)
  · intro hnul ops
    have hfree (history : FriendHistory)
        (hhistory : history.db.users = users) {uid : String}
        (huid : history.db.Registered uid) : NulFree uid := by
      obtain ⟨user, huser, rfl⟩ := huid
      rw [hhistory] at huser
      exact hnul user huser
    apply @Runs.always_iff_eachStep_of_inv _ _ step
      (fun history => history.RowsExplained ∧ history.Readable ∧
        history.db.users = users)
    · exact ⟨start_rowsExplained users, start_readable users, rfl⟩
    · rintro history ⟨hexplained, hreadable, -⟩
      exact hexplained.consentKept hreadable
    · rintro history op next hstep ⟨hexplained, hreadable, husers⟩ hanswers
      obtain ⟨⟨hfirst, hsecond⟩, -⟩ := step_eq_some hstep
      exact ⟨hexplained.step hstep hanswers,
        hreadable.step hstep (hanswers.readably (hfree history husers hfirst)
          (hfree history husers hsecond)),
        (step_users hstep).trans husers⟩
    · rintro history op next hstep ⟨hexplained, -, husers⟩ hconsent
      obtain ⟨⟨hfirst, -⟩, -⟩ := step_eq_some hstep
      exact answersRequest_of_consentKept hstep hexplained
        (hfree history husers hfirst) hconsent

theorem unrequested_acceptance_befriends :
    ¬ Runs.Always step ConsentKept
        (start ⟨[{ uid := "alice" }, { uid := "bob" }], by decide⟩)
        [.respondFriendRequest "alice" "bob" true] := by
  intro halways
  have hconsent := halways _ _ (List.prefix_refl _) rfl
  obtain ⟨requester, responder, message, -, hcalls⟩ := hconsent "bob" "alice"
    ⟨{ uid := "alice" }, by decide, rfl⟩
  have hlength : 2 ≤ 1 := hcalls.length_le
  omega

end FriendHistory

end MuduoChat
