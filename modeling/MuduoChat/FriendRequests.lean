import MuduoChat.FriendLists
import Mathlib.Data.Set.Function

/-!
# Requests and the rows they meet

A pair of users has up to two rows, one for each direction.  A new request is
inserted only when there is no row in its direction, and an acceptance writes
the row of the request and inserts the row of the other direction, again only
when there is none.

A row that is already there therefore keeps its status.  When both users have
asked, accepting one request leaves the other one open; and a request that was
refused once blocks every later one, which is reported as sent all the same.

The calls name the uids as they are stored, and the lists hold them up to the
first NUL.  Two registered uids that are read alike are one entry, be it of a
friend or of a request.
-/

namespace MuduoChat

namespace FriendHistory

variable {history next : FriendHistory} {op : FriendOp} {ops : List FriendOp}

/-! ## Answers to pending requests -/

/-- A response is given to a request that is pending. -/
def AnswersPending (history : FriendHistory) : FriendOp → Prop
  | .respondFriendRequest requester responder _ =>
      ⟨requester, responder, 0⟩ ∈ history.db.friendships
  | _ => True

instance (history : FriendHistory) (op : FriendOp) :
    Decidable (history.AnswersPending op) :=
  match op with
  | .respondFriendRequest requester responder _ =>
      inferInstanceAs (Decidable (FriendshipRow.mk requester responder 0 ∈
        history.db.friendships.rows))
  | .addFriendRequest .. | .removeFriends .. => .isTrue trivial

/-- A call as users make it who answer only what they were asked. -/
def answeringStep (history : FriendHistory) (op : FriendOp) :
    Option FriendHistory :=
  if history.AnswersPending op then history.step op else none

/-- No request is pending between two friends. -/
def NoneOpen (history : FriendHistory) : Prop :=
  ∀ uid friend, friend ∈ history.db.friendUids uid →
    friend ∉ history.db.pendingUids uid ∧
      uid ∉ history.db.pendingUids friend

/-- Nobody accepts a request while another of their own to the same user is
pending. -/
def Uncrossed (history : FriendHistory) : FriendOp → Prop
  | .respondFriendRequest requester responder true =>
      requester = responder ∨
        ⟨responder, requester, 0⟩ ∉ history.db.friendships
  | _ => True

/-- No two registered uids are read alike. -/
def ReadApart (users : KeyedTable UserInfo.uid) : Prop :=
  Set.InjOn cstr { uid | users.HasKey uid }

/-- An accepted row has a row in the other direction, which is not pending. -/
structure SettledBothWays (users : KeyedTable UserInfo.uid)
    (history : FriendHistory) : Prop where
  users : history.db.users = users
  linked : history.db.UsersLinked
  mirrored : ∀ uid friend, ⟨uid, friend, 1⟩ ∈ history.db.friendships →
    ∃ status, status ≠ 0 ∧ ⟨friend, uid, status⟩ ∈ history.db.friendships

theorem answeringStep_eq_some (hstep : history.answeringStep op = some next) :
    history.AnswersPending op ∧ history.step op = some next :=
  Option.ite_none_right_eq_some.mp hstep

/-- The rows of one direction agree. -/
theorem status_eq {table : KeyedTable FriendshipRow.pair}
    {requester target : String} {status other : Nat}
    (hrow : ⟨requester, target, status⟩ ∈ table)
    (hother : ⟨requester, target, other⟩ ∈ table) : status = other := by
  have hsame := KeyedTable.eq_of_key_eq hrow hother rfl
  cases hsame
  rfl

theorem exists_row {table : KeyedTable FriendshipRow.pair}
    {requester target : String} (hkey : table.HasKey (requester, target)) :
    ∃ status, ⟨requester, target, status⟩ ∈ table := by
  obtain ⟨⟨asking, asked, status⟩, hrow, hpair⟩ := hkey
  cases hpair
  exact ⟨status, hrow⟩

theorem SettledBothWays.closed {users : KeyedTable UserInfo.uid}
    {uid friend : String} (hhistory : history.SettledBothWays users)
    (hlink : s(uid, friend) ∈ history.db.links) :
    ⟨friend, uid, 0⟩ ∉ history.db.friendships ∧
      ⟨uid, friend, 0⟩ ∉ history.db.friendships := by
  have hclosed (uid friend : String)
      (haccepted : ⟨uid, friend, 1⟩ ∈ history.db.friendships) :
      ⟨uid, friend, 0⟩ ∉ history.db.friendships ∧
        ⟨friend, uid, 0⟩ ∉ history.db.friendships := by
    constructor
    · intro hopen
      have hstatus := status_eq haccepted hopen
      cases hstatus
    · intro hopen
      obtain ⟨status, hstatus, hrow⟩ := hhistory.mirrored uid friend haccepted
      exact hstatus (status_eq hrow hopen)
  rcases Database.mem_links.mp hlink with hrow | hrow
  · exact (hclosed uid friend hrow).symm
  · exact hclosed friend uid hrow

theorem SettledBothWays.noneOpen {users : KeyedTable UserInfo.uid}
    (hhistory : history.SettledBothWays users) (hapart : ReadApart users) :
    history.NoneOpen := by
  have hrows (row : FriendshipRow) (hrow : row ∈ history.db.friendships) :
      users.HasKey row.requesterUid ∧ users.HasKey row.targetUid := by
    rw [← hhistory.users]
    exact hhistory.linked row hrow
  intro uid friend hfriend
  obtain ⟨other, hlink, rfl⟩ :=
    (Database.mem_friendUids hhistory.linked).mp hfriend
  have hends : users.HasKey uid ∧ users.HasKey other := by
    rcases Database.mem_links.mp hlink with hrow | hrow
    · exact hrows _ hrow
    · exact (hrows _ hrow).symm
  obtain ⟨hopen, hmirror⟩ := hhistory.closed hlink
  constructor
  · intro hpending
    obtain ⟨asking, hrow, hread⟩ := Database.mem_pendingUids.mp hpending
    obtain rfl := hapart (hrows _ hrow).1 hends.2 hread
    exact hopen hrow
  · intro hpending
    obtain ⟨asking, hrow, rfl⟩ := Database.mem_pendingUids.mp hpending
    -- Both uids of the row are read as they are stored.
    have hasking := hapart (hrows _ hrow).1 hends.1 (cstr_cstr asking).symm
    have hother := hapart (hrows _ hrow).2 hends.2 (cstr_cstr other)
    dsimp only at hother
    rw [hother] at hrow
    exact hmirror (hasking ▸ hrow)

/-! ## What an answer leaves in the table -/

section Answers

variable {requester responder : String} {row : FriendshipRow}

theorem mem_of_accept
    (hstep : history.step (.respondFriendRequest requester responder true) =
      some next) :
    row ∈ next.db.friendships ↔
      (row ∈ history.db.friendships ∧
          ¬ (row.requesterUid = requester ∧ row.targetUid = responder) ∨
        row = ⟨requester, responder, 1⟩ ∧
          history.db.friendships.HasKey (requester, responder)) ∨
      row = ⟨responder, requester, 1⟩ ∧
        ¬ history.db.friendships.HasKey (responder, requester) := by
  obtain rfl := step_leaves hstep
  simp only [leaves]
  rw [KeyedTable.mem_insertIgnore]
  refine or_congr Database.mem_updateStatus ?_
  rw [and_comm]
  refine and_congr_right fun _ => not_congr ?_
  exact KeyedTable.hasKey_update

theorem mem_of_reject
    (hstep : history.step (.respondFriendRequest requester responder false) =
      some next) :
    row ∈ next.db.friendships ↔
      row ∈ history.db.friendships ∧
          ¬ (row.requesterUid = requester ∧ row.targetUid = responder) ∨
        row = ⟨requester, responder, 2⟩ ∧
          history.db.friendships.HasKey (requester, responder) := by
  obtain rfl := step_leaves hstep
  exact Database.mem_updateStatus

theorem mem_of_add {message : String}
    (hstep : history.step (.addFriendRequest requester responder message) =
      some next) :
    row ∈ next.db.friendships ↔
      row ∈ history.db.friendships ∨
        row = ⟨requester, responder, 0⟩ ∧
          ¬ history.db.friendships.HasKey (requester, responder) := by
  obtain rfl := step_leaves hstep
  simp only [leaves]
  rw [KeyedTable.mem_insertIgnore, and_comm (a := row = _)]
  rfl

theorem mem_of_remove {uid₁ uid₂ : String}
    (hstep : history.step (.removeFriends uid₁ uid₂) = some next) :
    row ∈ next.db.friendships ↔
      row ∈ history.db.friendships ∧
        s(row.requesterUid, row.targetUid) ≠ s(uid₁, uid₂) := by
  obtain ⟨_, rfl⟩ := step_eq_some hstep
  exact Database.mem_deleteFriendships

end Answers

/-! ## Friends have no open requests -/

theorem SettledBothWays.accept {users : KeyedTable UserInfo.uid}
    {requester responder : String}
    (hhistory : history.SettledBothWays users)
    (hstep : history.step (.respondFriendRequest requester responder true) =
      some next)
    (hpending : ⟨requester, responder, 0⟩ ∈ history.db.friendships)
    (huncrossed : requester = responder ∨
      ⟨responder, requester, 0⟩ ∉ history.db.friendships) :
    next.SettledBothWays users where
  users := (step_users hstep).trans hhistory.users
  linked := step_usersLinked hhistory.linked hstep
  mirrored := by
    have hkey : history.db.friendships.HasKey (requester, responder) :=
      ⟨_, hpending, rfl⟩
    have hwritten : ⟨requester, responder, 1⟩ ∈ next.db.friendships :=
      (mem_of_accept hstep).mpr (.inl (.inr ⟨rfl, hkey⟩))
    have hkept {uid friend : String} {status : Nat} (hstatus : status ≠ 0)
        (hrow : ⟨uid, friend, status⟩ ∈ history.db.friendships) :
        ∃ other, other ≠ 0 ∧ ⟨uid, friend, other⟩ ∈ next.db.friendships := by
      by_cases hselected : uid = requester ∧ friend = responder
      · obtain ⟨rfl, rfl⟩ := hselected
        exact ⟨1, one_ne_zero, hwritten⟩
      · exact ⟨status, hstatus,
          (mem_of_accept hstep).mpr (.inl (.inl ⟨hrow, hselected⟩))⟩
    intro uid friend haccepted
    rcases (mem_of_accept hstep).mp haccepted with
      (⟨hold, _⟩ | ⟨heq, _⟩) | ⟨heq, _⟩
    · obtain ⟨status, hstatus, hrow⟩ := hhistory.mirrored uid friend hold
      exact hkept hstatus hrow
    · cases heq
      by_cases hself : requester = responder
      · subst hself
        exact ⟨1, one_ne_zero, hwritten⟩
      · by_cases hmirror : history.db.friendships.HasKey
            (responder, requester)
        · obtain ⟨status, hrow⟩ := exists_row hmirror
          -- The row that blocks the mirror row is not a pending request.
          have hstatus : status ≠ 0 := by
            rintro rfl
            exact huncrossed.resolve_left hself hrow
          exact hkept hstatus hrow
        · exact ⟨1, one_ne_zero,
            (mem_of_accept hstep).mpr (.inr ⟨rfl, hmirror⟩)⟩
    · cases heq
      exact ⟨1, one_ne_zero, hwritten⟩

theorem SettledBothWays.step {users : KeyedTable UserInfo.uid}
    (hhistory : history.SettledBothWays users)
    (hstep : history.answeringStep op = some next)
    (huncrossed : history.Uncrossed op) : next.SettledBothWays users := by
  obtain ⟨hpending, hstep⟩ := answeringStep_eq_some hstep
  have husers := (step_users hstep).trans hhistory.users
  cases op with
  | addFriendRequest sender target message =>
      refine ⟨husers, step_usersLinked hhistory.linked hstep, ?_⟩
      intro uid friend haccepted
      rcases (mem_of_add hstep).mp haccepted with hold | ⟨heq, _⟩
      · obtain ⟨status, hstatus, hrow⟩ := hhistory.mirrored uid friend hold
        exact ⟨status, hstatus, (mem_of_add hstep).mpr (.inl hrow)⟩
      · cases heq
  | respondFriendRequest requester responder accepted =>
      cases accepted with
      | true => exact hhistory.accept hstep hpending huncrossed
      | false =>
          refine ⟨husers, step_usersLinked hhistory.linked hstep, ?_⟩
          intro uid friend haccepted
          rcases (mem_of_reject hstep).mp haccepted with
            ⟨hold, _⟩ | ⟨heq, _⟩
          · obtain ⟨status, hstatus, hrow⟩ :=
              hhistory.mirrored uid friend hold
            by_cases hselected : friend = requester ∧ uid = responder
            · obtain ⟨rfl, rfl⟩ := hselected
              exact ⟨2, two_ne_zero,
                (mem_of_reject hstep).mpr (.inr ⟨rfl, _, hrow, rfl⟩)⟩
            · exact ⟨status, hstatus,
                (mem_of_reject hstep).mpr (.inl ⟨hrow, hselected⟩)⟩
          · cases heq
  | removeFriends uid₁ uid₂ =>
      refine ⟨husers, step_usersLinked hhistory.linked hstep, ?_⟩
      intro uid friend haccepted
      obtain ⟨hold, hother⟩ := (mem_of_remove hstep).mp haccepted
      obtain ⟨status, hstatus, hrow⟩ := hhistory.mirrored uid friend hold
      refine ⟨status, hstatus, (mem_of_remove hstep).mpr ⟨hrow, ?_⟩⟩
      rwa [Sym2.eq_swap]

theorem uncrossed_of_noneOpen (hlinked : history.db.UsersLinked)
    (hstep : history.answeringStep op = some next) (hnext : next.NoneOpen) :
    history.Uncrossed op := by
  obtain ⟨hpending, hstep⟩ := answeringStep_eq_some hstep
  cases op with
  | respondFriendRequest requester responder accepted =>
      cases accepted with
      | false => trivial
      | true =>
          by_contra hcrossed
          obtain ⟨hne, hopen⟩ := not_or.mp hcrossed
          rw [not_not] at hopen
          have hkey : history.db.friendships.HasKey (requester, responder) :=
            ⟨_, hpending, rfl⟩
          have hwritten : ⟨requester, responder, 1⟩ ∈
              next.db.friendships :=
            (mem_of_accept hstep).mpr (.inl (.inr ⟨rfl, hkey⟩))
          have hstill : ⟨responder, requester, 0⟩ ∈ next.db.friendships :=
            (mem_of_accept hstep).mpr (.inl (.inl ⟨hopen, fun hsame =>
              hne hsame.2⟩))
          have hfriends : cstr responder ∈ next.db.friendUids requester :=
            (Database.mem_friendUids (step_usersLinked hlinked hstep)).mpr
              ⟨responder, Database.mem_links.mpr (.inl hwritten), rfl⟩
          exact (hnext requester _ hfriends).1
            (Database.mem_pendingUids.mpr ⟨responder, hstill, rfl⟩)
  | _ => trivial

theorem start_settledBothWays (users : KeyedTable UserInfo.uid) :
    (start users).SettledBothWays users where
  users := rfl
  linked := fun _ hrow => absurd hrow KeyedTable.not_mem_empty
  mirrored := fun _ _ hrow => absurd hrow KeyedTable.not_mem_empty

/-- A user befriends themselves, and another one who is read alike asks
them. -/
theorem readAlike_open {users : KeyedTable UserInfo.uid} {first second : String}
    (hfirst : users.HasKey first) (hsecond : users.HasKey second)
    (hread : cstr first = cstr second) (hne : first ≠ second) :
    ∃ ops, Runs.EachStep answeringStep Uncrossed (start users) ops ∧
      ¬ Runs.Always answeringStep NoneOpen (start users) ops := by
  obtain ⟨asked, friends, hasked, hfriends, hpending, hrow⟩ :=
    @run_selfFriend users first hfirst
  have husers : friends.db.users = users :=
    (step_users hfriends).trans (step_users hasked)
  have hregistered {uid : String} (huid : users.HasKey uid) :
      friends.db.Registered uid := by
    unfold Database.Registered
    rwa [husers]
  obtain ⟨last, hlast⟩ : ∃ last,
      friends.step (.addFriendRequest second first "") = some last :=
    ⟨_, if_pos ⟨hregistered hsecond, hregistered hfirst⟩⟩
  have hanswering : asked.answeringStep
      (.respondFriendRequest first first true) = some friends := by
    rw [← hfriends]
    exact if_pos hpending
  have hasks {history : FriendHistory} {sender target message : String} :
      history.answeringStep (.addFriendRequest sender target message) =
        history.step (.addFriendRequest sender target message) :=
    if_pos trivial
  have hrun : Runs.runFrom answeringStep (start users)
      [.addFriendRequest first first "",
        .respondFriendRequest first first true,
        .addFriendRequest second first ""] = some last := by
    simp [hasks, hasked, hanswering, hlast]
  refine ⟨_, Runs.EachStep.cons (hasks.trans hasked) trivial
    (Runs.EachStep.cons hanswering (.inl rfl)
      (Runs.EachStep.cons (hasks.trans hlast) trivial Runs.eachStep_nil)), ?_⟩
  intro halways
  have hfree : ¬ friends.db.friendships.HasKey (second, first) := by
    rintro ⟨row, hmem, hpair⟩
    have hother : s(row.requesterUid, row.targetUid) ≠ s(first, first) := by
      obtain ⟨hrequester, -⟩ := Prod.mk.inj hpair
      rintro hsame
      rcases Sym2.eq_iff.mp hsame with ⟨hfirst, -⟩ | ⟨hfirst, -⟩ <;>
        exact hne (hfirst.symm.trans hrequester)
    have hold := ((step_changesOnly hasked).rows row hother).mp
      (((step_changesOnly hfriends).rows row hother).mp hmem)
    exact KeyedTable.not_mem_empty hold
  have hopen : ⟨second, first, 0⟩ ∈ last.db.friendships :=
    (mem_of_add hlast).mpr (.inr ⟨rfl, hfree⟩)
  have hlinked : last.db.UsersLinked := by
    have hempty : (start users).db.UsersLinked :=
      fun _ hrow => absurd hrow KeyedTable.not_mem_empty
    exact step_usersLinked (step_usersLinked
      (step_usersLinked hempty hasked) hfriends) hlast
  have hfriend : cstr first ∈ last.db.friendUids first :=
    (Database.mem_friendUids hlinked).mpr ⟨first, Database.mem_links.mpr
      (.inl ((mem_of_add hlast).mpr (.inl hrow))), rfl⟩
  exact (halways _ _ (List.prefix_refl _) hrun first _ hfriend).1
    (Database.mem_pendingUids.mpr ⟨second, hopen, hread.symm⟩)

/-- As long as responses are given to pending requests only, friends have no
open requests between them along exactly those sequences of calls in which no
request is accepted by a user whose own request to the same user is pending.
This is so precisely when no two registered uids are read alike. -/
theorem friends_noneOpen_iff (users : KeyedTable UserInfo.uid) :
    (∀ ops, Runs.Always answeringStep NoneOpen (start users) ops ↔
      Runs.EachStep answeringStep Uncrossed (start users) ops) ↔
      ReadApart users := by
  constructor
  · intro hexact first hfirst second hsecond hread
    by_contra hne
    obtain ⟨ops, huncrossed, hopen⟩ :=
      readAlike_open hfirst hsecond hread hne
    exact hopen ((hexact ops).mpr huncrossed)
  · intro hapart ops
    apply @Runs.always_iff_eachStep_of_inv _ _ answeringStep
      (fun history => history.SettledBothWays users)
    · exact start_settledBothWays users
    · intro history hhistory
      exact hhistory.noneOpen hapart
    · intro history op next hstep hhistory huncrossed
      exact hhistory.step hstep huncrossed
    · intro history op next hstep hhistory hnext
      exact uncrossed_of_noneOpen hhistory.linked hstep hnext

def aliceAndBob : KeyedTable UserInfo.uid :=
  ⟨[{ uid := "alice" }, { uid := "bob" }], by decide⟩

/-- Alice and Bob ask each other and Bob accepts: they are friends, and Bob's
own request is still pending. -/
theorem friends_noneOpen_fails_crossed :
    ¬ Runs.Always answeringStep NoneOpen (start aliceAndBob)
        [.addFriendRequest "alice" "bob" "hi",
          .addFriendRequest "bob" "alice" "hello",
          .respondFriendRequest "alice" "bob" true] := by
  intro halways
  have hclosed := halways _ _ (List.prefix_refl _) rfl "alice" "bob"
    (by decide)
  exact hclosed.1 (by decide)

end FriendHistory

/-! ## Requests reported as sent -/

/-- A method that sends one statement. -/
theorem meets_query {α : Type} {world : NodeWorld} {statement : Statement}
    {unavailable : α} {finish : Option statement.Result → α}
    {post : NodeWorld → α → Prop} (hunavailable : post world unavailable)
    (hresult : ∀ outcome db,
      world.db.effect (.query statement) outcome = some db →
        post { world with db := db } (finish outcome.result)) :
    Prog.Meets NodeWorld.effect post world
      (overSql (withConnection unavailable
        (mysqlQuery statement >>= fun result => pure (finish result)))) := by
  intro conn after heffect
  cases heffect
  cases conn with
  | false => exact hunavailable
  | true =>
      intro outcome after heffect
      obtain ⟨db, hdb, rfl⟩ := Option.map_eq_some_iff.mp heffect
      intro returned after heffect
      cases heffect
      exact hresult outcome db hdb

/-- The service, run on these stores, reports the request as sent. -/
def RequestSucceeds (world : NodeWorld) (sender target message : String)
    (after : NodeWorld) : Prop :=
  ∃ log result, result.success = true ∧
    Prog.Reaches ((FriendService.addFriendRequest sender target message
        ).translate answerRepository) log (.ret result) ∧
      Prog.track NodeWorld.effect world log = some after

/-- What is reported as sent has been handed to the table. -/
theorem RequestSucceeds.inserted {world after : NodeWorld}
    {sender target message : String}
    (hsent : RequestSucceeds world sender target message after) :
    after.db = (world.db.execStatement
      (.insertIgnoreFriendship sender target 0)).1 := by
  obtain ⟨log, result, hsuccess, hreaches, htrack⟩ := hsent
  have hmeets : Prog.Meets NodeWorld.effect (fun after result =>
      result.success = true → after.db = (world.db.execStatement
        (.insertIgnoreFriendship sender target 0)).1) world
      ((FriendService.addFriendRequest sender target message).translate
        answerRepository) := by
    have hlookup : Prog.Meets NodeWorld.effect (fun after _ => after = world)
        world (answerRepository (.userExists target)) := by
      refine meets_query rfl ?_
      intro outcome db heffect
      rcases ChatNode.query_of_effect heffect with
        ⟨_, rfl, _⟩ | ⟨_, _, rfl⟩ <;> rfl
    unfold FriendService.addFriendRequest
    rw [Prog.translate_request_bind]
    refine hlookup.bind ?_
    rintro after found rfl
    cases found with
    | false => exact fun hfailed => nomatch hfailed
    | true =>
        show Prog.Meets NodeWorld.effect _ after (Prog.translate
          answerRepository (repository
            (.addFriendRequest sender target message) >>= _))
        rw [Prog.translate_request_bind]
        have hinsert : Prog.Meets NodeWorld.effect (fun last ok =>
            ok = true → last.db = (after.db.execStatement
              (.insertIgnoreFriendship sender target 0)).1) after
            (answerRepository (.addFriendRequest sender target message)) := by
          refine meets_query (fun hfailed => nomatch hfailed) ?_
          intro outcome db heffect hanswered
          obtain ⟨result, hresult⟩ := Option.isSome_iff_exists.mp hanswered
          exact (ChatNode.executed_of_result heffect hresult).2.1
        refine hinsert.bind ?_
        intro last ok hlast hsuccess
        exact hlast hsuccess
  exact hmeets.returns hreaches htrack hsuccess

/-- A request to a registered user can be sent from every state. -/
theorem requestSucceeds_of_registered {world : NodeWorld}
    {sender target : String} (htarget : world.db.Registered target)
    (message : String) :
    RequestSucceeds world sender target message
      { world with
        db := (world.db.execStatement
          (.insertIgnoreFriendship sender target 0)).1 } := by
  obtain ⟨user, huser, rfl⟩ := htarget
  obtain ⟨first, rest, hrows⟩ : ∃ first rest,
      (world.db.users.rows.filter fun other => other.uid = user.uid).map
        UserInfo.uid = first :: rest := by
    rw [← List.ne_nil_iff_exists_cons, Ne, List.map_eq_nil_iff]
    exact List.ne_nil_of_mem (List.mem_filter.mpr ⟨huser, by simp⟩)
  have hfound : (world.db.execStatement (.selectUid user.uid)).2 =
      some (some (first :: rest)) := congrArg (fun rows => some (some rows))
    hrows
  refine ⟨[⟨.sql .getConnection, true⟩,
    ⟨.sql (.query (.selectUid user.uid)),
      ⟨true, some (some (first :: rest))⟩⟩,
    ⟨.sql .returnConnection, ()⟩, ⟨.sql .getConnection, true⟩,
    ⟨.sql (.query (.insertIgnoreFriendship sender user.uid 0)),
      ⟨true, some ()⟩⟩,
    ⟨.sql .returnConnection, ()⟩], { success := true }, rfl, ?_, ?_⟩
  · repeat refine .step ?_
    exact .refl _
  · simp only [Prog.track, NodeWorld.effect, Database.effect, hfound,
      if_true, or_true, Option.map_some, Option.bind_some]
    rfl

namespace FriendHistory

variable {history next : FriendHistory} {op : FriendOp} {ops : List FriendOp}
  {sender target : String}

/-- The target can answer the request, or is a friend already. -/
def AskedOrFriend (db : Database) (sender target : String) : Prop :=
  sender ∈ db.pendingUids target ∨ sender ∈ db.friendUids target

/-- An earlier request was refused, and no request the other way was
accepted. -/
def Refused (db : Database) (sender target : String) : Prop :=
  ⟨sender, target, 2⟩ ∈ db.friendships ∧
    ⟨target, sender, 1⟩ ∉ db.friendships

/-! ### The rows a request meets -/

/-- A row is pending, accepted or refused. -/
def StatusesKnown (history : FriendHistory) : Prop :=
  ∀ row ∈ history.db.friendships, row.status ≤ 2

theorem StatusesKnown.step (hhistory : history.StatusesKnown)
    (hstep : history.step op = some next) : next.StatusesKnown := by
  intro row hrow
  cases op with
  | addFriendRequest sender target message =>
      rcases (mem_of_add hstep).mp hrow with hold | ⟨rfl, _⟩
      · exact hhistory row hold
      · exact Nat.zero_le 2
  | respondFriendRequest requester responder accepted =>
      cases accepted with
      | true =>
          rcases (mem_of_accept hstep).mp hrow with
            (⟨hold, _⟩ | ⟨rfl, _⟩) | ⟨rfl, _⟩
          · exact hhistory row hold
          · exact Nat.le_succ 1
          · exact Nat.le_succ 1
      | false =>
          rcases (mem_of_reject hstep).mp hrow with ⟨hold, _⟩ | ⟨rfl, _⟩
          · exact hhistory row hold
          · exact le_rfl
  | removeFriends uid₁ uid₂ =>
      exact hhistory row ((mem_of_remove hstep).mp hrow).1

theorem run_statusesKnown (users : KeyedTable UserInfo.uid)
    (hrun : Runs.runFrom step (start users) ops = some history) :
    history.StatusesKnown := by
  refine Runs.invariant_of_run ?_
    (fun _ _ _ hstep hhistory => StatusesKnown.step hhistory hstep) hrun
  intro row hrow
  exact absurd hrow KeyedTable.not_mem_empty

/-- After the insertion there is a row in the direction of the request. -/
theorem hasKey_insertRequest {db : Database} (hsender : db.Registered sender)
    (htarget : db.Registered target) :
    (db.execStatement (.insertIgnoreFriendship sender target
      0)).1.friendships.HasKey (sender, target) := by
  unfold Database.execStatement
  dsimp only
  rw [if_pos ⟨hsender, htarget⟩]
  exact KeyedTable.hasKey_insertIgnore_self _ _

theorem askedOrFriend_insertRequest {db : Database} (hdb : db.UsersLinked)
    (hafter : (db.execStatement (.insertIgnoreFriendship sender target
      0)).1.UsersLinked)
    (hbefore : AskedOrFriend db sender target) :
    AskedOrFriend (db.execStatement (.insertIgnoreFriendship sender target
      0)).1 sender target := by
  rcases hbefore with hpending | hfriend
  · obtain ⟨other, hrow, hread⟩ := Database.mem_pendingUids.mp hpending
    exact .inl (Database.mem_pendingUids.mpr
      ⟨other, Database.mem_insertFriendship.mpr (.inl hrow), hread⟩)
  · obtain ⟨other, hlink, hread⟩ := (Database.mem_friendUids hdb).mp hfriend
    rw [← Database.links_request] at hlink
    exact .inr ((Database.mem_friendUids hafter).mpr ⟨other, hlink, hread⟩)

end FriendHistory

end MuduoChat
