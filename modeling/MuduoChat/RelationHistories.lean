import MuduoChat.ServerCaches
import MuduoChat.SetHistories

/-!
# Histories of friendships and pending requests

The two relations between users in memory under arbitrary calls.  The friend
sets hold each unordered pair twice, and the last call about a pair in either
order decides whether it is in.

A pending request is kept as one string, the two uids with a colon between
them.  Uids may contain colons themselves, so that one string may stand for
several pairs; the last call about any of them then decides for all.
-/

namespace MuduoChat

namespace SessionManager

variable {calls : List (SetCall (String × String))}

/-! ## Friendships -/

def friendshipCall (manager : SessionManager) :
    SetCall (String × String) → SessionManager
  | .add (uid₁, uid₂) => manager.addFriendship uid₁ uid₂
  | .remove (uid₁, uid₂) => manager.removeFriendship uid₁ uid₂

def afterFriendshipCalls (calls : List (SetCall (String × String))) :
    SessionManager :=
  calls.foldl friendshipCall initial

/-- The two uids of a call, in no order. -/
def unordered (pair : String × String) : Sym2 String :=
  s(pair.1, pair.2)

theorem friendPairs_friendshipCall (manager : SessionManager)
    (call : SetCall (String × String)) :
    (manager.friendshipCall call).friendPairs =
      (call.map unordered).apply manager.friendPairs := by
  cases call with
  | add pair => exact friendPairs_addFriendship
  | remove pair => exact friendPairs_removeFriendship

theorem Mutual.friendshipCall {manager : SessionManager}
    (hmutual : manager.Mutual) (call : SetCall (String × String)) :
    (manager.friendshipCall call).Mutual := by
  cases call with
  | add pair => exact hmutual.addFriendship pair.1 pair.2
  | remove pair => exact hmutual.removeFriendship pair.1 pair.2

theorem mutual_afterFriendshipCalls
    (calls : List (SetCall (String × String))) :
    (afterFriendshipCalls calls).Mutual := by
  induction calls using List.reverseRecOn with
  | nil =>
      intro uid friend hmem
      exact absurd hmem OrderedSet.not_mem_empty
  | append_singleton calls call ih =>
      rw [afterFriendshipCalls, List.foldl_append]
      exact ih.friendshipCall call

/-- The friend sets are a set of unordered pairs. -/
theorem friendPairs_afterFriendshipCalls
    (calls : List (SetCall (String × String))) :
    (afterFriendshipCalls calls).friendPairs =
      SetCall.outcome (calls.map (SetCall.map unordered)) := by
  induction calls using List.reverseRecOn with
  | nil =>
      ext link
      simp [afterFriendshipCalls, friendPairs, initial, SetCall.outcome]
  | append_singleton calls call ih =>
      rw [List.map_append, List.map_singleton, SetCall.outcome_concat, ← ih,
        ← friendPairs_friendshipCall, afterFriendshipCalls,
        List.foldl_append]
      rfl

theorem mem_getFriends_iff {uid friend : String} :
    friend ∈ (afterFriendshipCalls calls).getFriends uid ↔
      SetCall.LastAdds (fun pair => unordered pair = s(uid, friend))
        calls := by
  rw [← SetCall.mem_outcome_map, ← friendPairs_afterFriendshipCalls,
    (mutual_afterFriendshipCalls calls).mem_friendPairs]
  rfl

/-- A user is among the friends of another exactly if the last call about the
two, in either order, made them friends.  The sets are symmetric after every
history, and a call about other users does not change this. -/
theorem friends_follow_lastCall (calls : List (SetCall (String × String))) :
    (∀ uid friend, friend ∈ (afterFriendshipCalls calls).getFriends uid ↔
      SetCall.LastAdds
        (fun pair => pair = (uid, friend) ∨ pair = (friend, uid)) calls) ∧
    (∀ uid friend, friend ∈ (afterFriendshipCalls calls).getFriends uid ↔
      uid ∈ (afterFriendshipCalls calls).getFriends friend) ∧
    ∀ (call : SetCall (String × String)) (uid friend : String),
      call.arg ≠ (uid, friend) → call.arg ≠ (friend, uid) →
        (friend ∈ (afterFriendshipCalls (calls ++ [call])).getFriends uid ↔
          friend ∈ (afterFriendshipCalls calls).getFriends uid) := by
  have hunordered (uid friend : String) :
      (fun pair => unordered pair = s(uid, friend)) =
        fun pair => pair = (uid, friend) ∨ pair = (friend, uid) := by
    funext ⟨uid₁, uid₂⟩
    simp only [unordered, Sym2.eq_iff, Prod.mk.injEq]
  have hlast (calls : List (SetCall (String × String)))
      (uid friend : String) :
      friend ∈ (afterFriendshipCalls calls).getFriends uid ↔
        SetCall.LastAdds
          (fun pair => pair = (uid, friend) ∨ pair = (friend, uid))
            calls := by
    rw [mem_getFriends_iff, hunordered]
  have hmutual := mutual_afterFriendshipCalls calls
  refine ⟨hlast calls, fun uid friend => ⟨hmutual uid friend,
    hmutual friend uid⟩, ?_⟩
  intro call uid friend hfirst hsecond
  have hother : ¬ (call.arg = (uid, friend) ∨ call.arg = (friend, uid)) :=
    not_or.mpr ⟨hfirst, hsecond⟩
  rw [hlast, hlast]
  exact SetCall.lastAdds_concat_of_not hother

/-! ## Pending requests -/

def pendingCall (manager : SessionManager) :
    SetCall (String × String) → SessionManager
  | .add (requester, target) => manager.addPendingRequest requester target
  | .remove (requester, target) =>
      manager.removePendingRequest requester target

def afterPendingCalls (calls : List (SetCall (String × String))) :
    SessionManager :=
  calls.foldl pendingCall initial

/-- The string that stands for a pair. -/
def pendingKey (pair : String × String) : String :=
  pair.1 ++ ":" ++ pair.2

theorem pendingKeys_afterPendingCalls
    (calls : List (SetCall (String × String))) :
    { key | key ∈ (afterPendingCalls calls).pendingFriendRequests } =
      SetCall.outcome (calls.map (SetCall.map pendingKey)) := by
  induction calls using List.reverseRecOn with
  | nil =>
      ext key
      simp [afterPendingCalls, initial, SetCall.outcome]
  | append_singleton calls call ih =>
      rw [List.map_append, List.map_singleton, SetCall.outcome_concat, ← ih,
        afterPendingCalls, List.foldl_append]
      ext key
      cases call with
      | add pair => exact OrderedSet.mem_insert
      | remove pair => exact OrderedSet.mem_erase

theorem hasPendingRequest_iff {requester target : String} :
    (afterPendingCalls calls).hasPendingRequest requester target = true ↔
      SetCall.LastAdds
        (fun pair => pendingKey pair = pendingKey (requester, target))
        calls := by
  rw [← SetCall.mem_outcome_map, ← pendingKeys_afterPendingCalls,
    hasPendingRequest, decide_eq_true_iff]
  rfl

/-- Two uids without a colon can be read off their string. -/
theorem pendingKey_eq_iff {requester target : String}
    (hrequester : ':' ∉ requester.toList) (htarget : ':' ∉ target.toList)
    (pair : String × String) :
    pendingKey pair = pendingKey (requester, target) ↔
      pair = (requester, target) := by
  have hkey : ∀ pair : String × String, (pendingKey pair).toList =
      pair.1.toList ++ ':' :: pair.2.toList := by
    intro pair
    simp [pendingKey]
  rw [← String.toList_inj, hkey, hkey, eq_comm,
    List.append_cons_inj_of_notMem hrequester htarget]
  constructor
  · rintro ⟨hfirst, -, hsecond⟩
    exact (Prod.ext (String.toList_inj.mp hfirst)
      (String.toList_inj.mp hsecond)).symm
  · rintro rfl
    exact ⟨rfl, rfl, rfl⟩

theorem hasPendingRequest_iff_of_noColons {requester target : String}
    (hrequester : ':' ∉ requester.toList) (htarget : ':' ∉ target.toList) :
    (afterPendingCalls calls).hasPendingRequest requester target = true ↔
      SetCall.LastAdds (fun pair => pair = (requester, target)) calls := by
  rw [hasPendingRequest_iff]
  simp only [pendingKey_eq_iff hrequester htarget]

/-- The set answers for a pair as the calls with these two uids have left it,
except when a later call about another pair with the same string has changed
it. -/
theorem pendingRequests_faithful_iff
    (calls : List (SetCall (String × String))) (requester target : String) :
    ((afterPendingCalls calls).hasPendingRequest requester target = true ↔
        SetCall.LastAdds (fun pair => pair = (requester, target)) calls) ↔
      ¬ SetCall.Overruled pendingKey (requester, target) calls := by
  rw [hasPendingRequest_iff]
  exact SetCall.lastAdds_code_iff

/-- The request of one pair is taken for that of another. -/
theorem pendingRequests_faithful_fails_colons :
    (afterPendingCalls [.add ("a:b", "c")]).hasPendingRequest "a" "b:c" =
        true ∧
      ¬ SetCall.LastAdds (fun pair => pair = ("a", "b:c"))
        [.add ("a:b", "c")] := by
  refine ⟨by decide, ?_⟩
  have hother : ¬ (SetCall.add ("a:b", "c")).arg = ("a", "b:c") := by
    decide
  rw [← List.nil_append [SetCall.add ("a:b", "c")],
    SetCall.lastAdds_concat_of_not hother]
  exact atLast_nil

end SessionManager

end MuduoChat
