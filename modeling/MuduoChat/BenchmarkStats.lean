import Mathlib.Data.List.Induction
import Mathlib.Data.List.Perm.Basic
import Mathlib.Algebra.Order.Ring.Int

/-!
# The statistics of the benchmark

`printStats` of the load generator takes the positive entries of the slice of
latencies, sorts them in place by insertion, and reads the percentiles off the
sorted slice.  The loops are modelled with their indices; an entry of zero
stands for a request without a result.
-/

namespace MuduoChat

namespace Benchmark

/-- Nanoseconds. -/
abbrev Duration := ℤ

/-! ## Insertion -/

/-- The inner loop: larger entries move up by one until the key fits.  The
free place is `j + 1`. -/
def insertKey (key : Duration) :
    (hole : ℕ) → (sorted : List Duration) → hole < sorted.length →
      List Duration
  | 0, sorted, _ => sorted.set 0 key
  | j + 1, sorted, hhole =>
      if sorted[j] > key then
        insertKey key j (sorted.set (j + 1) sorted[j])
          (by rw [List.length_set]; omega)
      else sorted.set (j + 1) key

@[simp] theorem length_insertKey (key : Duration) (hole : ℕ)
    (sorted : List Duration) (hhole : hole < sorted.length) :
    (insertKey key hole sorted hhole).length = sorted.length := by
  induction hole generalizing sorted with
  | zero => simp [insertKey]
  | succ j ih =>
      unfold insertKey
      split
      · rw [ih, List.length_set]
      · rw [List.length_set]

/-- The outer loop, from an index on. -/
def sortFrom (i : ℕ) (sorted : List Duration) : List Duration :=
  if hi : i < sorted.length then
    sortFrom (i + 1) (insertKey sorted[i] i sorted hi)
  else sorted
termination_by sorted.length - i
decreasing_by
  rw [length_insertKey]
  omega

/-- The key finds its place in front of what comes behind the free one. -/
theorem insertKey_spec (key : Duration) (front : List Duration) :
    ∀ (old : Duration) (back : List Duration) (hole : ℕ)
      (hhole : hole < (front ++ old :: back).length), hole = front.length →
        ∃ merged, insertKey key hole (front ++ old :: back) hhole =
            merged ++ back ∧
          merged.Perm (key :: front) ∧
          (front.Pairwise (· ≤ ·) → merged.Pairwise (· ≤ ·)) := by
  induction front using List.reverseRecOn with
  | nil =>
      rintro old back hole hhole rfl
      exact ⟨[key], rfl, .refl _, fun _ => List.pairwise_singleton _ key⟩
  | append_singleton front last ih =>
      intro old back hole hhole hfront
      have hsucc : hole = front.length + 1 := by simpa using hfront
      subst hsucc
      have hset : ∀ value : Duration,
          (front ++ [last] ++ old :: back).set (front.length + 1) value =
            front ++ last :: value :: back := by
        intro value
        rw [List.append_assoc, List.set_append_right _ _ (by omega),
          Nat.add_sub_cancel_left]
        rfl
      have hread : (front ++ [last] ++ old :: back).get
          ⟨front.length, Nat.lt_of_succ_lt hhole⟩ = last := by
        simp
      rw [List.get_eq_getElem] at hread
      simp only [insertKey, hread, hset]
      by_cases hlast : last > key
      · rw [if_pos hlast]
        obtain ⟨merged, hmerged, hperm, hsorted⟩ :=
          ih last (last :: back) front.length
            (by rw [List.length_append]; simp) rfl
        refine ⟨merged ++ [last], ?_, hperm.append_right [last], ?_⟩
        · rw [hmerged, List.append_assoc]
          rfl
        · intro hfront
          obtain ⟨hbefore, -, hle⟩ := List.pairwise_append.mp hfront
          refine List.pairwise_append.mpr
            ⟨hsorted hbefore, List.pairwise_singleton _ last, ?_⟩
          intro value hvalue other hother
          rw [List.mem_singleton.mp hother]
          rcases List.mem_cons.mp (hperm.mem_iff.mp hvalue) with rfl | hmem
          · exact le_of_lt hlast
          · exact hle value hmem last List.mem_cons_self
      · rw [if_neg hlast]
        have hplace : front ++ [last, key] = (front ++ [last]) ++ [key] := by
          rw [List.append_assoc]
          rfl
        refine ⟨front ++ [last, key], by simp, ?_, ?_⟩
        · rw [hplace]
          exact List.perm_append_singleton key (front ++ [last])
        · intro hfront
          rw [hplace]
          refine List.pairwise_append.mpr
            ⟨hfront, List.pairwise_singleton _ key, ?_⟩
          intro value hvalue other hother
          rw [List.mem_singleton.mp hother]
          have hkey : last ≤ key := not_lt.mp hlast
          rcases List.mem_append.mp hvalue with hmem | hmem
          · have hle := (List.pairwise_append.mp hfront).2.2 value hmem last
              List.mem_cons_self
            exact le_trans hle hkey
          · rw [List.mem_singleton.mp hmem]
            exact hkey

/-- The entries before the index are sorted, and no entry is lost. -/
theorem sortFrom_spec (back : List Duration) :
    ∀ front : List Duration, front.Pairwise (· ≤ ·) →
      (sortFrom front.length (front ++ back)).Perm (front ++ back) ∧
        (sortFrom front.length (front ++ back)).Pairwise (· ≤ ·) := by
  induction back with
  | nil =>
      intro front hfront
      rw [sortFrom, dif_neg (by simp), List.append_nil]
      exact ⟨.refl _, hfront⟩
  | cons key back ih =>
      intro front hfront
      have hindex : front.length < (front ++ key :: back).length := by
        simp
      have hkey : (front ++ key :: back).get ⟨front.length, hindex⟩ = key := by
        simp
      rw [List.get_eq_getElem] at hkey
      obtain ⟨merged, hmerged, hperm, hsorted⟩ :=
        insertKey_spec key front key back front.length hindex rfl
      have hlength : merged.length = front.length + 1 := by
        rw [hperm.length_eq, List.length_cons]
      obtain ⟨hrest, hresult⟩ := ih merged (hsorted hfront)
      rw [sortFrom, dif_pos hindex, hkey, hmerged, ← hlength]
      have hmoved : (merged ++ back).Perm (front ++ key :: back) :=
        (hperm.append_right back).trans List.perm_middle.symm
      exact ⟨hrest.trans hmoved, hresult⟩

/-! ## The report -/

/-- The entries that the statistics are about. -/
def counted (latencies : List Duration) : List Duration :=
  latencies.filter fun l => l > 0

def sortedLatencies (latencies : List Duration) : List Duration :=
  sortFrom 1 (counted latencies)

/-- The slice of the percentiles is sorted and has every positive entry. -/
theorem sortedLatencies_spec (latencies : List Duration) :
    (sortedLatencies latencies).Perm (counted latencies) ∧
      (sortedLatencies latencies).Pairwise (· ≤ ·) := by
  unfold sortedLatencies
  cases counted latencies with
  | nil =>
      rw [sortFrom, dif_neg (by simp)]
      exact ⟨.refl _, List.Pairwise.nil⟩
  | cons first back =>
      exact sortFrom_spec back [first] (List.pairwise_singleton _ first)

@[simp] theorem length_sortedLatencies (latencies : List Duration) :
    (sortedLatencies latencies).length = (counted latencies).length :=
  (sortedLatencies_spec latencies).1.length_eq

theorem percentile_lt {count : ℕ} (hcount : 0 < count) (percent : Fin 100) :
    count * percent / 100 < count := by
  have hpercent := percent.isLt
  have hless : count * percent < count * 100 :=
    Nat.mul_lt_mul_of_pos_left hpercent hcount
  omega

def percentile (sorted : List Duration) (hcount : 0 < sorted.length)
    (percent : Fin 100) : Duration :=
  sorted.get ⟨sorted.length * percent / 100, percentile_lt hcount percent⟩

structure LatencyStats where
  avg : Duration
  p50 : Duration
  p90 : Duration
  p95 : Duration
  p99 : Duration

/-- The lines about latencies, which are left out if none is positive. -/
def printStats (latencies : List Duration) : Option LatencyStats :=
  if hcount : 0 < (counted latencies).length then
    have hsorted : 0 < (sortedLatencies latencies).length := by
      rw [length_sortedLatencies]
      exact hcount
    some {
      avg := (counted latencies).sum.tdiv (counted latencies).length
      p50 := percentile (sortedLatencies latencies) hsorted 50
      p90 := percentile (sortedLatencies latencies) hsorted 90
      p95 := percentile (sortedLatencies latencies) hsorted 95
      p99 := percentile (sortedLatencies latencies) hsorted 99 }
  else none

end Benchmark

end MuduoChat
