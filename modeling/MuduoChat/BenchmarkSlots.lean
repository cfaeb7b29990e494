import MuduoChat.BenchmarkStats
import Mathlib.Algebra.Order.Group.Nat
import Mathlib.Data.List.Nodup

/-!
# The slots of the benchmark

`main` of the load generator splits the requests among the workers; the first
ones get one request more if they cannot be split evenly.  A worker writes the
latency of its `i`-th request to slot `idx * n + i` of a common slice, where
`n` is its own number of requests.

The workers run at the same time, so that the requests are finished in any
order.  Whether each latency survives and is counted is a question about the
slots alone.
-/

namespace MuduoChat

namespace Benchmark

section Split

variable (total concurrency : ℕ)

/-- The `n` of worker `idx`. -/
def requestsOf (idx : ℕ) : ℕ :=
  let reqPerWorker := total / concurrency
  let remainder := total % concurrency
  if idx < remainder then reqPerWorker + 1 else reqPerWorker

def slot (idx i : ℕ) : ℕ :=
  idx * requestsOf total concurrency idx + i

/-- All requests, each with its worker and its number there. -/
def requests : List (ℕ × ℕ) :=
  (List.range concurrency).flatMap fun idx =>
    (List.range (requestsOf total concurrency idx)).map fun i => (idx, i)

end Split

/-! ## Bases

In the mode that registers users the base of a worker is the sum of the
numbers before it.
-/

section Bases

variable (total concurrency : ℕ)

def registerBase : ℕ → ℕ
  | 0 => 0
  | idx + 1 => registerBase idx + requestsOf total concurrency idx

theorem registerBase_eq (idx : ℕ) :
    registerBase total concurrency idx =
      idx * (total / concurrency) + min idx (total % concurrency) := by
  induction idx with
  | zero => simp [registerBase]
  | succ idx ih =>
      rw [registerBase, ih, requestsOf, Nat.succ_mul]
      split <;> omega

/-- The split gives away all requests. -/
theorem registerBase_concurrency (hconcurrency : 0 < concurrency) :
    registerBase total concurrency concurrency = total := by
  have hremainder := Nat.mod_lt total hconcurrency
  rw [registerBase_eq, min_eq_right hremainder.le]
  exact Nat.div_add_mod total concurrency

variable {total concurrency}

theorem registerBase_add_le {idx other : ℕ} (hlt : idx < other) :
    registerBase total concurrency idx + requestsOf total concurrency idx ≤
      registerBase total concurrency other := by
  induction other with
  | zero => exact absurd hlt (Nat.not_lt_zero idx)
  | succ other ih =>
      rw [registerBase]
      rcases Nat.lt_succ_iff_lt_or_eq.mp hlt with hbefore | rfl
      · exact (ih hbefore).trans (Nat.le_add_right _ _)
      · exact le_refl _

/-- No two requests register the same user. -/
theorem registerBase_injective {idx i other j : ℕ}
    (hi : i < requestsOf total concurrency idx)
    (hj : j < requestsOf total concurrency other)
    (hsame : registerBase total concurrency idx + i =
      registerBase total concurrency other + j) : idx = other ∧ i = j := by
  rcases Nat.lt_trichotomy idx other with hlt | rfl | hgt
  · have hle := @registerBase_add_le total concurrency idx other hlt
    omega
  · exact ⟨rfl, Nat.add_left_cancel hsame⟩
  · have hle := @registerBase_add_le total concurrency other idx hgt
    omega

end Bases

/-! ## The workers -/

/-- The time from the start of a request to its response. -/
structure Latency where
  elapsed : Duration
  positive : 0 < elapsed

/-- What comes of a request: an error at some point, or a response that says
whether the login was accepted. -/
inductive Exchange where
  | failed
  | answered (ok : Bool) (latency : Latency)

/-- The worker counts and records accepted logins only. -/
def loginWorker : Exchange → Option Latency
  | .answered true latency => some latency
  | .answered false _ | .failed => none

/-- Every response counts. -/
def tokenLoginWorker : Exchange → Option Latency
  | .answered _ latency => some latency
  | .failed => none

inductive Mode where
  | login
  | token

def Mode.worker : Mode → Exchange → Option Latency
  | .login => loginWorker
  | .token => tokenLoginWorker

/-- What a request adds to the statistics.  A worker that gets no connection
fails all its requests. -/
def outcome (mode : Mode) (dialed : ℕ → Bool)
    (exchange : ℕ → ℕ → Exchange) (request : ℕ × ℕ) : Option Latency :=
  if dialed request.1 then mode.worker (exchange request.1 request.2)
  else none

structure Board where
  latencies : List Duration
  success : ℕ
  fail : ℕ

namespace Board

def start (total : ℕ) : Board :=
  ⟨List.replicate total 0, 0, 0⟩

/-- The end of a request.  A slot outside the slice is a panic. -/
def record (board : Board) (place : ℕ) : Option Latency → Option Board
  | some latency =>
      if place < board.latencies.length then
        some { board with
          latencies := board.latencies.set place latency.elapsed
          success := board.success + 1 }
      else none
  | none => some { board with fail := board.fail + 1 }

end Board

/-- The requests in the order in which they are finished. -/
def runRequests (total concurrency : ℕ) (outcome : ℕ × ℕ → Option Latency)
    (order : List (ℕ × ℕ)) : Option Board :=
  order.foldlM (fun board request =>
    board.record (slot total concurrency request.1 request.2)
      (outcome request)) (.start total)

def successes (outcome : ℕ × ℕ → Option Latency)
    (order : List (ℕ × ℕ)) : List Duration :=
  order.filterMap fun request => (outcome request).map Latency.elapsed

/-! ## Slots and counts -/

section Properties

variable (total concurrency : ℕ)

/-- The slots lie in the slice, and no two requests share one. -/
structure EachSlotOwn : Prop where
  lt_total : ∀ idx i, idx < concurrency →
    i < requestsOf total concurrency idx →
      slot total concurrency idx i < total
  injective : ∀ idx i other j, idx < concurrency →
    i < requestsOf total concurrency idx → other < concurrency →
      j < requestsOf total concurrency other →
        slot total concurrency idx i = slot total concurrency other j →
          idx = other ∧ i = j

/-- However the requests end, and in whatever order, the percentiles are taken
over the latencies of the successful ones, each of them once. -/
def CountsOnce : Prop :=
  ∀ mode dialed exchange order, order.Perm (requests total concurrency) →
    ∃ board, runRequests total concurrency (outcome mode dialed exchange)
        order = some board ∧
      (sortedLatencies board.latencies).Perm
        (successes (outcome mode dialed exchange)
          (requests total concurrency)) ∧
      board.success = (successes (outcome mode dialed exchange)
        (requests total concurrency)).length

end Properties

/-! ## Recording -/

section Recording

/-- A positive entry in a slot that was not used is one more. -/
theorem counted_set {latencies : List Duration} {place : ℕ}
    (latency : Latency) (hfree : latencies[place]? = some 0) :
    (counted (latencies.set place latency.elapsed)).Perm
      (latency.elapsed :: counted latencies) := by
  obtain ⟨hplace, hzero⟩ := List.getElem?_eq_some_iff.mp hfree
  have hsplit : latencies = latencies.take place ++
      0 :: latencies.drop (place + 1) := by
    rw [← hzero]
    simp
  have hset : latencies.set place latency.elapsed = latencies.take place ++
      latency.elapsed :: latencies.drop (place + 1) := by
    rw [List.set_eq_take_append_cons_drop, if_pos hplace]
  have hbefore : counted latencies = counted (latencies.take place) ++
      counted (latencies.drop (place + 1)) := by
    conv_lhs => rw [hsplit]
    simp [counted]
  have hafter : counted (latencies.set place latency.elapsed) =
      counted (latencies.take place) ++
        latency.elapsed :: counted (latencies.drop (place + 1)) := by
    rw [hset]
    simp [counted, latency.positive]
  rw [hafter, hbefore]
  exact List.perm_middle

variable {total concurrency : ℕ} {outcome : ℕ × ℕ → Option Latency}

/-- Requests with slots of their own that are still free are all counted. -/
theorem record_all (order : List (ℕ × ℕ)) :
    ∀ board : Board,
      (order.map fun request =>
        slot total concurrency request.1 request.2).Nodup →
      (∀ request ∈ order, board.latencies[slot total concurrency
        request.1 request.2]? = some 0) →
      ∃ final, order.foldlM (fun board request =>
          board.record (slot total concurrency request.1 request.2)
            (outcome request)) board = some final ∧
        (counted final.latencies).Perm
          (successes outcome order ++ counted board.latencies) ∧
        final.success =
          board.success + (successes outcome order).length := by
  induction order with
  | nil =>
      intro board _ _
      exact ⟨board, rfl, .refl _, rfl⟩
  | cons request order ih =>
      intro board hdistinct hfree
      rw [List.map_cons, List.nodup_cons] at hdistinct
      obtain ⟨hnew, hdistinct⟩ := hdistinct
      obtain ⟨hplace, hrest⟩ := List.forall_mem_cons.mp hfree
      cases houtcome : outcome request with
      | none =>
          obtain ⟨final, hrun, hcounted, hsuccess⟩ :=
            ih { board with fail := board.fail + 1 } hdistinct hrest
          refine ⟨final, ?_, ?_, ?_⟩
          · rw [List.foldlM_cons, houtcome]
            exact hrun
          · simpa [successes, houtcome] using hcounted
          · simpa [successes, houtcome] using hsuccess
      | some latency =>
          have hinside : slot total concurrency request.1 request.2 <
              board.latencies.length :=
            (List.getElem?_eq_some_iff.mp hplace).1
          have hfree' : ∀ other ∈ order,
              (board.latencies.set (slot total concurrency request.1 request.2)
                latency.elapsed)[slot total concurrency other.1 other.2]? =
                  some 0 := by
            intro other hother
            have hne : slot total concurrency request.1 request.2 ≠
                slot total concurrency other.1 other.2 := fun hsame =>
              hnew (List.mem_map.mpr ⟨other, hother, hsame.symm⟩)
            rw [List.getElem?_set_ne hne]
            exact hrest other hother
          obtain ⟨final, hrun, hcounted, hsuccess⟩ := ih
            { board with
              latencies := board.latencies.set
                (slot total concurrency request.1 request.2) latency.elapsed
              success := board.success + 1 } hdistinct hfree'
          have hhead : successes outcome (request :: order) =
              latency.elapsed :: successes outcome order := by
            simp [successes, houtcome]
          refine ⟨final, ?_, ?_, ?_⟩
          · rw [List.foldlM_cons, houtcome, Board.record, if_pos hinside]
            exact hrun
          · rw [hhead]
            have hset := (counted_set latency hplace).append_left
              (successes outcome order)
            exact hcounted.trans (hset.trans List.perm_middle)
          · rw [hsuccess, hhead, List.length_cons]
            exact Nat.succ_add_eq_add_succ board.success _

end Recording

/-! ## Slots of one's own -/

section Own

variable {total concurrency : ℕ}

theorem mem_requests {request : ℕ × ℕ} :
    request ∈ requests total concurrency ↔
      request.1 < concurrency ∧
        request.2 < requestsOf total concurrency request.1 := by
  obtain ⟨idx, i⟩ := request
  simp [requests]

theorem nodup_requests (total concurrency : ℕ) :
    (requests total concurrency).Nodup := by
  refine List.nodup_flatMap.mpr ⟨?_, ?_⟩
  · intro idx _
    refine List.nodup_range.map ?_
    intro i j hsame
    exact congrArg Prod.snd hsame
  · refine List.nodup_range.imp ?_
    intro idx other hne request hfirst hsecond
    obtain ⟨i, -, rfl⟩ := List.mem_map.mp hfirst
    obtain ⟨j, -, hsame⟩ := List.mem_map.mp hsecond
    exact hne (congrArg Prod.fst hsame).symm

theorem EachSlotOwn.nodup_slots (hown : EachSlotOwn total concurrency) :
    ((requests total concurrency).map fun request =>
      slot total concurrency request.1 request.2).Nodup := by
  refine (nodup_requests total concurrency).map_on ?_
  intro first hfirst second hsecond hsame
  obtain ⟨hidx, hi⟩ := mem_requests.mp hfirst
  obtain ⟨hother, hj⟩ := mem_requests.mp hsecond
  obtain ⟨hworker, hnumber⟩ := hown.injective _ _ _ _ hidx hi hother hj hsame
  exact Prod.ext hworker hnumber

/-- Where every request has a slot of its own, none is lost and none counted
twice. -/
theorem EachSlotOwn.countsOnce (hown : EachSlotOwn total concurrency) :
    CountsOnce total concurrency := by
  intro mode dialed exchange order horder
  have hdistinct := (horder.map fun request =>
    slot total concurrency request.1 request.2).nodup_iff.mpr hown.nodup_slots
  have hfree : ∀ request ∈ order, (Board.start total).latencies[slot total
      concurrency request.1 request.2]? = some 0 := by
    intro request hrequest
    obtain ⟨hidx, hi⟩ := mem_requests.mp (horder.mem_iff.mp hrequest)
    have hlt := hown.lt_total _ _ hidx hi
    exact List.getElem?_replicate_of_lt hlt
  obtain ⟨board, hrun, hcounted, hsuccess⟩ :=
    @record_all total concurrency (outcome mode dialed exchange) order
      (.start total) hdistinct hfree
  have hnone : counted (Board.start total).latencies = [] := by
    simp [counted, Board.start]
  have hsuccesses : (successes (outcome mode dialed exchange) order).Perm
      (successes (outcome mode dialed exchange)
        (requests total concurrency)) := horder.filterMap _
  rw [hnone, List.append_nil] at hcounted
  refine ⟨board, hrun, ?_, ?_⟩
  · exact (sortedLatencies_spec board.latencies).1.trans
      (hcounted.trans hsuccesses)
  · rw [hsuccess, ← hsuccesses.length_eq]
    exact Nat.zero_add _

/-! ## When the slots are their own -/

/-- No slot lies behind the slice, however the requests are split. -/
theorem slot_lt_total {idx i : ℕ} (hidx : idx < concurrency)
    (hi : i < requestsOf total concurrency idx) :
    slot total concurrency idx i < total := by
  have htotal := Nat.div_add_mod total concurrency
  have hremainder : total % concurrency ≤ concurrency :=
    (Nat.mod_lt _ (Nat.zero_lt_of_lt hidx)).le
  unfold slot requestsOf at *
  dsimp only at *
  by_cases hfirst : idx < total % concurrency
  · rw [if_pos hfirst] at hi ⊢
    have hworkers : (idx + 1) * (total / concurrency + 1) ≤
        total % concurrency * (total / concurrency + 1) :=
      Nat.mul_le_mul_right _ hfirst
    have hblocks : total % concurrency * (total / concurrency) ≤
        concurrency * (total / concurrency) :=
      Nat.mul_le_mul_right _ hremainder
    rw [Nat.succ_mul] at hworkers
    rw [Nat.mul_succ (total % concurrency)] at hworkers
    omega
  · rw [if_neg hfirst] at hi ⊢
    have hworkers : (idx + 1) * (total / concurrency) ≤
        concurrency * (total / concurrency) :=
      Nat.mul_le_mul_right _ hidx
    rw [Nat.succ_mul] at hworkers
    omega

/-- With an even split, or fewer requests than workers, the workers that have
requests have equally many. -/
theorem requestsOf_eq (heven : total % concurrency = 0 ∨
      total < concurrency) :
    ∃ width, ∀ idx i, i < requestsOf total concurrency idx →
      requestsOf total concurrency idx = width := by
  rcases heven with hzero | hfew
  · refine ⟨total / concurrency, fun idx i _ => ?_⟩
    rw [requestsOf, hzero]
    exact if_neg (Nat.not_lt_zero idx)
  · refine ⟨1, fun idx i hi => ?_⟩
    have hnone : total / concurrency = 0 := Nat.div_eq_of_lt hfew
    rw [requestsOf, hnone] at hi ⊢
    by_cases hfirst : idx < total % concurrency
    · exact if_pos hfirst
    · rw [if_neg hfirst] at hi
      exact absurd hi (Nat.not_lt_zero i)

theorem eachSlotOwn_of_even (heven : total % concurrency = 0 ∨
      total < concurrency) : EachSlotOwn total concurrency := by
  refine ⟨fun idx i hidx hi => slot_lt_total hidx hi, ?_⟩
  intro idx i other j _ hi _ hj hsame
  obtain ⟨width, hwidth⟩ := requestsOf_eq heven
  have hidx := hwidth idx i hi
  have hother := hwidth other j hj
  rw [hidx] at hi
  rw [hother] at hj
  rw [slot, slot, hidx, hother] at hsame
  have hpos : 0 < width := Nat.zero_lt_of_lt hi
  have hblock : ∀ worker number, number < width →
      (worker * width + number) / width = worker := by
    intro worker number hnumber
    rw [Nat.add_comm, Nat.add_mul_div_right _ _ hpos,
      Nat.div_eq_of_lt hnumber, Nat.zero_add]
  have hworker : idx = other := by
    rw [← hblock idx i hi, hsame, hblock other j hj]
  subst hworker
  exact ⟨rfl, Nat.add_left_cancel hsame⟩

/-- Otherwise the first worker with the smaller number of requests begins in
the slots of the workers before it. -/
theorem not_eachSlotOwn (hconcurrency : 0 < concurrency)
    (huneven : total % concurrency ≠ 0) (hmany : concurrency ≤ total) :
    ¬ EachSlotOwn total concurrency := by
  intro hown
  have hfirst : ∀ idx, idx < total % concurrency →
      requestsOf total concurrency idx = total / concurrency + 1 :=
    fun idx hidx => if_pos hidx
  have hlater : requestsOf total concurrency (total % concurrency) =
      total / concurrency := if_neg (Nat.lt_irrefl _)
  have hworker : total % concurrency < concurrency :=
    Nat.mod_lt total hconcurrency
  have hrequests : 0 < total / concurrency :=
    Nat.div_pos hmany hconcurrency
  have hbefore : total % concurrency * (total / concurrency) /
      (total / concurrency + 1) < total % concurrency := by
    apply Nat.div_lt_of_lt_mul
    rw [Nat.succ_mul, Nat.mul_comm]
    omega
  have hsame : slot total concurrency
      (total % concurrency * (total / concurrency) /
        (total / concurrency + 1))
      (total % concurrency * (total / concurrency) %
        (total / concurrency + 1)) =
          slot total concurrency (total % concurrency) 0 := by
    rw [slot, slot, hfirst _ hbefore, hlater, Nat.div_add_mod',
      Nat.add_zero]
  obtain ⟨hworkers, -⟩ := hown.injective _ _ _ _ (hbefore.trans hworker)
    (by rw [hfirst _ hbefore]; exact Nat.mod_lt _ (Nat.succ_pos _)) hworker
    (by rw [hlater]; exact hrequests) hsame
  exact absurd hworkers hbefore.ne

/-- Every request has a slot of its own, and the percentiles count each
success once, exactly if the requests are split evenly or there are fewer
requests than workers. -/
theorem slots_own_iff (hconcurrency : 0 < concurrency) :
    (EachSlotOwn total concurrency ∧ CountsOnce total concurrency) ↔
      total % concurrency = 0 ∨ total < concurrency := by
  constructor
  · rintro ⟨hown, -⟩
    by_contra heven
    obtain ⟨huneven, hmany⟩ := not_or.mp heven
    exact not_eachSlotOwn hconcurrency huneven (not_lt.mp hmany) hown
  · intro heven
    have hown := eachSlotOwn_of_even heven
    exact ⟨hown, hown.countsOnce⟩

theorem slots_own_even : EachSlotOwn 10000 50 ∧ CountsOnce 10000 50 :=
  (slots_own_iff (by decide)).mpr (.inl rfl)

/-- Three requests of two workers: the second worker writes where the first
has written, and two of three successes are counted. -/
theorem slots_own_fails_uneven : ¬ EachSlotOwn 3 2 ∧ ¬ CountsOnce 3 2 := by
  constructor
  · intro hown
    obtain ⟨hworker, -⟩ := hown.injective 0 1 1 0 (by decide) (by decide)
      (by decide) (by decide) rfl
    cases hworker
  · intro hcounts
    obtain ⟨board, hrun, hcounted, -⟩ := hcounts .login (fun _ => true)
      (fun _ _ => .answered true ⟨1, by decide⟩) (requests 3 2) (.refl _)
    cases hrun
    have hlength := hcounted.length_eq
    rw [length_sortedLatencies] at hlength
    exact absurd hlength (by decide)

end Own

end Benchmark

end MuduoChat
