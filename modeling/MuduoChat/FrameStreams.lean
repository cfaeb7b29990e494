import Mathlib.Data.List.Basic

/-!
# Reading frames from a byte stream

A frame reader looks at the head of a buffer and finds a complete frame, an
incomplete one, or something that can never become a frame.  The two laws a
reader carries say that a verdict other than *incomplete* is not revised when
more input arrives.  They suffice for the one fact that matters on a stream
socket: the frames read, and what is left over, depend on the bytes alone and
not on the pieces in which they arrived.
-/

namespace MuduoChat

inductive FrameHead (φ : Type*) where
  | frame (payload : φ) (size : ℕ)
  | incomplete
  | invalid

structure FrameReader (β φ : Type*) where
  head : List β → FrameHead φ
  size_pos : ∀ {buffer payload size},
    head buffer = .frame payload size → 0 < size
  size_le : ∀ {buffer payload size},
    head buffer = .frame payload size → size ≤ buffer.length
  frame_append : ∀ {buffer payload size} (more : List β),
    head buffer = .frame payload size →
      head (buffer ++ more) = .frame payload size
  invalid_append : ∀ {buffer} (more : List β),
    head buffer = .invalid → head (buffer ++ more) = .invalid

namespace FrameReader

variable {β φ : Type*} (reader : FrameReader β φ)

theorem length_drop_lt {buffer : List β} {payload : φ} {size : ℕ}
    (hhead : reader.head buffer = .frame payload size) :
    (buffer.drop size).length < buffer.length := by
  have hpos := reader.size_pos hhead
  have hle := reader.size_le hhead
  simp only [List.length_drop]
  omega

def drain (buffer : List β) : List φ × List β :=
  match _hhead : reader.head buffer with
  | .frame payload size =>
      let tail := drain (buffer.drop size)
      (payload :: tail.1, tail.2)
  | .incomplete => ([], buffer)
  | .invalid => ([], buffer)
termination_by buffer.length
decreasing_by exact reader.length_drop_lt _hhead

def feed : List β → List (List β) → List φ × List β
  | buffer, [] => ([], buffer)
  | buffer, chunk :: chunks =>
      let first := reader.drain (buffer ++ chunk)
      let later := feed first.2 chunks
      (first.1 ++ later.1, later.2)

theorem drain_of_frame {buffer : List β} {payload : φ} {size : ℕ}
    (hhead : reader.head buffer = .frame payload size) :
    reader.drain buffer =
      (payload :: (reader.drain (buffer.drop size)).1,
        (reader.drain (buffer.drop size)).2) := by
  rw [drain]
  split <;> simp_all

theorem drain_of_incomplete {buffer : List β}
    (hhead : reader.head buffer = .incomplete) :
    reader.drain buffer = ([], buffer) := by
  rw [drain]
  split <;> simp_all

theorem drain_of_invalid {buffer : List β}
    (hhead : reader.head buffer = .invalid) :
    reader.drain buffer = ([], buffer) := by
  rw [drain]
  split <;> simp_all

/-- Induction along the frames at the head of a buffer. -/
theorem frameInduction {motive : List β → Prop}
    (frame : ∀ buffer payload size,
      reader.head buffer = .frame payload size →
        motive (buffer.drop size) → motive buffer)
    (incomplete : ∀ buffer,
      reader.head buffer = .incomplete → motive buffer)
    (invalid : ∀ buffer, reader.head buffer = .invalid → motive buffer)
    (buffer : List β) : motive buffer := by
  induction hlength : buffer.length using Nat.strongRecOn
    generalizing buffer with
  | _ length ih =>
      subst hlength
      cases hhead : reader.head buffer with
      | frame payload size =>
          exact frame buffer payload size hhead
            (ih (buffer.drop size).length
              (reader.length_drop_lt hhead) _ rfl)
      | incomplete => exact incomplete buffer hhead
      | invalid => exact invalid buffer hhead

theorem head_residual (buffer : List β) :
    reader.head (reader.drain buffer).2 = .incomplete ∨
      reader.head (reader.drain buffer).2 = .invalid := by
  induction buffer using reader.frameInduction with
  | frame buffer payload size hhead ih =>
      rw [reader.drain_of_frame hhead]
      exact ih
  | incomplete buffer hhead =>
      rw [reader.drain_of_incomplete hhead]
      exact Or.inl hhead
  | invalid buffer hhead =>
      rw [reader.drain_of_invalid hhead]
      exact Or.inr hhead

/-- Input may be drained in two halves, the rest of the first half standing
in front of the second. -/
theorem drain_append (buffer more : List β) :
    reader.drain (buffer ++ more) =
      ((reader.drain buffer).1 ++
          (reader.drain ((reader.drain buffer).2 ++ more)).1,
        (reader.drain ((reader.drain buffer).2 ++ more)).2) := by
  induction buffer using reader.frameInduction with
  | frame buffer payload size hhead ih =>
      have hdrop :
          (buffer ++ more).drop size = buffer.drop size ++ more :=
        List.drop_append_of_le_length (reader.size_le hhead)
      rw [reader.drain_of_frame (reader.frame_append more hhead), hdrop, ih,
        reader.drain_of_frame hhead]
      simp
  | incomplete buffer hhead =>
      rw [reader.drain_of_incomplete hhead]
      simp
  | invalid buffer hhead =>
      rw [reader.drain_of_invalid hhead]
      simp

/-- The pieces in which the input arrives do not matter. -/
theorem feed_eq_drain
    (buffer : List β) (hrest : (reader.drain buffer) = ([], buffer))
    (chunks : List (List β)) :
    reader.feed buffer chunks = reader.drain (buffer ++ chunks.flatten) := by
  induction chunks generalizing buffer with
  | nil => simpa [feed] using hrest.symm
  | cons chunk chunks ih =>
      have hresidual :
          reader.drain (reader.drain (buffer ++ chunk)).2 =
            ([], (reader.drain (buffer ++ chunk)).2) := by
        rcases reader.head_residual (buffer ++ chunk) with hhead | hhead
        · exact reader.drain_of_incomplete hhead
        · exact reader.drain_of_invalid hhead
      rw [List.flatten_cons, ← List.append_assoc, drain_append]
      simp only [feed]
      rw [ih _ hresidual]

theorem feed_of_invalid {buffer : List β}
    (hhead : reader.head buffer = .invalid) (chunks : List (List β)) :
    reader.feed buffer chunks = ([], buffer ++ chunks.flatten) := by
  rw [reader.feed_eq_drain buffer (reader.drain_of_invalid hhead),
    reader.drain_of_invalid (reader.invalid_append _ hhead)]

/-- Reading undoes writing, frame by frame, in front of any further input. -/
theorem drain_frames_append
    (write : φ → List β) (payloads : List φ)
    (hwrite : ∀ payload ∈ payloads,
      reader.head (write payload) =
        .frame payload (write payload).length)
    (rest : List β) :
    reader.drain (payloads.flatMap write ++ rest) =
      (payloads ++ (reader.drain rest).1, (reader.drain rest).2) := by
  induction payloads with
  | nil => simp
  | cons payload payloads ih =>
      have hframe := hwrite payload (by simp)
      have htail := ih fun other hmem => hwrite other (by simp [hmem])
      rw [List.flatMap_cons, List.append_assoc,
        reader.drain_of_frame (reader.frame_append _ hframe),
        List.drop_left, htail]
      simp

end FrameReader

end MuduoChat
