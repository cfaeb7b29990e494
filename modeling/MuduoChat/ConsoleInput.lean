import Mathlib.Data.List.Basic
import Mathlib.Data.List.TakeWhile

/-!
# Lines from the console

The console client reads its input with `fgets` into an array of 1024 bytes.
A longer line is read in pieces, the rest of it in answer to the next
questions, and of a line with a NUL byte only the part before that is left.
Apart from that, lines are read back one by one as they were typed.
-/

namespace MuduoChat

namespace Console

def newline : UInt8 := 10

/-- `fgets` with room for so many bytes: what it reads, and what is left. -/
def fgets : ℕ → List UInt8 → List UInt8 × List UInt8
  | 0, input => ([], input)
  | _ + 1, [] => ([], [])
  | room + 1, byte :: input =>
      if byte = newline then ([newline], input)
      else (byte :: (fgets room input).1, (fgets room input).2)

/-- The line without its newline.  At the end of the input it is empty. -/
def readLine (input : List UInt8) : List UInt8 × List UInt8 :=
  let read := fgets 1023 input
  let line := read.1.takeWhile (· ≠ 0)
  (if line.getLast? = some newline then line.dropLast else line, read.2)

def readLines : ℕ → List UInt8 → List (List UInt8) × List UInt8
  | 0, input => ([], input)
  | count + 1, input =>
      let first := readLine input
      let later := readLines count first.2
      (first.1 :: later.1, later.2)

/-- The bytes that come of typing these lines. -/
def typed (lines : List (List UInt8)) : List UInt8 :=
  lines.flatMap (· ++ [newline])

@[simp] theorem typed_cons (line : List UInt8) (lines : List (List UInt8)) :
    typed (line :: lines) = line ++ newline :: typed lines := by
  simp [typed]

/-! ## One line -/

theorem length_fgets_le (room : ℕ) (input : List UInt8) :
    (fgets room input).1.length ≤ room := by
  induction room generalizing input with
  | zero => exact Nat.le_refl 0
  | succ room ih =>
      cases input with
      | nil => exact Nat.zero_le _
      | cons byte input =>
          rw [fgets]
          split
          · exact Nat.succ_le_succ (Nat.zero_le room)
          · exact Nat.succ_le_succ (ih input)

/-- A newline is the last byte that is read. -/
theorem newline_not_mem_dropLast (room : ℕ) (input : List UInt8) :
    newline ∉ (fgets room input).1.dropLast := by
  induction room generalizing input with
  | zero => exact List.not_mem_nil
  | succ room ih =>
      cases input with
      | nil => exact List.not_mem_nil
      | cons byte input =>
          rw [fgets]
          split
          · exact List.not_mem_nil
          · rename_i hbyte
            have hlater := ih input
            dsimp only
            cases hread : (fgets room input).1 with
            | nil => exact List.not_mem_nil
            | cons next more =>
                rw [hread] at hlater
                rw [List.dropLast_cons_cons, List.mem_cons, not_or]
                exact ⟨Ne.symm hbyte, hlater⟩

/-- A line with its newline is read whole if there is room for both. -/
theorem fgets_line {room : ℕ} {line : List UInt8} (rest : List UInt8)
    (hline : newline ∉ line) (hroom : line.length < room) :
    fgets room (line ++ newline :: rest) = (line ++ [newline], rest) := by
  induction line generalizing room with
  | nil =>
      obtain ⟨room, rfl⟩ := Nat.exists_eq_succ_of_ne_zero
        (Nat.ne_of_gt hroom)
      simp [fgets]
  | cons byte line ih =>
      obtain ⟨hbyte, hline⟩ := not_or.mp (List.mem_cons.not.mp hline)
      obtain ⟨room, rfl⟩ := Nat.exists_eq_succ_of_ne_zero
        (Nat.ne_of_gt (Nat.zero_lt_of_lt hroom))
      have hread := ih hline (Nat.lt_of_succ_lt_succ hroom)
      rw [List.cons_append, fgets, if_neg (Ne.symm hbyte), hread]
      rfl

/-- Of a line for which there is no room the first bytes are read. -/
theorem fgets_full {room : ℕ} {line : List UInt8} (rest : List UInt8)
    (hline : newline ∉ line) (hroom : line.length = room) :
    fgets room (line ++ rest) = (line, rest) := by
  induction line generalizing room with
  | nil =>
      subst hroom
      rfl
  | cons byte line ih =>
      subst hroom
      obtain ⟨hbyte, hline⟩ := not_or.mp (List.mem_cons.not.mp hline)
      rw [List.length_cons, List.cons_append, fgets, if_neg (Ne.symm hbyte),
        ih hline rfl]

/-- A line that was read fits the array and is free of newlines and NUL
bytes. -/
theorem readLine_spec (input : List UInt8) :
    (readLine input).1.length ≤ 1023 ∧ newline ∉ (readLine input).1 ∧
      0 ∉ (readLine input).1 := by
  have hlength := length_fgets_le 1023 input
  have hnewline := newline_not_mem_dropLast 1023 input
  obtain ⟨cut, hcut⟩ := List.takeWhile_prefix (l := (fgets 1023 input).1)
    fun byte : UInt8 => decide (byte ≠ 0)
  have hnul : (0 : UInt8) ∉ (fgets 1023 input).1.takeWhile (· ≠ 0) := by
    intro hmem
    have hzero := List.mem_takeWhile_imp hmem
    simp at hzero
  unfold readLine
  dsimp only
  generalize (fgets 1023 input).1 = read at *
  generalize read.takeWhile (· ≠ 0) = line at *
  subst hcut
  have hle : line.length ≤ 1023 := by
    rw [List.length_append] at hlength
    omega
  split
  · rename_i hlast
    refine ⟨?_, ?_, fun hmem => hnul ((List.dropLast_sublist _).mem hmem)⟩
    · rw [List.length_dropLast]
      omega
    · intro hmem
      apply hnewline
      cases cut with
      | nil => rwa [List.append_nil]
      | cons byte cut =>
          rw [List.dropLast_append_of_ne_nil (List.cons_ne_nil byte cut)]
          exact List.mem_append_left _ ((List.dropLast_sublist _).mem hmem)
  · rename_i hlast
    refine ⟨hle, fun hmem => ?_, hnul⟩
    cases cut with
    | nil =>
        rw [List.append_nil] at hnewline
        exact hnewline
          (List.mem_dropLast_of_mem_of_ne_getLast? hmem (Ne.symm hlast))
    | cons byte cut =>
        apply hnewline
        rw [List.dropLast_append_of_ne_nil (List.cons_ne_nil byte cut)]
        exact List.mem_append_left _ hmem

theorem takeWhile_eq_self {line : List UInt8} (hnul : 0 ∉ line) :
    line.takeWhile (· ≠ 0) = line := by
  rw [List.takeWhile_eq_self_iff]
  intro byte hbyte
  exact decide_eq_true fun hzero => hnul (hzero ▸ hbyte)

theorem readLine_line {line : List UInt8} (rest : List UInt8)
    (hline : newline ∉ line) (hnul : 0 ∉ line)
    (hlength : line.length ≤ 1022) :
    readLine (line ++ newline :: rest) = (line, rest) := by
  have hwhole : (0 : UInt8) ∉ line ++ [newline] := by
    simp [hnul, newline]
  unfold readLine
  rw [fgets_line rest hline (Nat.lt_succ_of_le hlength)]
  dsimp only
  rw [takeWhile_eq_self hwhole]
  simp

/-- Of a line that fills the array, the rest and the newline are left
behind. -/
theorem readLine_full {line : List UInt8} (rest : List UInt8)
    (hline : newline ∉ line) (hlength : 1023 ≤ line.length) :
    readLine (line ++ rest) =
      ((line.take 1023).takeWhile (· ≠ 0), line.drop 1023 ++ rest) := by
  have hsplit : line ++ rest =
      line.take 1023 ++ (line.drop 1023 ++ rest) := by
    rw [← List.append_assoc, List.take_append_drop]
  have htaken : newline ∉ line.take 1023 :=
    fun hmem => hline (List.mem_of_mem_take hmem)
  have hlast : ((line.take 1023).takeWhile (· ≠ 0)).getLast? ≠
      some newline := by
    intro hlast
    exact htaken ((List.takeWhile_sublist _).mem
      (List.mem_of_getLast? hlast))
  unfold readLine
  rw [hsplit, fgets_full _ htaken (List.length_take_of_le hlength)]
  dsimp only
  rw [if_neg hlast]

/-! ## Many lines -/

/-- Once a newline is left behind, all later lines are read one too late. -/
theorem readLines_late (lines : List (List UInt8)) (rest : List UInt8) :
    readLines lines.length (newline :: (typed lines ++ rest)) ≠
      (lines, rest) := by
  induction lines with
  | nil =>
      intro heq
      have hlength := congrArg (fun read => read.2.length) heq
      simp [readLines, typed] at hlength
  | cons line lines ih =>
      intro heq
      have hempty : readLine (newline :: (typed (line :: lines) ++ rest)) =
          ([], typed (line :: lines) ++ rest) :=
        readLine_line _ List.not_mem_nil List.not_mem_nil (Nat.zero_le _)
      rw [List.length_cons, readLines, hempty] at heq
      obtain ⟨hlines, hrest⟩ := Prod.mk.inj heq
      obtain ⟨hline, hlines⟩ := List.cons.inj hlines
      have hnone : line = [] := hline.symm
      subst hnone
      exact ih (Prod.ext hlines hrest)

theorem readLines_eq_iff {lines : List (List UInt8)}
    (rest : List UInt8) (hlines : ∀ line ∈ lines, newline ∉ line) :
    readLines lines.length (typed lines ++ rest) = (lines, rest) ↔
      ∀ line ∈ lines, line.length ≤ 1022 ∧ 0 ∉ line := by
  induction lines with
  | nil => simp [readLines, typed]
  | cons line lines ih =>
      obtain ⟨hline, hlines⟩ := List.forall_mem_cons.mp hlines
      have hsplit : typed (line :: lines) ++ rest =
          line ++ newline :: (typed lines ++ rest) := by simp
      rw [List.length_cons, readLines, hsplit, List.forall_mem_cons]
      constructor
      · intro heq
        obtain ⟨hread, hrest⟩ := Prod.mk.inj heq
        obtain ⟨hfirst, hlater⟩ := List.cons.inj hread
        obtain ⟨hlength, -, hnul⟩ :=
          readLine_spec (line ++ newline :: (typed lines ++ rest))
        rw [hfirst] at hlength hnul
        have hroom : line.length ≤ 1022 := by
          by_contra hlong
          have hfull : line.length = 1023 := by omega
          rw [readLine_full _ hline (Nat.le_of_eq hfull.symm),
            List.drop_of_length_le (Nat.le_of_eq hfull), List.nil_append]
            at hlater hrest
          exact readLines_late lines rest (Prod.ext hlater hrest)
        rw [readLine_line _ hline hnul hroom] at hlater hrest
        exact ⟨⟨hroom, hnul⟩, (ih hlines).mp (Prod.ext hlater hrest)⟩
      · rintro ⟨⟨hroom, hnul⟩, hlater⟩
        rw [readLine_line _ hline hnul hroom]
        have hread := (ih hlines).mpr hlater
        dsimp only
        rw [hread]

/-- Typed lines arrive as they were typed, one for each question, if and only
if each of them leaves room for its newline and has no NUL byte.  What does
not fit is left for the next question. -/
theorem readLines_typed_iff {lines : List (List UInt8)}
    (rest : List UInt8) (hlines : ∀ line ∈ lines, newline ∉ line) :
    (readLines lines.length (typed lines ++ rest) = (lines, rest) ↔
        ∀ line ∈ lines, line.length ≤ 1022 ∧ 0 ∉ line) ∧
      ∀ line ∈ lines, 1023 ≤ line.length → ∀ rest,
        readLine (line ++ newline :: rest) =
          ((line.take 1023).takeWhile (· ≠ 0),
            line.drop 1023 ++ newline :: rest) := by
  refine ⟨readLines_eq_iff rest hlines, ?_⟩
  intro line hmem hlength rest
  exact readLine_full (newline :: rest) (hlines line hmem) hlength

/-- A choice, a uid and a password are read as typed; a text of 1023 bytes is
not. -/
theorem readLines_typed_login :
    readLines 3 (typed [[49], [97, 110, 110], [112, 119]] ++ []) =
        ([[49], [97, 110, 110], [112, 119]], []) ∧
      readLines 1 (typed [List.replicate 1023 97] ++ []) ≠
        ([List.replicate 1023 97], []) := by
  have hshort : ∀ line ∈ [[49], [97, 110, 110], [112, 119]],
      newline ∉ line := by decide
  have hlong : ∀ line ∈ [List.replicate 1023 (97 : UInt8)],
      newline ∉ line := by
    intro line hline hmem
    rw [List.mem_singleton.mp hline, List.mem_replicate] at hmem
    exact absurd hmem.2 (by decide)
  refine ⟨(readLines_typed_iff [] hshort).1.mpr (by decide), ?_⟩
  intro heq
  have hroom := ((readLines_typed_iff [] hlong).1.mp heq _
    List.mem_cons_self).1
  rw [List.length_replicate] at hroom
  omega

end Console

end MuduoChat
