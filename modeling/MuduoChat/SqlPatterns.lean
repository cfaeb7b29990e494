import MuduoChat.SqlTexts

/-!
# Reading filled templates back

`fill` matches tokens against the slots of a template and returns what its
holes were filled with.  It undoes the filling of the template itself; of two
templates that `clash`, neither matches a filling of the other, so that a list
of templates which clash pairwise can be told apart by their tokens alone.
-/

namespace MuduoChat.SqlTexts

/-! ## Numerals read back -/

/-- Digits behind a number that was read so far. -/
def readNumber (value : Nat) : Text → Option Nat
  | [] => some value
  | byte :: rest =>
      if 48 ≤ byte ∧ byte ≤ 57 then
        readNumber (value * 10 + (byte.toNat - 48)) rest
      else none

def numberOf (word : Text) : Option Nat :=
  if word = [] then none else readNumber 0 word

theorem readNumber_append (value : Nat) (first second : Text) :
    readNumber value (first ++ second) =
      (readNumber value first).bind fun middle =>
        readNumber middle second := by
  induction first generalizing value with
  | nil => rfl
  | cons byte rest ih =>
      rw [List.cons_append, readNumber, readNumber]
      split
      · exact ih _
      · rfl

/-- The byte of a digit. -/
def digitByte (digit : Nat) : UInt8 :=
  UInt8.ofNat (Nat.digitChar digit).toNat

theorem readNumber_digitByte (value : Nat) {digit : Nat}
    (hdigit : digit < 10) :
    readNumber value [digitByte digit] = some (value * 10 + digit) := by
  have hrange : 48 ≤ digitByte digit ∧ digitByte digit ≤ 57 := by
    revert digit
    decide
  have hvalue : (digitByte digit).toNat - 48 = digit := by
    revert digit
    decide
  rw [readNumber, if_pos hrange, hvalue]
  rfl

theorem digits_eq (number : Nat) :
    digits number =
      (if number < 10 then [] else digits (number / 10)) ++
        [digitByte (number % 10)] := by
  unfold digits
  rw [Nat.toDigits_eq_if (by decide)]
  split
  · rename_i hlt
    rw [Nat.mod_eq_of_lt hlt]
    rfl
  · rw [List.map_append]
    rfl

theorem readNumber_digits (number : Nat) :
    readNumber 0 (digits number) = some number := by
  induction number using Nat.strongRecOn with
  | _ number ih =>
      have hdigit : number % 10 < 10 := Nat.mod_lt number (by decide)
      rw [digits_eq, readNumber_append]
      split
      · rename_i hlt
        have hself : 0 * 10 + number % 10 = number := by omega
        rw [readNumber, Option.bind_some, readNumber_digitByte 0 hdigit, hself]
      · have hsmaller : number / 10 < number := by omega
        have hself : number / 10 * 10 + number % 10 = number := by omega
        rw [ih (number / 10) hsmaller, Option.bind_some,
          readNumber_digitByte _ hdigit, hself]

theorem numberOf_digits (number : Nat) :
    numberOf (digits number) = some number := by
  rw [numberOf, if_neg (digits_ne_nil number), readNumber_digits]

/-- A number at the head of some tokens, and what is behind it. -/
def takeNumber : List Token → Option (Int × List Token)
  | .symbol byte :: .word word :: rest =>
      if byte = 45 then
        (numberOf word).map fun number : Nat => (-(number : Int), rest)
      else none
  | .word word :: rest =>
      (numberOf word).map fun number : Nat => ((number : Int), rest)
  | _ => none

theorem takeNumber_tokens (number : Int) (rest : List Token) :
    takeNumber (signTokens number ++ .word (digits number.natAbs) :: rest) =
      some (number, rest) := by
  unfold signTokens
  split
  · rename_i hneg
    have habs : -(number.natAbs : Int) = number := by omega
    rw [List.singleton_append, takeNumber, if_pos rfl, numberOf_digits,
      Option.map_some, habs]
  · rename_i hpos
    have habs : (number.natAbs : Int) = number := by omega
    rw [List.nil_append, takeNumber, numberOf_digits, Option.map_some, habs]

/-! ## Holes read back -/

section Patterns

variable {Value Number Other Count : Type}

def Piece.number? : Piece Value Number → Option Number
  | .number value => some value
  | _ => none

def Slot.number? : Slot Value Number → Option Number
  | .number value => some value
  | _ => none

/-- The literals and the numbers in the holes, each in their order. -/
def fill : List (Slot Value Number) → List Token →
    Option (List Text × List Int)
  | [], [] => some ([], [])
  | .token fixed :: slots, token :: tokens =>
      if token = fixed then fill slots tokens else none
  | .literal _ :: slots, .literal value :: tokens =>
      (fill slots tokens).map fun filled => (value :: filled.1, filled.2)
  | .number _ :: slots, tokens =>
      (takeNumber tokens).bind fun taken =>
        (fill slots taken.2).map fun filled =>
          (filled.1, taken.1 :: filled.2)
  | _, _ => none

theorem fill_tokens (read : Value → Text) (count : Number → Int)
    (slots : List (Slot Value Number)) :
    fill slots (slots.flatMap (Slot.tokens read count)) =
      some ((slots.filterMap Slot.value?).map read,
        (slots.filterMap Slot.number?).map count) := by
  induction slots with
  | nil => rfl
  | cons slot rest ih =>
      cases slot with
      | token fixed =>
          rw [List.flatMap_cons, Slot.tokens, List.singleton_append, fill,
            if_pos rfl, ih]
          rfl
      | literal value =>
          rw [List.flatMap_cons, Slot.tokens, List.singleton_append, fill, ih]
          rfl
      | number value =>
          rw [List.flatMap_cons, Slot.tokens, List.append_assoc,
            List.singleton_append, fill, takeNumber_tokens, Option.bind_some,
            ih]
          rfl

/-! ## Templates that cannot be confused -/

def Token.isLiteral : Token → Bool
  | .literal _ => true
  | _ => false

/-- At some place before any doubt, the two templates differ. -/
def clash : List (Slot Value Number) → List (Slot Other Count) → Bool
  | [], [] => false
  | [], _ :: _ | _ :: _, [] => true
  | .token fixed :: first, .token other :: second =>
      other ≠ fixed || clash first second
  | .literal _ :: first, .literal _ :: second => clash first second
  | .number _ :: first, .number _ :: second => clash first second
  | .token fixed :: _, .literal _ :: _ => !fixed.isLiteral
  | .literal _ :: _, .token other :: _ => !other.isLiteral
  | .token (.word word) :: _, .number _ :: _ => (numberOf word).isNone
  | .number _ :: _, .token (.word word) :: _ => (numberOf word).isNone
  | _, _ => false

theorem takeNumber_word {word : Text} (hword : numberOf word = none)
    (rest : List Token) : takeNumber (.word word :: rest) = none := by
  rw [takeNumber, hword]
  rfl

/-- No token of a number is a word that is not one. -/
theorem exists_cons_number {word : Text} (hword : numberOf word = none)
    (number : Int) (rest : List Token) :
    ∃ token more, signTokens number ++
        .word (digits number.natAbs) :: rest = token :: more ∧
      token ≠ .word word := by
  unfold signTokens
  split
  · exact ⟨_, _, rfl, by simp⟩
  · refine ⟨_, _, rfl, ?_⟩
    rintro heq
    cases heq
    rw [numberOf_digits] at hword
    cases hword

theorem fill_token_of_ne {fixed token : Token} (hne : token ≠ fixed)
    (slots : List (Slot Value Number)) (tokens : List Token) :
    fill (.token fixed :: slots) (token :: tokens) = none := by
  rw [fill, if_neg hne]

theorem fill_literal_of_not {value : Value} {token : Token}
    (hliteral : token.isLiteral = false)
    (slots : List (Slot Value Number)) (tokens : List Token) :
    fill (.literal value :: slots) (token :: tokens) = none := by
  cases token with
  | literal value => cases hliteral
  | _ => rfl

theorem fill_eq_none {read : Other → Text} {count : Count → Int}
    {first : List (Slot Value Number)} {second : List (Slot Other Count)}
    (hclash : clash first second = true) :
    fill first (second.flatMap (Slot.tokens read count)) = none := by
  fun_induction clash first second with
  | case1 => cases hclash
  | case2 slot rest =>
      rw [List.flatMap_cons]
      cases slot with
      | number value =>
          rw [Slot.tokens, signTokens]
          by_cases hneg : count value < 0
          · rw [if_pos hneg]
            rfl
          · rw [if_neg hneg]
            rfl
      | _ => rfl
  | case3 slot rest => cases slot <;> rfl
  | case4 fixed first other second ih =>
      rw [List.flatMap_cons, Slot.tokens, List.singleton_append]
      rcases Bool.or_eq_true_iff.mp hclash with hne | hrest
      · exact fill_token_of_ne (by simpa using hne) _ _
      · rw [fill, ih hrest]
        split <;> rfl
  | case5 value first other second ih =>
      rw [List.flatMap_cons, Slot.tokens, List.singleton_append, fill,
        ih hclash]
      rfl
  | case6 value first other second ih =>
      rw [List.flatMap_cons, Slot.tokens, List.append_assoc,
        List.singleton_append, fill, takeNumber_tokens, Option.bind_some,
        ih hclash]
      rfl
  | case7 fixed first value second =>
      rw [List.flatMap_cons, Slot.tokens, List.singleton_append]
      apply fill_token_of_ne
      rintro rfl
      cases hclash
  | case8 value first other second =>
      rw [List.flatMap_cons, Slot.tokens, List.singleton_append]
      exact fill_literal_of_not (by simpa using hclash) _ _
  | case9 word first value second =>
      obtain ⟨token, more, htokens, hne⟩ := exists_cons_number
        (Option.isNone_iff_eq_none.mp hclash) (count value)
        (second.flatMap (Slot.tokens read count))
      rw [List.flatMap_cons, Slot.tokens, List.append_assoc,
        List.singleton_append, htokens]
      exact fill_token_of_ne hne _ _
  | case10 value first word second =>
      have hword := Option.isNone_iff_eq_none.mp hclash
      rw [List.flatMap_cons, Slot.tokens, List.singleton_append, fill,
        takeNumber_word hword]
      rfl
  | case11 => cases hclash

/-- Of templates that clash pairwise, the first one that matches a filling is
the one that was filled. -/
theorem findSome?_fill {Found : Type} {templates : List Value}
    {slots : Value → List (Slot Other Count)}
    (hclash : templates.Pairwise fun first second =>
      clash (slots first) (slots second) = true)
    {template : Value} (htemplate : template ∈ templates)
    (finish : Value → List Text × List Int → Found)
    (read : Other → Text) (count : Count → Int) :
    (templates.findSome? fun candidate =>
        (fill (slots candidate)
          ((slots template).flatMap (Slot.tokens read count))).map
            (finish candidate)) =
      some (finish template
        (((slots template).filterMap Slot.value?).map read,
          ((slots template).filterMap Slot.number?).map count)) := by
  induction templates with
  | nil => cases htemplate
  | cons first rest ih =>
      obtain ⟨hfirst, hrest⟩ := List.pairwise_cons.mp hclash
      rcases List.mem_cons.mp htemplate with rfl | hmem
      · rw [List.findSome?_cons, fill_tokens]
        rfl
      · rw [List.findSome?_cons, fill_eq_none (hfirst template hmem)]
        exact ih hrest hmem

end Patterns

end MuduoChat.SqlTexts
