import MuduoChat.CStrings
import Mathlib.Data.List.Basic
import Mathlib.Data.Int.Basic
import Mathlib.Tactic.IntervalCases

/-!
# SQL texts with literals

How MySQL reads the text of a statement, one byte at a time: words, symbols,
comments, and literals between quotes, in which a doubled quote stands for a
quote and a backslash gives the next byte a meaning of its own.

A template is a text with holes, where encoded values are put between single
quotes or numerals between symbols.  Reading the template alone tells the
tokens around the holes.  `lex_render` says that a filled template reads as
these tokens, with one literal for each hole, as long as every encoded value
reads as the value itself.
-/

namespace MuduoChat.SqlTexts

abbrev Text := List UInt8

/-! ## Tokens -/

inductive Token where
  /-- A keyword, an identifier or an unsigned numeral. -/
  | word (bytes : Text)
  | symbol (byte : UInt8)
  | literal (value : Text)
  /-- An identifier between backticks. -/
  | quoted (name : Text)
  deriving DecidableEq

def singleQuote : UInt8 := 39

def doubleQuote : UInt8 := 34

def backtick : UInt8 := 96

def backslash : UInt8 := 92

def newline : UInt8 := 10

def IsSpace (byte : UInt8) : Bool :=
  byte = 32 || (9 ≤ byte && byte ≤ 13)

/-- Letters, digits, the underscore, the dollar sign, and whatever is not
ASCII. -/
def IsWord (byte : UInt8) : Bool :=
  (97 ≤ byte && byte ≤ 122) || (65 ≤ byte && byte ≤ 90) ||
    (48 ≤ byte && byte ≤ 57) || byte = 95 || byte = 36 || 128 ≤ byte

def IsQuote (byte : UInt8) : Bool :=
  byte = singleQuote || byte = doubleQuote || byte = backtick

/-- What a byte after a backslash stands for.  `\%` and `\_` keep their
backslash. -/
def unescape (byte : UInt8) : Text :=
  if byte = 48 then [0]
  else if byte = 98 then [8]
  else if byte = 110 then [newline]
  else if byte = 114 then [13]
  else if byte = 116 then [9]
  else if byte = 90 then [26]
  else if byte = 37 || byte = 95 then [backslash, byte]
  else [byte]

def Token.between (quote : UInt8) (value : Text) : Token :=
  if quote = backtick then .quoted value else .literal value

@[simp] theorem Token.between_singleQuote (value : Text) :
    Token.between singleQuote value = .literal value := rfl

/-! ## Reading -/

inductive State where
  | blank
  | word (read : Text)
  | inside (quote : UInt8) (read : Text)
  /-- After a backslash. -/
  | escaped (quote : UInt8) (read : Text)
  /-- After a quote that may be the end or the first of two. -/
  | closing (quote : UInt8) (read : Text)
  | dash
  | dashes
  | slash
  | lineComment
  | comment
  /-- After an asterisk in a comment. -/
  | star

namespace State

/-- The first byte of whatever comes next. -/
def start (byte : UInt8) : List Token × State :=
  if IsSpace byte then ([], blank)
  else if IsWord byte then ([], word [byte])
  else if IsQuote byte then ([], inside byte [])
  else if byte = 45 then ([], dash)
  else if byte = 47 then ([], slash)
  else if byte = 35 then ([], lineComment)
  else ([.symbol byte], blank)

def after (tokens : List Token) (byte : UInt8) : List Token × State :=
  (tokens ++ (start byte).1, (start byte).2)

def step : State → UInt8 → List Token × State
  | blank, byte => start byte
  | word read, byte =>
      if IsWord byte then ([], word (read ++ [byte]))
      else after [.word read] byte
  | inside quote read, byte =>
      if byte = quote then ([], closing quote read)
      else if byte = backslash && quote ≠ backtick then
        ([], escaped quote read)
      else ([], inside quote (read ++ [byte]))
  | escaped quote read, byte => ([], inside quote (read ++ unescape byte))
  | closing quote read, byte =>
      if byte = quote then ([], inside quote (read ++ [byte]))
      else after [.between quote read] byte
  | dash, byte =>
      if byte = 45 then ([], dashes) else after [.symbol 45] byte
  | dashes, byte =>
      if byte = newline then ([], blank)
      else if byte ≤ 32 then ([], lineComment)
      else after [.symbol 45, .symbol 45] byte
  | slash, byte =>
      if byte = 42 then ([], comment) else after [.symbol 47] byte
  | lineComment, byte =>
      if byte = newline then ([], blank) else ([], lineComment)
  | comment, byte => if byte = 42 then ([], star) else ([], comment)
  | star, byte =>
      if byte = 47 then ([], blank)
      else if byte = 42 then ([], star)
      else ([], comment)

/-- Nothing may be left open at the end of the text. -/
def finish : State → Option (List Token)
  | blank | lineComment | dashes => some []
  | word read => some [.word read]
  | closing quote read => some [.between quote read]
  | dash => some [.symbol 45]
  | slash => some [.symbol 47]
  | inside .. | escaped .. | comment | star => none

def feed : State → Text → List Token × State
  | state, [] => ([], state)
  | state, byte :: rest =>
      let (tokens, next) := state.step byte
      let (more, last) := feed next rest
      (tokens ++ more, last)

end State

/-- The tokens of a text, unless it ends within a literal or a comment. -/
def lex (text : Text) : Option (List Token) :=
  let (tokens, last) := State.blank.feed text
  last.finish.map fun more => tokens ++ more

section Feeding

@[simp] theorem feed_nil (state : State) : state.feed [] = ([], state) := rfl

theorem feed_cons (state : State) (byte : UInt8) (rest : Text) :
    state.feed (byte :: rest) =
      ((state.step byte).1 ++ ((state.step byte).2.feed rest).1,
        ((state.step byte).2.feed rest).2) := rfl

theorem feed_append (state : State) (first second : Text) :
    state.feed (first ++ second) =
      ((state.feed first).1 ++ ((state.feed first).2.feed second).1,
        ((state.feed first).2.feed second).2) := by
  induction first generalizing state with
  | nil => rfl
  | cons byte rest ih =>
      rw [List.cons_append, feed_cons, feed_cons, ih, List.append_assoc]

end Feeding

/-! ## Comments at the end -/

namespace State

/-- Only quotes open a literal. -/
def Quoted : State → Prop
  | inside quote _ | escaped quote _ | closing quote _ => IsQuote quote = true
  | _ => True

theorem quoted_start (byte : UInt8) : (start byte).2.Quoted := by
  unfold start
  split_ifs with hspace hword hquote
  · exact True.intro
  · exact True.intro
  · exact hquote
  all_goals exact True.intro

theorem quoted_step {state : State} (hquoted : state.Quoted) (byte : UInt8) :
    (state.step byte).2.Quoted := by
  cases state with
  | blank => exact quoted_start byte
  | escaped quote read => exact hquoted
  | _ =>
      simp only [step]
      split_ifs
      all_goals first
        | exact True.intro
        | exact hquoted
        | exact quoted_start byte

theorem quoted_feed {state : State} (hquoted : state.Quoted) (text : Text) :
    (state.feed text).2.Quoted := by
  induction text generalizing state with
  | nil => exact hquoted
  | cons byte rest ih => exact ih (quoted_step hquoted byte)

theorem feed_lineComment {text : Text} (hline : newline ∉ text) :
    lineComment.feed text = ([], lineComment) := by
  induction text with
  | nil => rfl
  | cons byte rest ih =>
      have hbyte : byte ≠ newline := fun heq =>
        hline (heq ▸ List.mem_cons_self)
      have hrest := ih fun hmem => hline (List.mem_cons_of_mem byte hmem)
      rw [feed_cons, step, if_neg hbyte, hrest]
      rfl

end State

/-- A blank, two dashes and another blank start a comment. -/
def commentStart : Text := [32, 45, 45, 32]

theorem feed_commentStart {state : State} {tokens : List Token}
    (hquoted : state.Quoted) (hfinish : state.finish = some tokens) :
    state.feed commentStart = (tokens, .lineComment) := by
  cases state with
  | closing quote read =>
      cases hfinish
      have hquote : (32 : UInt8) ≠ quote := by
        rintro rfl
        cases hquoted
      have hblank : (State.closing quote read).step 32 =
          ([.between quote read], .blank) := by
        rw [State.step, if_neg hquote]
        rfl
      rw [commentStart, feed_cons, hblank]
      rfl
  | inside quote read => cases hfinish
  | escaped quote read => cases hfinish
  | comment => cases hfinish
  | star => cases hfinish
  | _ =>
      cases hfinish
      rfl

/-- A text that reads well reads the same with a comment behind it. -/
theorem lex_comment {text rest : Text} {tokens : List Token}
    (hlex : lex text = some tokens) (hline : newline ∉ rest) :
    lex (text ++ (commentStart ++ rest)) = some tokens := by
  obtain ⟨more, hfinish, rfl⟩ := Option.map_eq_some_iff.mp hlex
  have hblank : State.blank.Quoted := True.intro
  have hquoted := State.quoted_feed hblank text
  have hstart := feed_commentStart hquoted hfinish
  unfold lex
  rw [feed_append, feed_append, hstart, State.feed_lineComment hline]
  simp [State.finish]

/-! ## Values between quotes -/

/-- Between single quotes, the encoded text reads as the value. -/
def ReadsAs (encoded value : Text) : Prop :=
  ∀ read, (State.inside singleQuote read).feed encoded =
    ([], .inside singleQuote (read ++ value))

theorem readsAs_nil : ReadsAs [] [] := by
  intro read
  simp

theorem ReadsAs.append {first second value other : Text}
    (hfirst : ReadsAs first value) (hsecond : ReadsAs second other) :
    ReadsAs (first ++ second) (value ++ other) := by
  intro read
  rw [feed_append, hfirst read, hsecond (read ++ value), List.append_assoc]
  rfl

/-- `mysql_real_escape_string` gives these bytes a backslash. -/
def escapeByte (byte : UInt8) : Text :=
  if byte = 0 then [backslash, 48]
  else if byte = newline then [backslash, 110]
  else if byte = 13 then [backslash, 114]
  else if byte = 26 then [backslash, 90]
  else if byte = backslash || byte = singleQuote || byte = doubleQuote then
    [backslash, byte]
  else [byte]

theorem readsAs_escapeByte (byte : UInt8) :
    ReadsAs (escapeByte byte) [byte] := by
  intro read
  unfold escapeByte
  split_ifs with hnul hnewline hreturn hctrlz hspecial
  · subst hnul
    rfl
  · subst hnewline
    rfl
  · subst hreturn
    rfl
  · subst hctrlz
    rfl
  · have hcases : byte = backslash ∨ byte = singleQuote ∨
        byte = doubleQuote := by
      simpa [or_assoc] using hspecial
    rcases hcases with rfl | rfl | rfl <;> rfl
  · have hplain : byte ≠ backslash ∧ byte ≠ singleQuote := by
      simp only [Bool.or_eq_true, decide_eq_true_eq, not_or] at hspecial
      exact hspecial.1
    simp [feed_cons, State.step, hplain.1, hplain.2]

theorem readsAs_escape (value : Text) :
    ReadsAs (value.flatMap escapeByte) value := by
  induction value with
  | nil => exact readsAs_nil
  | cons byte rest ih => exact (readsAs_escapeByte byte).append ih

theorem zero_not_mem_escape (value : Text) :
    0 ∉ value.flatMap escapeByte := by
  intro hzero
  obtain ⟨byte, -, hbyte⟩ := List.mem_flatMap.mp hzero
  unfold escapeByte at hbyte
  split_ifs at hbyte with hnul hnewline hreturn hctrlz hspecial
  · revert hbyte
    decide
  · revert hbyte
    decide
  · revert hbyte
    decide
  · revert hbyte
    decide
  · rcases List.mem_cons.mp hbyte with hfirst | hrest
    · revert hfirst
      decide
    · exact hnul (List.mem_singleton.mp hrest).symm
  · exact hnul (List.mem_singleton.mp hbyte).symm

/-! ## Numerals -/

def digits (number : Nat) : Text :=
  (Nat.toDigits 10 number).map fun char => UInt8.ofNat char.toNat

def numeral (number : Int) : Text :=
  (if number < 0 then [45] else []) ++ digits number.natAbs

def signTokens (number : Int) : List Token :=
  if number < 0 then [.symbol 45] else []

theorem isWord_of_mem_digits {number : Nat} {byte : UInt8}
    (hbyte : byte ∈ digits number) : IsWord byte = true := by
  obtain ⟨char, hchar, rfl⟩ := List.mem_map.mp hbyte
  have hdigit : char.isDigit = true :=
    Nat.isDigit_of_mem_toDigits (by decide) (by decide) hchar
  simp only [Char.isDigit, Bool.and_eq_true, decide_eq_true_eq] at hdigit
  have hlow : 48 ≤ char.toNat := hdigit.1
  have hhigh : char.toNat ≤ 57 := hdigit.2
  generalize char.toNat = code at hlow hhigh
  interval_cases code <;> rfl

theorem feed_word {word read : Text}
    (hword : ∀ byte ∈ word, IsWord byte = true) :
    (State.word read).feed word = ([], .word (read ++ word)) := by
  induction word generalizing read with
  | nil => simp
  | cons byte rest ih =>
      have hbyte : IsWord byte = true := hword byte List.mem_cons_self
      have hrest := @ih (read ++ [byte]) fun other hother =>
        hword other (List.mem_cons_of_mem byte hother)
      rw [feed_cons, State.step, if_pos hbyte, hrest]
      simp

theorem start_of_isWord {byte : UInt8} (hword : IsWord byte = true) :
    State.start byte = ([], .word [byte]) := by
  have hspace : IsSpace byte = false := by
    unfold IsWord at hword
    unfold IsSpace
    grind
  simp [State.start, hspace, hword]

theorem digits_ne_nil (number : Nat) : digits number ≠ [] := by
  unfold digits
  rw [ne_eq, List.map_eq_nil_iff]
  exact Nat.toDigits_ne_nil

/-- A numeral reads as an optional minus sign and a word. -/
theorem feed_numeral (number : Int) :
    State.blank.feed (numeral number) =
      (signTokens number, .word (digits number.natAbs)) := by
  obtain ⟨byte, rest, hdigits⟩ :=
    List.exists_cons_of_ne_nil (digits_ne_nil number.natAbs)
  have hall (other : UInt8) (hother : other ∈ byte :: rest) :
      IsWord other = true :=
    isWord_of_mem_digits (hdigits ▸ hother)
  have hbyte : IsWord byte = true := hall byte List.mem_cons_self
  have hrest := @feed_word rest [byte] fun other hother =>
    hall other (List.mem_cons_of_mem byte hother)
  have hdash : byte ≠ 45 := by
    rintro rfl
    cases hbyte
  unfold numeral signTokens
  rw [hdigits]
  split
  · have hminus : State.blank.step 45 = ([], .dash) := rfl
    have hfirst : State.dash.step byte = ([.symbol 45], .word [byte]) := by
      simp [State.step, hdash, State.after, start_of_isWord hbyte]
    rw [List.singleton_append, feed_cons, feed_cons, hminus, hfirst, hrest]
    rfl
  · rw [List.nil_append, feed_cons, State.step, start_of_isWord hbyte, hrest]
    rfl

theorem zero_not_mem_numeral (number : Int) : 0 ∉ numeral number := by
  intro hzero
  rcases List.mem_append.mp hzero with hsign | hdigit
  · split at hsign
    · revert hsign
      decide
    · cases hsign
  · have hword := isWord_of_mem_digits hdigit
    cases hword

/-! ## Templates -/

inductive Piece (Value Number : Type) where
  | text (content : String)
  /-- Put between quotes by the texts around it. -/
  | literal (value : Value)
  | number (value : Number)

/-- A token of a template. -/
inductive Slot (Value Number : Type) where
  | token (fixed : Token)
  | literal (value : Value)
  | number (value : Number)

section Templates

variable {Value Number Other Count : Type}

namespace Piece

def map (onValue : Value → Other) (onNumber : Number → Count) :
    Piece Value Number → Piece Other Count
  | .text content => .text content
  | .literal value => .literal (onValue value)
  | .number value => .number (onNumber value)

def render (encode : Value → Text) (count : Number → Int) :
    Piece Value Number → Text
  | .text content => bytesOf content
  | .literal value => encode value
  | .number value => numeral (count value)

def value? : Piece Value Number → Option Value
  | .literal value => some value
  | _ => none

/-- No fixed text holds a NUL. -/
def NulFree : Piece Value Number → Bool
  | .text content => (bytesOf content).all fun byte => byte ≠ 0
  | _ => true

end Piece

namespace Slot

def map (onValue : Value → Other) (onNumber : Number → Count) :
    Slot Value Number → Slot Other Count
  | .token fixed => .token fixed
  | .literal value => .literal (onValue value)
  | .number value => .number (onNumber value)

def tokens (read : Value → Text) (count : Number → Int) :
    Slot Value Number → List Token
  | .token fixed => [fixed]
  | .literal value => [.literal (read value)]
  | .number value => signTokens (count value) ++
      [.word (digits (count value).natAbs)]

def value? : Slot Value Number → Option Value
  | .literal value => some value
  | _ => none

end Slot

/-- How far a template has been read. -/
inductive Progress (Value Number : Type) where
  | plain (state : State)
  /-- A literal was filled in; its closing quote must be next. -/
  | filled (value : Value)
  /-- The quote after a filled literal, which must not be doubled. -/
  | closed (value : Value)
  /-- A numeral was filled in; no word may follow at once. -/
  | counted (value : Number)

namespace Progress

def startAfter (slots : List (Slot Value Number)) (byte : UInt8) :
    List (Slot Value Number) × Progress Value Number :=
  (slots ++ (State.start byte).1.map .token, plain (State.start byte).2)

def step : Progress Value Number → UInt8 →
    Option (List (Slot Value Number) × Progress Value Number)
  | plain state, byte =>
      some ((state.step byte).1.map .token, plain (state.step byte).2)
  | filled value, byte =>
      if byte = singleQuote then some ([], closed value) else none
  | closed value, byte =>
      if byte = singleQuote then none
      else some (startAfter [.literal value] byte)
  | counted value, byte =>
      if IsWord byte then none else some (startAfter [.number value] byte)

def feedText : Progress Value Number → Text →
    Option (List (Slot Value Number) × Progress Value Number)
  | progress, [] => some ([], progress)
  | progress, byte :: rest =>
      (progress.step byte).bind fun (slots, next) =>
        (feedText next rest).map fun (more, last) => (slots ++ more, last)

def feedPiece : Progress Value Number → Piece Value Number →
    Option (List (Slot Value Number) × Progress Value Number)
  | progress, .text content => progress.feedText (bytesOf content)
  | plain (.inside quote []), .literal value =>
      if quote = singleQuote then some ([], filled value) else none
  | plain .blank, .number value => some ([], counted value)
  | _, _ => none

def feed : Progress Value Number → List (Piece Value Number) →
    Option (List (Slot Value Number) × Progress Value Number)
  | progress, [] => some ([], progress)
  | progress, piece :: rest =>
      (progress.feedPiece piece).bind fun (slots, next) =>
        (feed next rest).map fun (more, last) => (slots ++ more, last)

def finish : Progress Value Number → Option (List (Slot Value Number))
  | plain state => state.finish.map fun tokens => tokens.map .token
  | filled _ => none
  | closed value => some [.literal value]
  | counted value => some [.number value]

end Progress

def render (encode : Value → Text) (count : Number → Int)
    (pieces : List (Piece Value Number)) : Text :=
  pieces.flatMap (Piece.render encode count)

/-- The tokens of a template, read without looking at what fills its
holes. -/
def skeleton (pieces : List (Piece Value Number)) :
    Option (List (Slot Value Number)) :=
  ((Progress.plain .blank).feed pieces).bind fun (slots, last) =>
    last.finish.map fun more => slots ++ more

/-! ### Filled templates -/

namespace Progress

variable {read encode : Value → Text} {count : Number → Int}
  {progress next : Progress Value Number}
  {slots : List (Slot Value Number)}

/-- The tokens a filled template still has to complete, and the state it is
in. -/
def reached (read : Value → Text) (count : Number → Int) :
    Progress Value Number → List Token × State
  | plain state => ([], state)
  | filled value => ([], .inside singleQuote (read value))
  | closed value => ([], .closing singleQuote (read value))
  | counted value =>
      (signTokens (count value), .word (digits (count value).natAbs))

/-- From `progress` to `next` the text completes the tokens of the slots. -/
def Reads (read : Value → Text) (count : Number → Int)
    (progress : Progress Value Number) (text : Text)
    (slots : List (Slot Value Number)) (next : Progress Value Number) :
    Prop :=
  (progress.reached read count).1 ++
        ((progress.reached read count).2.feed text).1 =
      slots.flatMap (Slot.tokens read count) ++
        (next.reached read count).1 ∧
    ((progress.reached read count).2.feed text).2 =
      (next.reached read count).2

theorem Reads.append {middle last : Progress Value Number}
    {first second : Text} {more : List (Slot Value Number)}
    (hfirst : Reads read count progress first slots middle)
    (hsecond : Reads read count middle second more last) :
    Reads read count progress (first ++ second) (slots ++ more) last := by
  obtain ⟨htokens, hstate⟩ := hfirst
  obtain ⟨hmore, hlast⟩ := hsecond
  unfold Reads
  rw [feed_append, hstate, ← List.append_assoc, htokens, List.append_assoc,
    hmore, List.flatMap_append, List.append_assoc]
  exact ⟨rfl, hlast⟩

theorem flatMap_token (tokens : List Token) :
    (tokens.map Slot.token).flatMap
      (Slot.tokens read count : Slot Value Number → List Token) =
        tokens := by
  induction tokens with
  | nil => rfl
  | cons token rest ih => exact congrArg (token :: ·) ih

theorem reads_step {byte : UInt8}
    (hstep : progress.step byte = some (slots, next)) :
    Reads read count progress [byte] slots next := by
  unfold Reads
  rw [feed_cons, feed_nil, List.append_nil]
  cases progress with
  | plain state =>
      cases hstep
      simp [reached, flatMap_token]
  | filled value =>
      simp only [step] at hstep
      split at hstep
      · rename_i hquote
        cases hstep
        subst hquote
        exact ⟨rfl, rfl⟩
      · cases hstep
  | closed value =>
      simp only [step] at hstep
      split at hstep
      · cases hstep
      · rename_i hquote
        cases hstep
        simp [reached, State.step, hquote, State.after,
          Slot.tokens, flatMap_token]
  | counted value =>
      simp only [step] at hstep
      split at hstep
      · cases hstep
      · rename_i hword
        cases hstep
        simp [reached, State.step, hword, State.after,
          Slot.tokens, flatMap_token]

theorem reads_feedText {text : Text}
    (hfeed : progress.feedText text = some (slots, next)) :
    Reads read count progress text slots next := by
  induction text generalizing progress slots with
  | nil =>
      cases hfeed
      simp [Reads]
  | cons byte rest ih =>
      obtain ⟨⟨out, middle⟩, hstep, hrest⟩ := Option.bind_eq_some_iff.mp hfeed
      obtain ⟨⟨more, last⟩, hmore, heq⟩ := Option.map_eq_some_iff.mp hrest
      cases heq
      exact (reads_step hstep).append (ih hmore)

theorem reads_feedPiece {piece : Piece Value Number}
    (hencode : ∀ value, piece.value? = some value →
      ReadsAs (encode value) (read value))
    (hfeed : progress.feedPiece piece = some (slots, next)) :
    Reads read count progress (piece.render encode count) slots next := by
  unfold feedPiece at hfeed
  split at hfeed
  · exact reads_feedText hfeed
  · split at hfeed
    · rename_i quote value hquote
      cases hfeed
      subst hquote
      have hread := hencode value rfl []
      simp [Reads, reached, Piece.render, hread]
    · cases hfeed
  · cases hfeed
    rename_i value
    simp [Reads, reached, Piece.render, feed_numeral]
  · cases hfeed

theorem reads_feed {pieces : List (Piece Value Number)}
    (hencode : ∀ value ∈ pieces.filterMap Piece.value?,
      ReadsAs (encode value) (read value))
    (hfeed : progress.feed pieces = some (slots, next)) :
    Reads read count progress (SqlTexts.render encode count pieces) slots
      next := by
  induction pieces generalizing progress slots with
  | nil =>
      cases hfeed
      simp [Reads, SqlTexts.render]
  | cons piece rest ih =>
      obtain ⟨⟨out, middle⟩, hpiece, hrest⟩ :=
        Option.bind_eq_some_iff.mp hfeed
      obtain ⟨⟨more, last⟩, hmore, heq⟩ := Option.map_eq_some_iff.mp hrest
      cases heq
      have hfirst := @reads_feedPiece _ _ read encode count progress middle
        out piece (fun value hvalue => hencode value (by
          rw [List.filterMap_cons, hvalue]
          exact List.mem_cons_self)) hpiece
      refine hfirst.append (ih ?_ hmore)
      intro value hvalue
      refine hencode value ?_
      rw [List.filterMap_cons]
      split
      · exact hvalue
      · exact List.mem_cons_of_mem _ hvalue

theorem finish_reached {more : List (Slot Value Number)}
    (hfinish : progress.finish = some more) :
    ∃ tokens, (progress.reached read count).2.finish = some tokens ∧
      (progress.reached read count).1 ++ tokens =
        more.flatMap (Slot.tokens read count) := by
  cases progress with
  | plain state =>
      obtain ⟨tokens, htokens, rfl⟩ := Option.map_eq_some_iff.mp hfinish
      exact ⟨tokens, htokens, (flatMap_token tokens).symm⟩
  | filled value => cases hfinish
  | closed value =>
      cases hfinish
      exact ⟨_, rfl, rfl⟩
  | counted value =>
      cases hfinish
      exact ⟨_, rfl, (List.append_nil _).symm⟩

end Progress

/-- A filled template reads as its skeleton, every hole as one literal. -/
theorem lex_render {read encode : Value → Text} {count : Number → Int}
    {pieces : List (Piece Value Number)} {slots : List (Slot Value Number)}
    (hencode : ∀ value ∈ pieces.filterMap Piece.value?,
      ReadsAs (encode value) (read value))
    (hskeleton : skeleton pieces = some slots) :
    lex (render encode count pieces) =
      some (slots.flatMap (Slot.tokens read count)) := by
  obtain ⟨⟨begun, last⟩, hfeed, hrest⟩ :=
    Option.bind_eq_some_iff.mp hskeleton
  obtain ⟨more, hfinish, rfl⟩ := Option.map_eq_some_iff.mp hrest
  obtain ⟨htokens, hstate⟩ :=
    @Progress.reads_feed _ _ read encode count _ _ _ pieces hencode hfeed
  obtain ⟨tokens, hdone, hmore⟩ :=
    @Progress.finish_reached _ _ read count _ _ hfinish
  change ([] : List Token) ++ (State.blank.feed _).1 = _ at htokens
  change (State.blank.feed _).2 = _ at hstate
  rw [List.nil_append] at htokens
  unfold lex
  dsimp only
  rw [hstate, hdone, Option.map_some, htokens, List.append_assoc, hmore,
    List.flatMap_append]

theorem zero_not_mem_render {encode : Value → Text} {count : Number → Int}
    {pieces : List (Piece Value Number)}
    (hencode : ∀ value ∈ pieces.filterMap Piece.value?, 0 ∉ encode value)
    (hpieces : pieces.all Piece.NulFree = true) :
    0 ∉ render encode count pieces := by
  intro hzero
  obtain ⟨piece, hpiece, hzero⟩ := List.mem_flatMap.mp hzero
  have hfree : piece.NulFree = true := List.all_eq_true.mp hpieces piece hpiece
  cases piece with
  | text content =>
      have hne := List.all_eq_true.mp hfree 0 hzero
      simp at hne
  | literal value =>
      exact hencode value (List.mem_filterMap.mpr ⟨_, hpiece, rfl⟩) hzero
  | number value => exact zero_not_mem_numeral (count value) hzero

/-! ### What a skeleton depends on -/

namespace Progress

variable {progress next : Progress Value Number}
  {slots : List (Slot Value Number)}

/-- The value whose literal is not complete yet. -/
def pending : Progress Value Number → List Value
  | plain _ | counted _ => []
  | filled value | closed value => [value]

theorem filterMap_token (tokens : List Token) :
    (tokens.map Slot.token).filterMap
      (Slot.value? : Slot Value Number → Option Value) = [] := by
  induction tokens with
  | nil => rfl
  | cons token rest ih => exact ih

theorem values_step {byte : UInt8}
    (hstep : progress.step byte = some (slots, next)) :
    slots.filterMap Slot.value? ++ next.pending = progress.pending := by
  cases progress with
  | plain state =>
      cases hstep
      simp [pending, Slot.value?]
  | filled value =>
      obtain ⟨-, hnext⟩ := Option.ite_none_right_eq_some.mp hstep
      cases hnext
      rfl
  | closed value =>
      obtain ⟨-, hnext⟩ := Option.ite_none_left_eq_some.mp hstep
      cases hnext
      simp [pending, Slot.value?]
  | counted value =>
      obtain ⟨-, hnext⟩ := Option.ite_none_left_eq_some.mp hstep
      cases hnext
      simp [pending, Slot.value?]

theorem values_feedText {text : Text}
    (hfeed : progress.feedText text = some (slots, next)) :
    slots.filterMap Slot.value? ++ next.pending = progress.pending := by
  induction text generalizing progress slots with
  | nil =>
      cases hfeed
      rfl
  | cons byte rest ih =>
      obtain ⟨⟨out, middle⟩, hstep, hrest⟩ := Option.bind_eq_some_iff.mp hfeed
      obtain ⟨⟨more, last⟩, hmore, heq⟩ := Option.map_eq_some_iff.mp hrest
      cases heq
      rw [List.filterMap_append, List.append_assoc, ih hmore,
        values_step hstep]

theorem values_feedPiece {piece : Piece Value Number}
    (hfeed : progress.feedPiece piece = some (slots, next)) :
    slots.filterMap Slot.value? ++ next.pending =
      progress.pending ++ piece.value?.toList := by
  unfold feedPiece at hfeed
  split at hfeed
  · simpa [Piece.value?] using values_feedText hfeed
  · obtain ⟨-, hnext⟩ := Option.ite_none_right_eq_some.mp hfeed
    cases hnext
    rfl
  · cases hfeed
    rfl
  · cases hfeed

theorem values_feed {pieces : List (Piece Value Number)}
    (hfeed : progress.feed pieces = some (slots, next)) :
    slots.filterMap Slot.value? ++ next.pending =
      progress.pending ++ pieces.filterMap Piece.value? := by
  induction pieces generalizing progress slots with
  | nil =>
      cases hfeed
      simp
  | cons piece rest ih =>
      obtain ⟨⟨out, middle⟩, hpiece, hrest⟩ :=
        Option.bind_eq_some_iff.mp hfeed
      obtain ⟨⟨more, last⟩, hmore, heq⟩ := Option.map_eq_some_iff.mp hrest
      cases heq
      rw [List.filterMap_append, List.append_assoc, ih hmore,
        ← List.append_assoc, values_feedPiece hpiece, List.append_assoc]
      cases hvalue : piece.value? <;> simp [hvalue]

theorem values_finish {more : List (Slot Value Number)}
    (hfinish : progress.finish = some more) :
    more.filterMap Slot.value? = progress.pending := by
  cases progress with
  | plain state =>
      obtain ⟨tokens, -, rfl⟩ := Option.map_eq_some_iff.mp hfinish
      exact filterMap_token tokens
  | filled value => cases hfinish
  | closed value =>
      cases hfinish
      rfl
  | counted value =>
      cases hfinish
      rfl

end Progress

/-- The literals of the skeleton are the holes of the template, in order. -/
theorem values_skeleton {pieces : List (Piece Value Number)}
    {slots : List (Slot Value Number)}
    (hskeleton : skeleton pieces = some slots) :
    slots.filterMap Slot.value? = pieces.filterMap Piece.value? := by
  obtain ⟨⟨begun, last⟩, hfeed, hrest⟩ :=
    Option.bind_eq_some_iff.mp hskeleton
  obtain ⟨more, hfinish, rfl⟩ := Option.map_eq_some_iff.mp hrest
  rw [List.filterMap_append, Progress.values_finish hfinish]
  exact Progress.values_feed hfeed

namespace Progress

def map (onValue : Value → Other) (onNumber : Number → Count) :
    Progress Value Number → Progress Other Count
  | .plain state => .plain state
  | .filled value => .filled (onValue value)
  | .closed value => .closed (onValue value)
  | .counted value => .counted (onNumber value)

variable {onValue : Value → Other} {onNumber : Number → Count}

/-- Slots and progress with other values in the holes. -/
def mapOut (onValue : Value → Other) (onNumber : Number → Count)
    (out : List (Slot Value Number) × Progress Value Number) :
    List (Slot Other Count) × Progress Other Count :=
  (out.1.map (Slot.map onValue onNumber), out.2.map onValue onNumber)

theorem step_map (progress : Progress Value Number) (byte : UInt8) :
    (progress.map onValue onNumber).step byte =
      (progress.step byte).map (mapOut onValue onNumber) := by
  cases progress with
  | plain state => simp [map, step, mapOut, Slot.map]
  | filled value =>
      simp only [map, step]
      split <;> rfl
  | closed value =>
      simp only [map, step]
      split
      · rfl
      · simp [mapOut, startAfter, map, Slot.map]
  | counted value =>
      simp only [map, step]
      split
      · rfl
      · simp [mapOut, startAfter, map, Slot.map]

theorem feedText_map (progress : Progress Value Number) (text : Text) :
    (progress.map onValue onNumber).feedText text =
      (progress.feedText text).map (mapOut onValue onNumber) := by
  induction text generalizing progress with
  | nil => rfl
  | cons byte rest ih =>
      simp only [feedText, step_map]
      cases progress.step byte with
      | none => rfl
      | some out =>
          simp only [Option.map_some, Option.bind_some, mapOut, ih]
          cases out.2.feedText rest <;> simp [mapOut]

theorem feedPiece_map (progress : Progress Value Number)
    (piece : Piece Value Number) :
    (progress.map onValue onNumber).feedPiece
        (piece.map onValue onNumber) =
      (progress.feedPiece piece).map (mapOut onValue onNumber) := by
  cases piece with
  | text content => exact feedText_map progress (bytesOf content)
  | literal value =>
      cases progress with
      | plain state =>
          cases state with
          | inside quote read =>
              cases read with
              | nil =>
                  simp only [map, Piece.map, feedPiece]
                  split <;> rfl
              | cons byte rest => rfl
          | _ => rfl
      | _ => rfl
  | number value =>
      cases progress with
      | plain state => cases state <;> rfl
      | _ => rfl

theorem feed_map (progress : Progress Value Number)
    (pieces : List (Piece Value Number)) :
    (progress.map onValue onNumber).feed
        (pieces.map (Piece.map onValue onNumber)) =
      (progress.feed pieces).map (mapOut onValue onNumber) := by
  induction pieces generalizing progress with
  | nil => rfl
  | cons piece rest ih =>
      simp only [List.map_cons, feed, feedPiece_map]
      cases progress.feedPiece piece with
      | none => rfl
      | some out =>
          simp only [Option.map_some, Option.bind_some, mapOut, ih]
          cases out.2.feed rest <;> simp [mapOut]

theorem finish_map (progress : Progress Value Number) :
    (progress.map onValue onNumber).finish =
      progress.finish.map (List.map (Slot.map onValue onNumber)) := by
  cases progress with
  | plain state =>
      simp only [map, finish]
      cases state.finish <;> simp [Slot.map]
  | _ => rfl

end Progress

/-- The skeleton does not depend on what fills the holes. -/
theorem skeleton_map (onValue : Value → Other) (onNumber : Number → Count)
    (pieces : List (Piece Value Number)) :
    skeleton (pieces.map (Piece.map onValue onNumber)) =
      (skeleton pieces).map (List.map (Slot.map onValue onNumber)) := by
  have hfeed := @Progress.feed_map _ _ _ _ onValue onNumber
    (Progress.plain .blank) pieces
  unfold skeleton
  rw [show (Progress.plain .blank : Progress Other Count) =
    (Progress.plain .blank : Progress Value Number).map onValue onNumber
      from rfl, hfeed]
  cases (Progress.plain .blank : Progress Value Number).feed pieces with
  | none => rfl
  | some out =>
      simp only [Option.map_some, Option.bind_some, Progress.mapOut,
        Progress.finish_map]
      cases out.2.finish <;> simp

end Templates

end MuduoChat.SqlTexts
