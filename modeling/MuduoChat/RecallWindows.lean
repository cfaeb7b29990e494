import MuduoChat.CivilTime
import MuduoChat.Services
import MuduoChat.StoredMessages
import Mathlib.Order.Interval.Set.UnorderedInterval

/-!
# The window for recalls

`created_at` is the local time at which a message was inserted, as text.
`ChatService::recallMessage` scans the text into a zeroed `struct tm`, and
`mktime` takes the fields as standard time because `tm_isdst` is zero.  In a
zone without daylight saving the result is the instant of the insertion; while
clocks are put forward it is later than that.
-/

namespace MuduoChat

open CivilTime

/-! ## Scanning what was rendered -/

namespace ChatService

theorem toNat_of_isDigit {char : Char} (hdigit : char.isDigit = true) :
    48 ≤ char.toNat ∧ char.toNat ≤ 57 :=
  Char.isDigit_iff_toNat.mp hdigit

theorem isSpace_of_isDigit {char : Char} (hdigit : char.isDigit = true) :
    isSpace char = false := by
  obtain ⟨hlow, -⟩ := toNat_of_isDigit hdigit
  have hblank : char ≠ ' ' := by
    rintro rfl
    exact absurd hlow (by decide)
  have hreturn : ¬ char ≤ '\r' := by
    intro hle
    have hcode : char.toNat ≤ 13 := hle
    omega
  simp [isSpace, hblank, hreturn]

theorem scanDigits_padded (width rest value number : Nat)
    (input : List Char) :
    scanDigits (width + rest) value (padded width number ++ input) =
      scanDigits rest (value * 10 ^ width + number % 10 ^ width) input := by
  induction width generalizing rest number input with
  | zero =>
      rw [Nat.zero_add, Nat.pow_zero, Nat.mod_one, Nat.mul_one, Nat.add_zero]
      rfl
  | succ width ih =>
      have hmod : number % 10 < 10 := Nat.mod_lt number (by decide)
      have hlast (value : Nat) : scanDigits (rest + 1) value
          (Nat.digitChar (number % 10) :: input) =
            scanDigits rest (value * 10 + number % 10) input := by
        rw [scanDigits, if_pos (isDigit_digitChar hmod),
          Nat.toNat_digitChar_of_lt_ten hmod]
        congr 2
        exact Nat.add_sub_cancel_left 48 _
      have hsum : (value * 10 ^ width + number / 10 % 10 ^ width) * 10 +
          number % 10 =
          value * 10 ^ (width + 1) + number % 10 ^ (width + 1) := by
        have hsplit : number % (10 * 10 ^ width) =
            number % 10 + 10 * (number / 10 % 10 ^ width) := Nat.mod_mul
        rw [Nat.pow_succ', hsplit, Nat.add_mul, Nat.mul_assoc,
          Nat.mul_comm (10 ^ width) 10]
        omega
      rw [padded, List.append_assoc, List.singleton_append,
        show width + 1 + rest = width + (rest + 1) by omega, ih, hlast, hsum]

/-- A conversion that starts at a digit reads digits only. -/
theorem scanInt_of_isDigit {width : Nat} {digit : Char} {input : List Char}
    (hwidth : 0 < width) (hdigit : digit.isDigit = true) :
    scanInt width (digit :: input) =
      some (((scanDigits width 0 (digit :: input)).1 : Int),
        (scanDigits width 0 (digit :: input)).2) := by
  unfold scanInt
  rw [List.dropWhile_cons_of_neg (by simp [isSpace_of_isDigit hdigit])]
  split
  · rename_i heq
    cases heq
    cases hdigit
  · rename_i heq
    cases heq
    cases hdigit
  · rename_i heq
    cases heq
    rw [if_pos ⟨hdigit, hwidth⟩]
  · rename_i heq
    cases heq

theorem scanInt_padded {width number : Nat}
    (hnumber : number < 10 ^ (width + 1)) (input : List Char) :
    scanInt (width + 1) (padded (width + 1) number ++ input) =
      some ((number : Int), input) := by
  obtain ⟨digit, rest, hpadded, hdigit⟩ := exists_padded width number
  have hdigits := scanDigits_padded (width + 1) 0 0 number input
  rw [Nat.add_zero, Nat.mod_eq_of_lt hnumber, Nat.zero_mul, Nat.zero_add]
    at hdigits
  rw [hpadded, List.cons_append] at hdigits ⊢
  rw [scanInt_of_isDigit (Nat.succ_pos width) hdigit, hdigits]
  rfl

/-- A blank in the format skips blanks; the digits behind it stay. -/
theorem scanLiteral_blank (width number : Nat) (input : List Char) :
    scanLiteral ' ' (' ' :: (padded (width + 1) number ++ input)) =
      some (padded (width + 1) number ++ input) := by
  obtain ⟨digit, rest, hpadded, hdigit⟩ := exists_padded width number
  have hblank : isSpace ' ' = true := by decide
  rw [scanLiteral, if_pos hblank, List.dropWhile_cons_of_pos hblank, hpadded,
    List.cons_append,
    List.dropWhile_cons_of_neg (by simp [isSpace_of_isDigit hdigit])]

/-- The years that `YYYY` can show. -/
def FourDigits (year : Int) : Prop :=
  0 ≤ year ∧ year ≤ 9999

instance (year : Int) : Decidable (FourDigits year) :=
  inferInstanceAs (Decidable (_ ∧ _))

theorem nulFree_render (shown : DateTime) : NulFree shown.render := by
  have hdigits {width number : Nat} :
      Char.ofNat 0 ∉ padded width number := by
    intro hnul
    exact absurd (isDigit_of_mem_padded hnul) (by decide)
  rw [NulFree, DateTime.render, String.toList_ofList]
  simp only [List.mem_append, List.mem_cons, hdigits, false_or, or_false]
  decide

theorem parseCreatedAt_render {shown : DateTime} (hvalid : shown.Valid)
    (hyear : FourDigits shown.year) :
    parseCreatedAt shown.render =
      { year := shown.year - 1900
        mon := shown.month - 1
        mday := shown.day
        hour := shown.hour
        min := shown.minute
        sec := shown.second } := by
  obtain ⟨hmonth, hmonth', hday, hday', hhour, hminute, hsecond⟩ := hvalid
  have hdays := daysInMonth_le shown.year shown.month
  have hdash (input : List Char) : scanLiteral '-' ('-' :: input) =
      some input := by
    simp [scanLiteral, isSpace]
  have hcolon (input : List Char) : scanLiteral ':' (':' :: input) =
      some input := by
    simp [scanLiteral, isSpace]
  have hlast := @scanInt_padded 1 shown.second (by omega) []
  rw [List.append_nil] at hlast
  have hfields : scanFields
      [(4, some '-'), (2, some '-'), (2, some ' '), (2, some ':'),
        (2, some ':'), (2, none)] shown.render.toList =
      [(shown.year.toNat : Int), shown.month, shown.day, shown.hour,
        shown.minute, shown.second] := by
    rw [DateTime.render, String.toList_ofList]
    simp only [scanFields, @scanInt_padded 3 shown.year.toNat
        (by have := hyear.2; omega), hdash,
      @scanInt_padded 1 shown.month (by omega),
      @scanInt_padded 1 shown.day (by omega), scanLiteral_blank,
      @scanInt_padded 1 shown.hour (by omega), hcolon,
      @scanInt_padded 1 shown.minute (by omega), hlast]
  unfold parseCreatedAt
  rw [hfields]
  have hnat : (shown.year.toNat : Int) = shown.year :=
    Int.toNat_of_nonneg hyear.1
  simp [hnat]

end ChatService

/-! ## Local time -/

/-- A time zone as POSIX describes it. -/
structure TimeZone where
  /-- Standard time less universal time, in seconds. -/
  standard : Int
  /-- The correction in force at an instant, zero while standard time is
  kept. -/
  saving : Int → Int

namespace TimeZone

variable (zone : TimeZone)

/-- What clocks show at an instant. -/
def shown (instant : Int) : DateTime :=
  ofSeconds (instant + zone.standard + zone.saving instant)

/-- `CURRENT_TIMESTAMP` as the client reads it. -/
def createdAt (instant : Int) : String :=
  (zone.shown instant).render

/-- `mktime` with `tm_isdst = 0`: the fields are taken as standard time, and
brought into their ranges first. -/
def mktime (tm : Tm) : Int :=
  seconds (tm.year + 1900 + tm.mon / 12) ((tm.mon % 12).toNat + 1) tm.mday
    tm.hour tm.min tm.sec - zone.standard

/-- The instant that is read back is off by the correction. -/
theorem mktime_createdAt {instant : Int}
    (hyear : ChatService.FourDigits (zone.shown instant).year) :
    zone.mktime (ChatService.parseCreatedAt (zone.createdAt instant)) =
      instant + zone.saving instant := by
  have hvalid : (zone.shown instant).Valid := valid_ofSeconds _
  have hseconds : (zone.shown instant).seconds =
      instant + zone.standard + zone.saving instant := seconds_ofSeconds _
  rw [createdAt, ChatService.parseCreatedAt_render hvalid hyear]
  have hyears : (zone.shown instant).year - 1900 + 1900 +
      ((zone.shown instant).month - 1) / 12 = (zone.shown instant).year := by
    have hlow := hvalid.month_pos
    have hhigh := hvalid.month_le
    omega
  have hmonth : ((((zone.shown instant).month : Int) - 1) % 12).toNat + 1 =
      (zone.shown instant).month := by
    have hlow := hvalid.month_pos
    have hhigh := hvalid.month_le
    omega
  unfold mktime
  dsimp only
  rw [hyears, hmonth]
  unfold DateTime.seconds at hseconds
  rw [hseconds]
  omega

end TimeZone

/-! ## The age test -/

namespace ChatService

/-- A recall of a message in the database at the instant `now` gets past the
age test and on to the repository's `recallMessage`. -/
def AgeTestPasses (zone : TimeZone) (now : Int) (db : Database) (msgId : Int)
    (uid recipient room : String) : Prop :=
  ∃ msg rest,
    (Prog.run Database.exec db (MySQLMessageRepo.getMessage msgId)).2 =
        some msg ∧
      Prog.Reaches (recallMessage msgId uid recipient room)
        [⟨.getMessage msgId, some msg⟩, ⟨.time, now⟩,
          ⟨.mktime (parseCreatedAt msg.createdAt),
            zone.mktime (parseCreatedAt msg.createdAt)⟩]
        (.call (.recallMessage msgId uid) rest)

/-- What is left to do once the author's message and both times are known. -/
def ageTest (msgId : Int) (uid : String) (now msgTime : Int) :
    ServiceProg RecallResult :=
  if now - msgTime > 120 then
    .ret { reason := "recall window expired (2 min)" }
  else .call (.recallMessage msgId uid) fun recalled =>
    if !recalled then .ret { reason := "recall failed" }
    else .ret { success := true }

theorem reaches_ageTest {msgId now msgTime : Int} {msg : MessageInfo}
    {uid recipient room : String} {rest : ServiceProg RecallResult} :
    Prog.Reaches (recallMessage msgId uid recipient room)
        [⟨.getMessage msgId, some msg⟩, ⟨.time, now⟩,
          ⟨.mktime (parseCreatedAt msg.createdAt), msgTime⟩] rest ↔
      msg.fromUid = uid ∧ rest = ageTest msgId uid now msgTime := by
  by_cases hauthor : msg.fromUid = uid
  · simp only [recallMessage, repository, Prog.request_bind,
      Prog.reaches_call, hauthor, ne_eq, not_true_eq_false, if_false,
      Prog.reaches_nil, true_and]
    rfl
  · simp only [recallMessage, repository, Prog.request_bind,
      Prog.reaches_call, ne_eq, hauthor, not_false_eq_true, if_true,
      false_and, iff_false]
    rintro ⟨⟩

theorem ageTestPasses_iff {zone : TimeZone} {now : Int} {db : Database}
    {msgId : Int} {msg : MessageInfo} {uid recipient room : String}
    (hmsg : (Prog.run Database.exec db
      (MySQLMessageRepo.getMessage msgId)).2 = some msg) :
    AgeTestPasses zone now db msgId uid recipient room ↔
      msg.fromUid = uid ∧
        now - zone.mktime (parseCreatedAt msg.createdAt) ≤ 120 := by
  unfold AgeTestPasses
  constructor
  · rintro ⟨found, rest, hfound, hreaches⟩
    rw [hmsg] at hfound
    cases hfound
    obtain ⟨hauthor, hrest⟩ := reaches_ageTest.mp hreaches
    refine ⟨hauthor, ?_⟩
    rw [ageTest] at hrest
    by_contra hlate
    rw [if_pos (by omega)] at hrest
    cases hrest
  · rintro ⟨hauthor, hearly⟩
    have hpasses : ¬ now - zone.mktime (parseCreatedAt msg.createdAt) >
        120 := by
      omega
    exact ⟨msg, _, hmsg,
      reaches_ageTest.mpr ⟨hauthor, (if_neg hpasses).symm⟩⟩

section Window

/-- A message inserted by `sender` while clocks in the zone show the instant
`inserted`, and the database at some time after that. -/
structure InsertedAt (zone : TimeZone) (inserted : Int) (msgId : Int)
    (sender : String) (after : Database) : Prop where
  year : FourDigits (zone.shown inserted).year
  row : ∃ (db stored : Database) (seq : Int) (roomId : Option Int)
      (recipient : Option String) (content : String),
    db.clock = zone.createdAt inserted ∧
      db.execStatement
        (.insertMessage seq roomId sender recipient content) =
          (stored, some msgId) ∧
      stored.Later (fun _ => True) after

variable {zone : TimeZone} {inserted now msgId : Int} {after : Database}
  {sender : String}

/-- The test passes until two minutes and the correction have gone by.  It is
not reached when the name of the author that is read is not the author's. -/
theorem InsertedAt.passes_iff
    (hinserted : InsertedAt zone inserted msgId sender after)
    (now : Int) (recipient room : String) :
    AgeTestPasses zone now after msgId sender recipient room ↔
      NulFree sender ∧ now - inserted ≤ 120 + zone.saving inserted := by
  obtain ⟨hyear, db, stored, seq, roomId, target, content, hclock, hinsert,
    hlater⟩ := hinserted
  have hstored := (Database.stored_insertMessage hinsert).later hlater
  obtain ⟨row, hselect, hshows⟩ := hstored.selectMessage
  have hmsg : (Prog.run Database.exec after
      (MySQLMessageRepo.getMessage msgId)).2 = some row.ofRow := by
    simp [MySQLMessageRepo.getMessage, mysqlQuery, Database.exec, hselect]
  have hsender : row.ofRow.fromUid = cstr sender :=
    congrArg cstr hshows.fromUid
  have hcreated : row.ofRow.createdAt = zone.createdAt inserted :=
    (congrArg cstr (hshows.createdAt.trans hclock)).trans
      (nulFree_render _).cstr
  rw [ageTestPasses_iff hmsg, hsender, hcreated,
    zone.mktime_createdAt hyear, cstr_eq_self]
  refine and_congr_right fun _ => ?_
  omega

/-- The window is two minutes exactly, unless the age of the message lies
between two minutes and two minutes corrected.  An author who is not read
back as such can recall nothing, which is right after two minutes only. -/
theorem recall_window_iff
    (hinserted : InsertedAt zone inserted msgId sender after)
    (recipient room : String) :
    (AgeTestPasses zone now after msgId sender recipient room ↔
        now - inserted ≤ 120) ↔
      (NulFree sender →
          now - inserted ∉ Set.uIoc 120 (120 + zone.saving inserted)) ∧
        (NulFree sender ∨ 120 < now - inserted) := by
  rw [hinserted.passes_iff, Set.mem_uIoc]
  by_cases hnul : NulFree sender
  · simp only [hnul, true_and, true_or, and_true, true_imp_iff]
    omega
  · simp only [hnul, false_and, false_iff, false_imp_iff, true_and, false_or]
    omega

def aliceAlone (zone : TimeZone) (inserted : Int) : Database :=
  { users := KeyedTable.empty.insertIgnore { uid := "alice" }
    clock := zone.createdAt inserted }

/-- Alice's message, before anything else is done. -/
def aliceWrites (zone : TimeZone) (inserted : Int) : Database :=
  ((aliceAlone zone inserted).execStatement
    (.insertMessage 1 none "alice" (some "bob") "hello")).1

theorem insertedAt_aliceWrites {zone : TimeZone} {inserted : Int}
    (hyear : FourDigits (zone.shown inserted).year) :
    InsertedAt zone inserted 1 "alice" (aliceWrites zone inserted) where
  year := hyear
  row := ⟨aliceAlone zone inserted, aliceWrites zone inserted, 1, none,
    some "bob", "hello", rfl, rfl, .refl⟩

/-- An hour east of Greenwich, with or without an hour of daylight saving. -/
def standardTime : TimeZone := ⟨3600, fun _ => 0⟩

def summerTime : TimeZone := ⟨3600, fun _ => 3600⟩

theorem recall_window_standardTime :
    AgeTestPasses standardTime 1714557720
        (aliceWrites standardTime 1714557600) 1 "alice" "bob" "" ↔
      (1714557720 : Int) - 1714557600 ≤ 120 := by
  have hinserted : InsertedAt standardTime 1714557600 1 "alice"
      (aliceWrites standardTime 1714557600) :=
    insertedAt_aliceWrites (by decide)
  refine (recall_window_iff hinserted "bob" "").mpr
    ⟨fun _ => ?_, .inl (by decide)⟩
  have hsaving : standardTime.saving 1714557600 = 0 := rfl
  rw [hsaving, Set.mem_uIoc]
  omega

/-- In summer, a message of noon can still be recalled fifty minutes later. -/
theorem recall_window_fails_summerTime :
    summerTime.createdAt 1714557600 = "2024-05-01 12:00:00" ∧
      AgeTestPasses summerTime 1714560600
        (aliceWrites summerTime 1714557600) 1 "alice" "bob" "" ∧
      ¬ (1714560600 : Int) - 1714557600 ≤ 120 := by
  have hinserted : InsertedAt summerTime 1714557600 1 "alice"
      (aliceWrites summerTime 1714557600) :=
    insertedAt_aliceWrites (by decide)
  refine ⟨by decide, (hinserted.passes_iff _ "bob" "").mpr
    ⟨by decide, ?_⟩, by omega⟩
  have hsaving : summerTime.saving 1714557600 = 3600 := rfl
  rw [hsaving]
  omega

end Window

end ChatService

end MuduoChat
