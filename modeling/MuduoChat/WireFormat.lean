import MuduoChat.CStrings
import Mathlib.Algebra.GroupWithZero.Nat
import Mathlib.Data.Nat.Log

/-!
# The protobuf wire format

Fields of a proto3 message as bytes: a key with the field's number, and a
base-128 varint or a length and that many bytes after it.  A field with its
default value is left out; a field that holds a message is written whenever
it is set.  The lemmas say how long each field is.
-/

namespace MuduoChat.WireFormat

/-- Seven bits a byte, the lowest first; all bytes but the last have their top
bit set. -/
def varint (value : ℕ) : List UInt8 :=
  if value < 128 then [UInt8.ofNat value]
  else UInt8.ofNat (value % 128 + 128) :: varint (value / 128)

def key (number wireType : ℕ) : List UInt8 :=
  varint (number * 8 + wireType)

def varintField (number value : ℕ) : List UInt8 :=
  if value = 0 then [] else key number 0 ++ varint value

def uint64Field (number value : ℕ) : List UInt8 :=
  varintField number (value % 2 ^ 64)

def uint32Field (number value : ℕ) : List UInt8 :=
  varintField number (value % 2 ^ 32)

def boolField (number : ℕ) (flag : Bool) : List UInt8 :=
  varintField number flag.toNat

def messageField (number : ℕ) (body : List UInt8) : List UInt8 :=
  key number 2 ++ varint body.length ++ body

/-- A string as it is held in memory; what is written is not checked. -/
def bytesField (number : ℕ) (bytes : List UInt8) : List UInt8 :=
  if bytes = [] then [] else messageField number bytes

def stringField (number : ℕ) (text : String) : List UInt8 :=
  bytesField number (bytesOf text)

/-! ## Sizes -/

def varintSize (value : ℕ) : ℕ :=
  Nat.log 128 value + 1

def uintSize (value : ℕ) : ℕ :=
  if value = 0 then 0 else 1 + varintSize value

/-- A length and that many bytes. -/
def delimitedSize (size : ℕ) : ℕ :=
  varintSize size + size

def stringSize (text : String) : ℕ :=
  if text = "" then 0 else 1 + delimitedSize text.utf8ByteSize

@[simp] theorem stringSize_empty : stringSize "" = 0 := rfl

@[simp] theorem uintSize_zero : uintSize 0 = 0 := rfl

theorem length_varint (value : ℕ) :
    (varint value).length = varintSize value := by
  induction value using varint.induct with
  | case1 value hsmall =>
      rw [varint, if_pos hsmall, varintSize, Nat.log_of_lt hsmall]
      rfl
  | case2 value hlarge ih =>
      have hlog := Nat.log_of_one_lt_of_le (show 1 < 128 by decide)
        (Nat.le_of_not_lt hlarge)
      rw [varint, if_neg hlarge, List.length_cons, ih, varintSize, varintSize,
        hlog]

theorem varintSize_mono {first second : ℕ} (hle : first ≤ second) :
    varintSize first ≤ varintSize second :=
  Nat.succ_le_succ (Nat.log_mono_right hle)

theorem varintSize_of_lt {value : ℕ} (hsmall : value < 128) :
    varintSize value = 1 := by
  rw [varintSize, Nat.log_of_lt hsmall]

theorem varintSize_pow (digits : ℕ) :
    varintSize (128 ^ digits) = digits + 1 := by
  rw [varintSize, Nat.log_pow (by decide)]

theorem varintSize_le {value digits : ℕ}
    (hvalue : value < 128 ^ (digits + 1)) : varintSize value ≤ digits + 1 :=
  Nat.succ_le_succ (Nat.lt_succ_iff.mp
    (Nat.log_lt_of_lt_pow' (Nat.succ_ne_zero digits) hvalue))

/-- How large a message may be for its length and itself to fit in a limit,
when all lengths about that limit take the same number of bytes. -/
theorem delimitedSize_le_iff {size limit digits : ℕ}
    (hlow : 128 ^ digits ≤ limit + 1) (hhigh : limit < 128 ^ (digits + 1)) :
    delimitedSize size ≤ limit + (digits + 1) ↔ size ≤ limit := by
  unfold delimitedSize
  constructor
  · intro hfits
    by_contra hlarge
    have hpow : 128 ^ digits ≤ size := by omega
    have hdigits : digits + 1 ≤ varintSize size := by
      rw [← varintSize_pow digits]
      exact varintSize_mono hpow
    omega
  · intro hsize
    have hvarint : varintSize size ≤ digits + 1 :=
      varintSize_le (Nat.lt_of_le_of_lt hsize hhigh)
    omega

/-! ## Lengths of fields -/

theorem length_key_one {number wireType : ℕ} (hnumber : number < 16)
    (htype : wireType < 8) : (key number wireType).length = 1 := by
  rw [key, length_varint, varintSize_of_lt (by omega)]

theorem length_key_two {number wireType : ℕ} (hlow : 16 ≤ number)
    (hhigh : number < 2048) (htype : wireType < 8) :
    (key number wireType).length = 2 := by
  have hatLeast : varintSize (128 ^ 1) ≤ varintSize (number * 8 + wireType) :=
    varintSize_mono (by omega)
  have hatMost : varintSize (number * 8 + wireType) ≤ 1 + 1 :=
    varintSize_le (by omega)
  rw [varintSize_pow] at hatLeast
  rw [key, length_varint]
  omega

theorem length_messageField (number : ℕ) (body : List UInt8) :
    (messageField number body).length =
      (key number 2).length + delimitedSize body.length := by
  simp only [messageField, List.length_append, length_varint, delimitedSize]
  omega

theorem length_stringField {number : ℕ} (hnumber : number < 16)
    (text : String) :
    (stringField number text).length = stringSize text := by
  by_cases hempty : text = ""
  · subst hempty
    rfl
  · rw [stringField, bytesField, if_neg (bytesOf_eq_nil.not.mpr hempty),
      stringSize, if_neg hempty, length_messageField,
      length_key_one hnumber (by decide)]
    rfl

theorem length_bytesField {number : ℕ} (hnumber : number < 16)
    (bytes : List UInt8) :
    (bytesField number bytes).length ≤ 1 + delimitedSize bytes.length := by
  unfold bytesField
  split_ifs with hempty
  · exact Nat.zero_le _
  · rw [length_messageField, length_key_one hnumber (by decide)]

theorem length_varintField {number : ℕ} (hnumber : number < 16)
    (value : ℕ) : (varintField number value).length = uintSize value := by
  unfold varintField uintSize
  split_ifs with hzero
  · rfl
  · rw [List.length_append, length_key_one hnumber (by decide),
      length_varint]

theorem length_boolField {number : ℕ} (hnumber : number < 16)
    (flag : Bool) :
    (boolField number flag).length = if flag then 2 else 0 := by
  rw [boolField, length_varintField hnumber]
  cases flag with
  | false => rfl
  | true => simp [uintSize, varintSize_of_lt]

end MuduoChat.WireFormat
