import Mathlib.Data.List.TakeWhile

/-!
# Strings as bytes and as C strings

A string is made of bytes, and not all bytes make a string: they have to be
UTF-8.

A string may hold NUL characters.  What is passed on as a pointer to its
characters ends at the first of them: the arguments of a format, a statement,
a column of a row, a field of a reply.  In UTF-8 no other character has a zero
byte, so that characters and bytes are cut at the same place.
-/

namespace MuduoChat

/-- What is left of a string after it was passed on as a C string. -/
def cstr (text : String) : String :=
  String.ofList (text.toList.takeWhile (· ≠ Char.ofNat 0))

def NulFree (text : String) : Prop :=
  Char.ofNat 0 ∉ text.toList

instance : DecidablePred NulFree := fun text =>
  inferInstanceAs (Decidable (Char.ofNat 0 ∉ text.toList))

variable {text : String}

@[simp] theorem toList_cstr (text : String) :
    (cstr text).toList = text.toList.takeWhile (· ≠ Char.ofNat 0) :=
  String.toList_ofList

theorem cstr_eq_self : cstr text = text ↔ NulFree text := by
  rw [← String.toList_inj, toList_cstr, List.takeWhile_eq_self_iff, NulFree]
  constructor
  · intro hall hnul
    simpa using hall _ hnul
  · intro hnul char hchar
    have hne : char ≠ Char.ofNat 0 := by
      rintro rfl
      exact hnul hchar
    simpa using hne

theorem NulFree.cstr (htext : NulFree text) : cstr text = text :=
  cstr_eq_self.mpr htext

theorem nulFree_cstr (text : String) : NulFree (cstr text) := by
  intro hnul
  rw [toList_cstr] at hnul
  simpa using List.mem_takeWhile_imp hnul

@[simp] theorem cstr_cstr (text : String) : cstr (cstr text) = cstr text :=
  (nulFree_cstr text).cstr

@[simp] theorem cstr_empty : cstr "" = "" := rfl

/-! ## Bytes -/

def bytesOf (text : String) : List UInt8 :=
  text.toByteArray.data.toList

/-- The string with these bytes, if they are UTF-8. -/
def stringOf? (bytes : List UInt8) : Option String :=
  String.fromUTF8? ⟨bytes.toArray⟩

theorem stringOf?_bytesOf (text : String) :
    stringOf? (bytesOf text) = some text := by
  have hbytes : (⟨(bytesOf text).toArray⟩ : ByteArray) = text.toByteArray :=
    rfl
  rw [stringOf?, hbytes, String.fromUTF8?, dif_pos text.isValidUTF8]
  rfl

@[simp] theorem stringOf?_nil : stringOf? [] = some "" :=
  stringOf?_bytesOf ""

theorem bytesOf_of_stringOf? {bytes : List UInt8}
    (hstring : stringOf? bytes = some text) : bytesOf text = bytes := by
  have hbytes : text.toByteArray = ⟨bytes.toArray⟩ := by
    unfold stringOf? String.fromUTF8? at hstring
    split at hstring
    · cases hstring
      rfl
    · cases hstring
  rw [bytesOf, hbytes]

theorem bytesOf_eq_nil : bytesOf text = [] ↔ text = "" := by
  constructor
  · intro hempty
    have hself := stringOf?_bytesOf text
    rw [hempty, stringOf?_nil] at hself
    exact (Option.some.inj hself).symm
  · rintro rfl
    rfl

end MuduoChat
