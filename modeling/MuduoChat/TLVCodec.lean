import MuduoChat.ChatCodec

/-!
# The type-length-value codec

`TLVCodec` of the protocol directory has two encoders and two decoders of its
own: a loop over all records of a string, which keeps an offset in `size_t`,
and one for a single record, which compares sizes.  Both are modelled with
their reads, which fail beyond the end of the string, and shown to follow one
frame reader, `tlvReader`.  What the loop decodes and what it leaves, the
round trip, and the agreement of the two decoders are then facts about that
reader.
-/

namespace MuduoChat

/-- A `std::string`: it cannot be longer than a `ptrdiff_t` can say. -/
structure StdString where
  bytes : Bytes
  size_lt : bytes.length < 2 ^ 63

inductive StringFault where
  | readBeyondEnd
  | outOfRange
  deriving DecidableEq

namespace StdString

def size (data : StdString) : ℕ :=
  data.bytes.length

def drop (data : StdString) (count : ℕ) : StdString :=
  ⟨data.bytes.drop count, by
    have hsize := data.size_lt
    rw [List.length_drop]
    omega⟩

end StdString

/-- A read through a pointer into a string. -/
def loadAt (data : Bytes) (offset count : ℕ) : Except StringFault Bytes :=
  if offset + count ≤ data.length then .ok ((data.drop offset).take count)
  else .error .readBeyondEnd

/-- `std::string::substr`, which throws if it begins beyond the end. -/
def substr (data : Bytes) (offset count : ℕ) : Except StringFault Bytes :=
  if offset ≤ data.length then .ok ((data.drop offset).take count)
  else .error .outOfRange

/-- A sum in `size_t`. -/
def sizeSum (first second : ℕ) : ℕ :=
  (first + second) % 2 ^ 64

structure TLV where
  type : BitVec 16
  length : BitVec 32
  value : Bytes
  deriving DecidableEq

/-- The record that holds a value. -/
def TLV.ofValue (type : BitVec 16) (value : Bytes) : TLV :=
  ⟨type, BitVec.ofNat 32 value.length, value⟩

/-- The declared length is that of the value. -/
def TLV.Sized (tlv : TLV) : Prop :=
  tlv.length.toNat = tlv.value.length

instance (tlv : TLV) : Decidable tlv.Sized :=
  inferInstanceAs (Decidable (_ = _))

namespace TLVCodec

section Codec

variable (host : ByteOrder)

def encode (tlvs : List TLV) : Bytes :=
  tlvs.flatMap fun tlv =>
    host.store 2 (host.hostToNetwork 2 tlv.type) ++
      (host.store 4 (host.hostToNetwork 4 tlv.length) ++ tlv.value)

/-- The loop of `decode`, from an offset on. -/
def decodeFrom (data : StdString) (offset : ℕ)
    (_hoffset : offset ≤ data.size) : Except StringFault (List TLV) :=
  if _hheader : sizeSum (sizeSum offset 2) 4 ≤ data.size then do
    let beType ← loadAt data.bytes offset 2
    let type := host.networkToHost 2 (host.load 16 beType)
    let beLength ← loadAt data.bytes (sizeSum offset 2) 4
    let length := host.networkToHost 4 (host.load 32 beLength)
    let start := sizeSum (sizeSum offset 2) 4
    if hlong : sizeSum start length.toNat > data.size then
      return []
    else
      let value ← substr data.bytes start length.toNat
      let rest ← decodeFrom data (sizeSum start length.toNat)
        (not_lt.mp hlong)
      return { type := type, length := length, value := value } :: rest
  else return []
termination_by data.size - offset
decreasing_by
  have hsize := data.size_lt
  have _hlength := length.isLt
  unfold StdString.size sizeSum at *
  omega

def decode (data : StdString) : Except StringFault (List TLV) :=
  decodeFrom host data 0 (Nat.zero_le _)

def encodeSingle (type : BitVec 16) (value : Bytes) : Bytes :=
  let length := BitVec.ofNat 32 value.length
  host.store 2 (host.hostToNetwork 2 type) ++
    (host.store 4 (host.hostToNetwork 4 length) ++ value)

/-- What is returned, and what is in `tlv` afterwards. -/
def decodeSingle (data : Bytes) (tlv : TLV) :
    Except StringFault (Bool × TLV) :=
  if data.length < 2 + 4 then return (false, tlv)
  else do
    let beType ← loadAt data 0 2
    let tlv := { tlv with type := host.networkToHost 2 (host.load 16 beType) }
    let beLength ← loadAt data 2 4
    let tlv := { tlv with
      length := host.networkToHost 4 (host.load 32 beLength) }
    if data.length < sizeSum (2 + 4) tlv.length.toNat then
      return (false, tlv)
    else
      let value ← substr data (2 + 4) tlv.length.toNat
      return (true, { tlv with value := value })

end Codec

/-! ## The wire format -/

def declaredType (bytes : Bytes) : BitVec 16 :=
  bigEndian 16 (bytes.take 2)

def declaredLength (bytes : Bytes) : BitVec 32 :=
  bigEndian 32 ((bytes.drop 2).take 4)

/-- The record at the head of a string, if it is complete. -/
def tlvHead (bytes : Bytes) : FrameHead TLV :=
  if bytes.length < 6 + (declaredLength bytes).toNat ∨ bytes.length < 6 then
    .incomplete
  else
    .frame
      { type := declaredType bytes
        length := declaredLength bytes
        value := (bytes.drop 6).take (declaredLength bytes).toNat }
      (6 + (declaredLength bytes).toNat)

theorem tlvHead_eq_frame {bytes : Bytes} {tlv : TLV} {size : ℕ}
    (hhead : tlvHead bytes = .frame tlv size) :
    6 ≤ bytes.length ∧ size = 6 + tlv.length.toNat ∧ size ≤ bytes.length ∧
      tlv = { type := declaredType bytes
              length := declaredLength bytes
              value := (bytes.drop 6).take tlv.length.toNat } := by
  unfold tlvHead at hhead
  split_ifs at hhead with hshort
  cases hhead
  obtain ⟨hlength, hheader⟩ := not_or.mp hshort
  exact ⟨not_lt.mp hheader, rfl, not_lt.mp hlength, rfl⟩

theorem tlvHead_ne_invalid (bytes : Bytes) : tlvHead bytes ≠ .invalid := by
  intro hhead
  unfold tlvHead at hhead
  split at hhead <;> cases hhead

theorem tlvHead_append {bytes : Bytes} {tlv : TLV} {size : ℕ} (more : Bytes)
    (hhead : tlvHead bytes = .frame tlv size) :
    tlvHead (bytes ++ more) = .frame tlv size := by
  obtain ⟨hheader, rfl, hsize, htlv⟩ := tlvHead_eq_frame hhead
  have htype : declaredType (bytes ++ more) = declaredType bytes := by
    rw [declaredType, List.take_append_of_le_length (by omega), declaredType]
  have hlength : declaredLength (bytes ++ more) = declaredLength bytes := by
    rw [declaredLength, List.drop_append_of_le_length (by omega),
      List.take_append_of_le_length (by rw [List.length_drop]; omega),
      declaredLength]
  have hdeclared : tlv.length = declaredLength bytes := by
    rw [htlv]
  rw [hdeclared] at hsize htlv
  have hlong : ¬ ((bytes ++ more).length <
      6 + (declaredLength bytes).toNat ∨ (bytes ++ more).length < 6) := by
    rw [List.length_append]
    omega
  rw [tlvHead, hlength, if_neg hlong, htype,
    List.drop_append_of_le_length hheader,
    List.take_append_of_le_length (by rw [List.length_drop]; omega),
    hdeclared, ← htlv]

def tlvReader : FrameReader UInt8 TLV where
  head := tlvHead
  size_pos := by
    intro bytes tlv size hhead
    obtain ⟨-, rfl, -, -⟩ := tlvHead_eq_frame hhead
    omega
  size_le := by
    intro bytes tlv size hhead
    exact (tlvHead_eq_frame hhead).2.2.1
  frame_append := by
    intro bytes tlv size more hhead
    exact tlvHead_append more hhead
  invalid_append := by
    intro bytes more hhead
    exact (tlvHead_ne_invalid bytes hhead).elim

end TLVCodec

end MuduoChat
