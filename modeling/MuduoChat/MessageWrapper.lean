import MuduoChat.TLVCodec
import Mathlib.Data.List.Induction

/-!
# Wrapped messages

`MessageWrapper` puts a header of six fields in front of a body: a magic
number, a version, a command, the length of the body, a checksum and a
sequence number.  The checksum is the sum of the body's bytes in 32 bits, so
it speaks about the bytes behind the header only, and about as many of them
as the length field says.
-/

namespace MuduoChat

namespace ProtoCodec

def computeChecksum (data : Bytes) : BitVec 32 :=
  data.foldl (fun checksum byte => checksum + byte.toBitVec.setWidth 32)
    0#32

end ProtoCodec

namespace MessageWrapper

structure Header where
  magic : BitVec 32
  version : BitVec 16
  cmd : BitVec 16
  bodyLen : BitVec 32
  checksum : BitVec 32
  seq : BitVec 64
  deriving DecidableEq

def kMagic : BitVec 32 := 0x43484154

/-- `sizeof(Header)`: its fields lie side by side. -/
def headerSize : ℕ := 24

section Codec

variable (host : ByteOrder)

/-- The bytes of a header in memory. -/
def Header.store (h : Header) : Bytes :=
  host.store 4 h.magic ++ (host.store 2 h.version ++
    (host.store 2 h.cmd ++ (host.store 4 h.bodyLen ++
      (host.store 4 h.checksum ++ host.store 8 h.seq))))

def Header.load (bytes : Bytes) : Header :=
  { magic := host.load 32 (bytes.take 4)
    version := host.load 16 ((bytes.drop 4).take 2)
    cmd := host.load 16 ((bytes.drop 6).take 2)
    bodyLen := host.load 32 ((bytes.drop 8).take 4)
    checksum := host.load 32 ((bytes.drop 12).take 4)
    seq := host.load 64 ((bytes.drop 16).take 8) }

def decodeHeader (data : Bytes) : Except StringFault Header := do
  let memory ← loadAt data 0 headerSize
  let h := Header.load host memory
  return {
    magic := host.networkToHost 4 h.magic
    version := host.networkToHost 2 h.version
    cmd := host.networkToHost 2 h.cmd
    bodyLen := host.networkToHost 4 h.bodyLen
    checksum := host.networkToHost 4 h.checksum
    seq := host.networkToHost 8 h.seq }

def encodeHeader (h : Header) : Bytes :=
  Header.store host {
    magic := host.hostToNetwork 4 h.magic
    version := host.hostToNetwork 2 h.version
    cmd := host.hostToNetwork 2 h.cmd
    bodyLen := host.hostToNetwork 4 h.bodyLen
    checksum := host.hostToNetwork 4 h.checksum
    seq := host.hostToNetwork 8 h.seq }

/-- The header that `wrap` fills in. -/
def wrapHeader (cmd : BitVec 16) (body : Bytes) (seq : BitVec 64) : Header :=
  { magic := kMagic
    version := 1
    cmd := cmd
    bodyLen := BitVec.ofNat 32 body.length
    checksum := ProtoCodec.computeChecksum body
    seq := seq }

def wrap (cmd : BitVec 16) (body : Bytes) (seq : BitVec 64) : Bytes :=
  encodeHeader host (wrapHeader cmd body seq) ++ body

/-- What is returned, and what is in `header` and `body` afterwards: they are
written even where the message is refused. -/
def unwrap (data : Bytes) (header : Header) (body : Bytes) :
    Except StringFault (Bool × Header × Bytes) :=
  if data.length < headerSize then return (false, header, body)
  else do
    let header ← decodeHeader host data
    if header.magic ≠ kMagic then
      return (false, header, body)
    else if data.length < sizeSum headerSize header.bodyLen.toNat then
      return (false, header, body)
    else
      let body ← substr data headerSize header.bodyLen.toNat
      let computedChecksum := ProtoCodec.computeChecksum body
      if computedChecksum ≠ header.checksum then
        return (false, header, body)
      else
        return (true, header, body)

end Codec

end MessageWrapper

/-! ## The checksum -/

namespace ProtoCodec

theorem computeChecksum_append (front back : Bytes) :
    computeChecksum (front ++ back) =
      computeChecksum front + computeChecksum back := by
  have hstart : ∀ (checksum : BitVec 32),
      back.foldl (fun checksum byte =>
        checksum + byte.toBitVec.setWidth 32) checksum =
          checksum + computeChecksum back := by
    unfold computeChecksum
    induction back with
    | nil => simp
    | cons byte back ih =>
        intro checksum
        rw [List.foldl_cons, ih, List.foldl_cons, ih (0#32 + _),
          BitVec.zero_add, BitVec.add_assoc]
  rw [computeChecksum, List.foldl_append, hstart]
  rfl

theorem toNat_computeChecksum (data : Bytes) :
    (computeChecksum data).toNat =
      (data.map UInt8.toNat).sum % 2 ^ 32 := by
  induction data using List.reverseRecOn with
  | nil => rfl
  | append_singleton data byte ih =>
      have hbyte : (computeChecksum [byte]).toNat = byte.toNat := by
        have hlt : byte.toNat < 2 ^ 32 := byte.toNat_lt.trans (by decide)
        simp only [computeChecksum, List.foldl_cons, List.foldl_nil,
          BitVec.zero_add, BitVec.toNat_setWidth, UInt8.toNat_toBitVec]
        exact Nat.mod_eq_of_lt hlt
      rw [computeChecksum_append, BitVec.toNat_add, ih, hbyte, List.map_append,
        List.sum_append, List.map_singleton, List.sum_singleton,
        Nat.mod_add_mod]

/-- A single byte cannot change without the checksum. -/
theorem computeChecksum_set_inj {data : Bytes} {position : ℕ} {value : UInt8}
    (hposition : position < data.length)
    (hsame : computeChecksum (data.set position value) =
      computeChecksum data) : data.set position value = data := by
  have hsplit : data = data.take position ++
      ([data[position]] ++ data.drop (position + 1)) := by
    simp
  have hset : data.set position value = data.take position ++
      ([value] ++ data.drop (position + 1)) := by
    rw [List.set_eq_take_append_cons_drop, if_pos hposition]
    rfl
  have hbytes : computeChecksum [value] =
      computeChecksum [data[position]] := by
    rw [hset] at hsame
    conv_rhs at hsame => rw [hsplit]
    simp only [computeChecksum_append] at hsame
    exact BitVec.add_left_inj _ |>.mp (BitVec.add_right_inj _ |>.mp hsame)
  have hvalue : value = data[position] := by
    have hnat := congrArg BitVec.toNat hbytes
    rw [toNat_computeChecksum, toNat_computeChecksum] at hnat
    have hfirst := value.toNat_lt
    have hsecond := data[position].toNat_lt
    apply UInt8.toNat_inj.mp
    simp only [List.map_singleton, List.sum_singleton] at hnat
    omega
  rw [hvalue, List.set_getElem_self]

end ProtoCodec

/-! ## The header on the wire -/

namespace MessageWrapper

def headerBytes (h : Header) : Bytes :=
  networkBytes 4 h.magic ++ (networkBytes 2 h.version ++
    (networkBytes 2 h.cmd ++ (networkBytes 4 h.bodyLen ++
      (networkBytes 4 h.checksum ++ networkBytes 8 h.seq))))

/-- A field of a header, read off the wire. -/
def wireField (width offset count : ℕ) (bytes : Bytes) : BitVec width :=
  bigEndian width ((bytes.drop offset).take count)

def wireHeader (bytes : Bytes) : Header :=
  { magic := wireField 32 0 4 bytes
    version := wireField 16 4 2 bytes
    cmd := wireField 16 6 2 bytes
    bodyLen := wireField 32 8 4 bytes
    checksum := wireField 32 12 4 bytes
    seq := wireField 64 16 8 bytes }

section Fields

variable {width offset count : ℕ}

theorem networkToHost_field (host : ByteOrder) {bytes : Bytes}
    (hlength : offset + count ≤ bytes.length) (hwidth : width = 8 * count) :
    host.networkToHost count
        (host.load width ((bytes.drop offset).take count)) =
      wireField width offset count bytes := by
  have hfield : ((bytes.drop offset).take count).length = count := by
    rw [List.length_take, List.length_drop]
    omega
  exact host.networkToHost_load hfield hwidth

theorem wireField_head (hwidth : width = 8 * count) (word : BitVec width)
    (after : Bytes) :
    wireField width 0 count (networkBytes count word ++ after) = word := by
  rw [wireField, List.drop_zero,
    List.take_left' (length_networkBytes count word)]
  exact bigEndian_networkBytes hwidth word

theorem wireField_skip (offset : ℕ) {size other : ℕ} (word : BitVec other)
    (after : Bytes) :
    wireField width (size + offset) count (networkBytes size word ++ after) =
      wireField width offset count after := by
  rw [wireField, ← List.drop_drop,
    List.drop_left' (length_networkBytes size word), wireField]

theorem networkBytes_wireField {bytes : Bytes}
    (hlength : offset + count ≤ bytes.length) (hwidth : width = 8 * count) :
    networkBytes count (wireField width offset count bytes) =
      (bytes.drop offset).take count := by
  have hfield : ((bytes.drop offset).take count).length = count := by
    rw [List.length_take, List.length_drop]
    omega
  exact networkBytes_bigEndian hfield hwidth

/-- Two fields side by side. -/
theorem take_append_take (bytes : Bytes) (offset first second : ℕ) :
    (bytes.drop offset).take first ++
        (bytes.drop (offset + first)).take second =
      (bytes.drop offset).take (first + second) := by
  rw [List.take_add, List.drop_drop]

/-- A byte outside a field is not read with it. -/
theorem wireField_set {bytes : Bytes} {position : ℕ} (value : UInt8)
    (houtside : position < offset ∨ offset + count ≤ position) :
    wireField width offset count (bytes.set position value) =
      wireField width offset count bytes := by
  have hbytes : ((bytes.set position value).drop offset).take count =
      (bytes.drop offset).take count := by
    rcases houtside with hbefore | hbehind
    · rw [List.drop_set_of_lt hbefore]
    · rw [List.drop_set, if_neg (by omega), List.take_set_of_le (by omega)]
  rw [wireField, hbytes, wireField]

end Fields

@[simp] theorem length_headerBytes (h : Header) :
    (headerBytes h).length = headerSize := by
  simp [headerBytes, headerSize]

theorem encodeHeader_eq (host : ByteOrder) (h : Header) :
    encodeHeader host h = headerBytes h := by
  have hshort : ∀ word : BitVec 16,
      host.store 2 (host.hostToNetwork 2 word) = networkBytes 2 word :=
    host.store_hostToNetwork rfl
  have hword : ∀ word : BitVec 32,
      host.store 4 (host.hostToNetwork 4 word) = networkBytes 4 word :=
    host.store_hostToNetwork rfl
  have hlong : ∀ word : BitVec 64,
      host.store 8 (host.hostToNetwork 8 word) = networkBytes 8 word :=
    host.store_hostToNetwork rfl
  simp only [encodeHeader, Header.store, hshort, hword, hlong]
  rfl

theorem decodeHeader_eq (host : ByteOrder) {data : Bytes}
    (hlength : headerSize ≤ data.length) :
    decodeHeader host data = .ok (wireHeader data) := by
  have hload : loadAt data 0 headerSize = .ok (data.take headerSize) :=
    if_pos (by omega)
  have hfield : ∀ {width offset count : ℕ}, width = 8 * count →
      offset + count ≤ headerSize →
        host.networkToHost count (host.load width
          (((data.take headerSize).drop offset).take count)) =
            wireField width offset count data := by
    intro width offset count hwidth hinside
    rw [networkToHost_field host (by rw [List.length_take]; omega) hwidth,
      wireField, List.drop_take, List.take_take,
      Nat.min_eq_left (by omega), wireField]
  simp only [decodeHeader, hload, bind, Except.bind, Header.load]
  refine congrArg Except.ok (Header.mk.injEq .. ▸ ?_)
  exact ⟨@hfield 32 0 4 rfl (by decide), @hfield 16 4 2 rfl (by decide),
    @hfield 16 6 2 rfl (by decide), @hfield 32 8 4 rfl (by decide),
    @hfield 32 12 4 rfl (by decide), @hfield 64 16 8 rfl (by decide)⟩

/-- A header is written in the first bytes of what it is read from. -/
theorem headerBytes_wireHeader {data : Bytes}
    (hlength : headerSize ≤ data.length) :
    headerBytes (wireHeader data) = data.take headerSize := by
  have hsize : 24 ≤ data.length := hlength
  have hmagic := take_append_take data 0 4 20
  have hversion := take_append_take data 4 2 18
  have hcmd := take_append_take data 6 2 16
  have hbodyLen := take_append_take data 8 4 12
  have hchecksum := take_append_take data 12 4 8
  simp only [headerBytes, wireHeader]
  rw [networkBytes_wireField (by omega) rfl,
    networkBytes_wireField (by omega) rfl,
    networkBytes_wireField (by omega) rfl,
    networkBytes_wireField (by omega) rfl,
    networkBytes_wireField (by omega) rfl,
    networkBytes_wireField (by omega) rfl,
    hchecksum, hbodyLen, hcmd, hversion, hmagic]
  rfl

theorem wireHeader_append (h : Header) (rest : Bytes) :
    wireHeader (headerBytes h ++ rest) = h := by
  have hmagic : wireField 32 0 4 (headerBytes h ++ rest) = h.magic := by
    simp only [headerBytes, List.append_assoc]
    exact wireField_head rfl _ _
  have hversion : wireField 16 4 2 (headerBytes h ++ rest) = h.version := by
    simp only [headerBytes, List.append_assoc]
    rw [wireField_skip 0]
    exact wireField_head rfl _ _
  have hcmd : wireField 16 6 2 (headerBytes h ++ rest) = h.cmd := by
    simp only [headerBytes, List.append_assoc]
    rw [wireField_skip 2, wireField_skip 0]
    exact wireField_head rfl _ _
  have hbodyLen : wireField 32 8 4 (headerBytes h ++ rest) = h.bodyLen := by
    simp only [headerBytes, List.append_assoc]
    rw [wireField_skip 4, wireField_skip 2, wireField_skip 0]
    exact wireField_head rfl _ _
  have hchecksum : wireField 32 12 4 (headerBytes h ++ rest) =
      h.checksum := by
    simp only [headerBytes, List.append_assoc]
    rw [wireField_skip 8, wireField_skip 6, wireField_skip 4,
      wireField_skip 0]
    exact wireField_head rfl _ _
  have hseq : wireField 64 16 8 (headerBytes h ++ rest) = h.seq := by
    simp only [headerBytes, List.append_assoc]
    rw [wireField_skip 12, wireField_skip 10, wireField_skip 8,
      wireField_skip 4, wireField_skip 0]
    exact wireField_head rfl _ _
  rw [wireHeader, hmagic, hversion, hcmd, hbodyLen, hchecksum, hseq]

/-! ## What is accepted -/

/-- The bytes behind the header, as many as it declares. -/
def wireBody (data : Bytes) : Bytes :=
  (data.drop headerSize).take (wireHeader data).bodyLen.toNat

structure Accepts (data : Bytes) : Prop where
  header_le : headerSize ≤ data.length
  magic_eq : (wireHeader data).magic = kMagic
  body_le : headerSize + (wireHeader data).bodyLen.toNat ≤ data.length
  checksum_eq : ProtoCodec.computeChecksum (wireBody data) =
    (wireHeader data).checksum

theorem length_wireBody {data : Bytes}
    (hbody : headerSize + (wireHeader data).bodyLen.toNat ≤ data.length) :
    (wireBody data).length = (wireHeader data).bodyLen.toNat := by
  rw [wireBody, List.length_take, List.length_drop]
  omega

/-- Nothing is read beyond the end, and the four tests decide. -/
theorem unwrap_spec (host : ByteOrder) (data : Bytes) (header : Header)
    (body : Bytes) :
    ∃ ok header' body', unwrap host data header body =
        .ok (ok, header', body') ∧
      (ok = true ↔ Accepts data) ∧
      (ok = true → header' = wireHeader data ∧ body' = wireBody data) := by
  unfold unwrap
  by_cases hshort : data.length < headerSize
  · rw [if_pos hshort]
    refine ⟨false, header, body, rfl, ?_, by simp⟩
    exact iff_of_false (by simp) fun haccepts => by
      have hheader := haccepts.header_le
      omega
  · have hdecode := decodeHeader_eq host (not_lt.mp hshort)
    have hdeclared := (wireHeader data).bodyLen.isLt
    have hsum : sizeSum headerSize (wireHeader data).bodyLen.toNat =
        headerSize + (wireHeader data).bodyLen.toNat := by
      apply Nat.mod_eq_of_lt
      unfold headerSize
      omega
    have hbody : substr data headerSize (wireHeader data).bodyLen.toNat =
        .ok (wireBody data) := if_pos (not_lt.mp hshort)
    rw [if_neg hshort, hdecode]
    simp only [bind, Except.bind, hsum, hbody]
    by_cases hmagic : (wireHeader data).magic = kMagic
    · rw [if_neg (not_not.mpr hmagic)]
      by_cases hlong : data.length <
          headerSize + (wireHeader data).bodyLen.toNat
      · rw [if_pos hlong]
        refine ⟨false, _, _, rfl, ?_, by simp⟩
        exact iff_of_false (by simp) fun haccepts => by
          have hbody := haccepts.body_le
          omega
      · rw [if_neg hlong]
        by_cases hchecksum : ProtoCodec.computeChecksum (wireBody data) =
            (wireHeader data).checksum
        · rw [if_neg (not_not.mpr hchecksum)]
          refine ⟨true, _, _, rfl, ?_, fun _ => ⟨rfl, rfl⟩⟩
          exact iff_of_true rfl
            ⟨not_lt.mp hshort, hmagic, not_lt.mp hlong, hchecksum⟩
        · rw [if_pos hchecksum]
          refine ⟨false, _, _, rfl, ?_, by simp⟩
          exact iff_of_false (by simp) fun haccepts =>
            hchecksum haccepts.checksum_eq
    · rw [if_pos hmagic]
      refine ⟨false, _, _, rfl, ?_, by simp⟩
      exact iff_of_false (by simp) fun haccepts =>
        hmagic haccepts.magic_eq

theorem unwrap_eq_true (host : ByteOrder) (data : Bytes)
    (header : Header) (body : Bytes) {header' : Header} {body' : Bytes} :
    unwrap host data header body = .ok (true, header', body') ↔
      Accepts data ∧ header' = wireHeader data ∧ body' = wireBody data := by
  obtain ⟨ok, found, received, hunwrap, haccepts, hfound⟩ :=
    unwrap_spec host data header body
  rw [hunwrap]
  constructor
  · intro htrue
    cases htrue
    exact ⟨haccepts.mp rfl, hfound rfl⟩
  · rintro ⟨hdata, rfl, rfl⟩
    have hok := haccepts.mpr hdata
    obtain ⟨rfl, rfl⟩ := hfound hok
    rw [hok]

theorem wire_append {h : Header} {body : Bytes}
    (hbody : h.bodyLen.toNat = body.length) (rest : Bytes) :
    wireHeader (headerBytes h ++ (body ++ rest)) = h ∧
      wireBody (headerBytes h ++ (body ++ rest)) = body := by
  have hheader := wireHeader_append h (body ++ rest)
  refine ⟨hheader, ?_⟩
  rw [wireBody, hheader, hbody, List.drop_left' (length_headerBytes h),
    List.take_left' rfl]

/-- The accepted strings begin with a header and a body that fit. -/
theorem accepts_iff {data : Bytes} {h : Header} {body : Bytes} :
    (Accepts data ∧ h = wireHeader data ∧ body = wireBody data) ↔
      headerBytes h ++ body <+: data ∧ h.magic = kMagic ∧
        h.bodyLen.toNat = body.length ∧
        ProtoCodec.computeChecksum body = h.checksum := by
  constructor
  · rintro ⟨haccepts, rfl, rfl⟩
    refine ⟨?_, haccepts.magic_eq, (length_wireBody haccepts.body_le).symm,
      haccepts.checksum_eq⟩
    rw [headerBytes_wireHeader haccepts.header_le, wireBody, ← List.take_add]
    exact List.take_prefix _ data
  · rintro ⟨⟨rest, rfl⟩, hmagic, hbody, hchecksum⟩
    rw [List.append_assoc]
    obtain ⟨hheader, hreceived⟩ := wire_append hbody rest
    refine ⟨⟨?_, ?_, ?_, ?_⟩, hheader.symm, hreceived.symm⟩
    · rw [List.length_append, length_headerBytes]
      omega
    · rw [hheader, hmagic]
    · rw [hheader, hbody, List.length_append, length_headerBytes,
        List.length_append]
      omega
    · rw [hheader, hreceived, hchecksum]

theorem toNat_wrapHeader_bodyLen (cmd : BitVec 16) {body : Bytes}
    (seq : BitVec 64) (hbody : body.length < 2 ^ 32) :
    (wrapHeader cmd body seq).bodyLen.toNat = body.length :=
  Nat.mod_eq_of_lt hbody

theorem wrap_eq (host : ByteOrder) (cmd : BitVec 16) (body : Bytes)
    (seq : BitVec 64) :
    wrap host cmd body seq =
      headerBytes (wrapHeader cmd body seq) ++ body := by
  rw [wrap, encodeHeader_eq]

/-- What was wrapped is unwrapped, in front of any further bytes, and nothing
is accepted but a header and its body. -/
theorem unwrap_accepts_format (host : ByteOrder) :
    (∀ (cmd : BitVec 16) (seq : BitVec 64) (body rest : Bytes)
        (header : Header) (before : Bytes), body.length < 2 ^ 32 →
      ∃ h, unwrap host (wrap host cmd body seq ++ rest) header before =
          .ok (true, h, body) ∧
        h.magic = kMagic ∧ h.version = 1 ∧ h.cmd = cmd ∧
        h.bodyLen.toNat = body.length ∧ h.seq = seq) ∧
      ∀ (data : Bytes) (header : Header) (before : Bytes) (h : Header)
          (body : Bytes),
        unwrap host data header before = .ok (true, h, body) ↔
          encodeHeader host h ++ body <+: data ∧ h.magic = kMagic ∧
            h.bodyLen.toNat = body.length ∧
            h.checksum.toNat = (body.map UInt8.toNat).sum % 2 ^ 32 := by
  constructor
  · intro cmd seq body rest header before hbody
    have hlen := toNat_wrapHeader_bodyLen cmd seq hbody
    refine ⟨wrapHeader cmd body seq, ?_, rfl, rfl, rfl, hlen, rfl⟩
    rw [unwrap_eq_true, accepts_iff, wrap_eq]
    exact ⟨List.prefix_append _ rest, rfl, hlen, rfl⟩
  · intro data header before h body
    have hchecksum : ProtoCodec.computeChecksum body = h.checksum ↔
        h.checksum.toNat = (body.map UInt8.toNat).sum % 2 ^ 32 := by
      rw [← ProtoCodec.toNat_computeChecksum, BitVec.toNat_inj, eq_comm]
    rw [unwrap_eq_true, accepts_iff, encodeHeader_eq, hchecksum]

/-! ## One corrupted byte -/

section Corruption

variable (host : ByteOrder) (cmd : BitVec 16) (seq : BitVec 64)
  (body : Bytes) (position : ℕ) (value : UInt8)

/-- A wrapped message with one byte replaced. -/
def corrupted : Bytes :=
  (wrap host cmd body seq).set position value

/-- The message is refused, or the body comes out as it went in. -/
def BodyProtected : Prop :=
  ∀ (header : Header) (before : Bytes), ∃ ok h received,
    unwrap host (corrupted host cmd seq body position value) header before =
      .ok (ok, h, received) ∧ (ok = true → received = body)

/-- The length field has been made smaller, and the bytes of the body that
this cuts off add nothing to the checksum. -/
structure CutsOff (length : ℕ) : Prop where
  field_le : 8 ≤ position
  lt_field : position < 12
  length_lt : length < body.length
  tail_sum : ((body.drop length).map UInt8.toNat).sum % 2 ^ 32 = 0

theorem bodyProtected_fails_length : ¬ BodyProtected .little 1 0 [0] 11 0 := by
  intro hprotected
  obtain ⟨ok, h, received, hunwrap, hreceived⟩ :=
    hprotected (wrapHeader 0 [] 0) []
  have hempty : unwrap .little (corrupted .little 1 0 [0] 11 0)
      (wrapHeader 0 [] 0) [] = .ok (true,
        { wrapHeader 1 [0] 0 with bodyLen := 0 }, []) := by
    decide
  rw [hempty] at hunwrap
  cases hunwrap
  exact absurd (hreceived rfl) (by decide)

end Corruption

section Corrupted

variable {host : ByteOrder} {cmd : BitVec 16} {seq : BitVec 64}
  {body : Bytes} {position : ℕ} {value : UInt8}

/-- A byte of the body has been replaced. -/
theorem corrupted_body (hposition : headerSize ≤ position) :
    corrupted host cmd seq body position value =
      headerBytes (wrapHeader cmd body seq) ++
        body.set (position - headerSize) value := by
  have hheader := length_headerBytes (wrapHeader cmd body seq)
  rw [corrupted, wrap_eq, List.set_append_right _ _ (by omega), hheader]

theorem corrupted_header (hposition : position < headerSize) :
    corrupted host cmd seq body position value =
      (headerBytes (wrapHeader cmd body seq)).set position value ++ body := by
  have hheader := length_headerBytes (wrapHeader cmd body seq)
  rw [corrupted, wrap_eq, List.set_append_left _ _ (by omega)]

@[simp] theorem length_corrupted :
    (corrupted host cmd seq body position value).length =
      headerSize + body.length := by
  rw [corrupted, List.length_set, wrap_eq, List.length_append,
    length_headerBytes]

theorem wireField_corrupted {width offset count : ℕ}
    (houtside : position < offset ∨ offset + count ≤ position) :
    wireField width offset count
        (corrupted host cmd seq body position value) =
      wireField width offset count
        (headerBytes (wrapHeader cmd body seq) ++ body) := by
  rw [corrupted, wireField_set value houtside, wrap_eq]

theorem wireBody_corrupted_header (hposition : position < headerSize) :
    wireBody (corrupted host cmd seq body position value) =
      body.take (wireHeader
        (corrupted host cmd seq body position value)).bodyLen.toNat := by
  have hdrop : (corrupted host cmd seq body position value).drop headerSize =
      body := by
    rw [corrupted_header hposition]
    exact List.drop_left' (by rw [List.length_set, length_headerBytes])
  rw [wireBody, hdrop]

/-- A byte outside the length field leaves the declared length alone. -/
theorem bodyLen_corrupted (houtside : position < 8 ∨ 12 ≤ position) :
    (wireHeader (corrupted host cmd seq body position value)).bodyLen =
      BitVec.ofNat 32 body.length := by
  have hwrapped := wireHeader_append (wrapHeader cmd body seq) body
  exact (wireField_corrupted houtside).trans
    (congrArg Header.bodyLen hwrapped)

theorem magic_corrupted (hfield : 4 ≤ position) :
    (wireHeader (corrupted host cmd seq body position value)).magic =
      kMagic := by
  have hwrapped := wireHeader_append (wrapHeader cmd body seq) body
  exact (wireField_corrupted (.inr (by omega))).trans
    (congrArg Header.magic hwrapped)

theorem checksum_corrupted (hfield : position < 12) :
    (wireHeader (corrupted host cmd seq body position value)).checksum =
      ProtoCodec.computeChecksum body := by
  have hwrapped := wireHeader_append (wrapHeader cmd body seq) body
  exact (wireField_corrupted (.inl hfield)).trans
    (congrArg Header.checksum hwrapped)

theorem computeChecksum_eq_zero_iff (data : Bytes) :
    ProtoCodec.computeChecksum data = 0 ↔
      (data.map UInt8.toNat).sum % 2 ^ 32 = 0 := by
  rw [← ProtoCodec.toNat_computeChecksum]
  exact (BitVec.toNat_inj (x := ProtoCodec.computeChecksum data)
    (y := 0)).symm

/-- Cutting bytes off keeps the checksum if they add nothing to it. -/
theorem computeChecksum_take_iff (length : ℕ) :
    ProtoCodec.computeChecksum (body.take length) =
        ProtoCodec.computeChecksum body ↔
      ((body.drop length).map UInt8.toNat).sum % 2 ^ 32 = 0 := by
  have hsplit : ProtoCodec.computeChecksum body =
      ProtoCodec.computeChecksum (body.take length) +
        ProtoCodec.computeChecksum (body.drop length) := by
    rw [← ProtoCodec.computeChecksum_append, List.take_append_drop]
  rw [hsplit, ← computeChecksum_eq_zero_iff]
  constructor
  · intro hsame
    exact BitVec.self_eq_add_right.mp hsame
  · intro hzero
    rw [hzero]
    exact (BitVec.add_zero _).symm

/-- A replaced byte of the body does not pass the checksum. -/
theorem body_protected_body (hbody : body.length < 2 ^ 32)
    (hposition : headerSize ≤ position)
    (haccepts : Accepts (corrupted host cmd seq body position value)) :
    wireBody (corrupted host cmd seq body position value) = body := by
  have hlength : (wrapHeader cmd body seq).bodyLen.toNat =
      (body.set (position - headerSize) value).length := by
    rw [List.length_set]
    exact toNat_wrapHeader_bodyLen cmd seq hbody
  have hsplit : corrupted host cmd seq body position value = _ :=
    corrupted_body hposition
  have hwire := wire_append hlength []
  rw [List.append_nil, ← hsplit] at hwire
  obtain ⟨hheader, hreceived⟩ := hwire
  have hchecksum := haccepts.checksum_eq
  rw [hheader, hreceived] at hchecksum
  rw [hreceived]
  by_cases hinside : position - headerSize < body.length
  · exact ProtoCodec.computeChecksum_set_inj hinside hchecksum
  · exact List.set_eq_of_length_le (not_lt.mp hinside)

/-- A replaced byte of the header passes the tests only if the body comes out
whole, or the length field has been made smaller. -/
theorem body_protected_header (hbody : body.length < 2 ^ 32)
    (hposition : position < headerSize)
    (haccepts : Accepts (corrupted host cmd seq body position value)) :
    wireBody (corrupted host cmd seq body position value) = body ∨
      CutsOff body position (wireHeader
        (corrupted host cmd seq body position value)).bodyLen.toNat := by
  have hlength := haccepts.body_le
  have hchecksum := haccepts.checksum_eq
  rw [length_corrupted] at hlength
  rw [wireBody_corrupted_header hposition] at hchecksum ⊢
  by_cases houtside : position < 8 ∨ 12 ≤ position
  · left
    rw [bodyLen_corrupted houtside, BitVec.toNat_ofNat,
      Nat.mod_eq_of_lt hbody, List.take_length]
  · obtain ⟨hfirst, hlast⟩ := not_or.mp houtside
    rw [checksum_corrupted (not_le.mp hlast),
      computeChecksum_take_iff] at hchecksum
    rcases Nat.eq_or_lt_of_le (Nat.le_of_add_le_add_left hlength) with
      hsame | hshorter
    · left
      rw [hsame, List.take_length]
    · exact .inr ⟨not_lt.mp hfirst, not_le.mp hlast, hshorter, hchecksum⟩

/-- A message that is cut off in this way passes every test. -/
theorem accepts_of_cutsOff (hcuts : CutsOff body position (wireHeader
      (corrupted host cmd seq body position value)).bodyLen.toNat) :
    Accepts (corrupted host cmd seq body position value) ∧
      wireBody (corrupted host cmd seq body position value) =
        body.take (wireHeader
          (corrupted host cmd seq body position value)).bodyLen.toNat := by
  obtain ⟨hfirst, hlast, hshorter, htail⟩ := hcuts
  have hposition : position < headerSize := hlast.trans (by decide)
  refine ⟨⟨?_, magic_corrupted (by omega), ?_, ?_⟩,
    wireBody_corrupted_header hposition⟩
  · rw [length_corrupted]
    exact Nat.le_add_right _ _
  · rw [length_corrupted]
    exact Nat.add_le_add_left hshorter.le _
  · rw [wireBody_corrupted_header hposition, checksum_corrupted hlast]
    exact (computeChecksum_take_iff _).mpr htail

/-- With one byte replaced, a message is refused or its body comes out as it
went in, except where the replaced byte cuts off bytes that add nothing to the
checksum: then the bytes in front of them come out. -/
theorem unwrap_corrupted (hbody : body.length < 2 ^ 32) (header : Header)
    (before : Bytes) :
    ∃ ok h received,
      unwrap host (corrupted host cmd seq body position value) header before =
          .ok (ok, h, received) ∧
        (ok = true → received = body ∨
          CutsOff body position (wireHeader
            (corrupted host cmd seq body position value)).bodyLen.toNat) ∧
        (CutsOff body position (wireHeader
            (corrupted host cmd seq body position value)).bodyLen.toNat →
          ok = true ∧ received = body.take (wireHeader
            (corrupted host cmd seq body position value)).bodyLen.toNat) := by
  obtain ⟨ok, h, received, hunwrap, hok, hreceived⟩ := unwrap_spec host
    (corrupted host cmd seq body position value) header before
  refine ⟨ok, h, received, hunwrap, ?_, ?_⟩
  · intro htrue
    have haccepts := hok.mp htrue
    rw [(hreceived htrue).2]
    by_cases hposition : headerSize ≤ position
    · exact .inl (body_protected_body hbody hposition haccepts)
    · exact body_protected_header hbody (not_le.mp hposition) haccepts
  · intro hcuts
    obtain ⟨haccepts, hcut⟩ := accepts_of_cutsOff hcuts
    have htrue := hok.mpr haccepts
    exact ⟨htrue, (hreceived htrue).2.trans hcut⟩

theorem unwrap_corrupted_length :
    ∃ ok h received,
      unwrap .little (corrupted .little 1 0 [5, 0] 11 1) (wrapHeader 0 [] 0)
          [] = .ok (ok, h, received) ∧ ok = true ∧ received = [5] := by
  obtain ⟨ok, h, received, hunwrap, -, hcut⟩ :=
    @unwrap_corrupted .little 1 0 [5, 0] 11 1 (by decide)
      (wrapHeader 0 [] 0) []
  exact ⟨ok, h, received, hunwrap,
    hcut ⟨by decide, by decide, by decide, by decide⟩⟩

end Corrupted

end MessageWrapper

end MuduoChat
