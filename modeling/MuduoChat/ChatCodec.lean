import MuduoChat.FrameStreams
import MuduoChat.HostByteOrder

/-!
# The length-prefixed codec of server and client

Four pieces of code agree on one wire format: the server's reading loop
`ChatCodec::onMessage` and its `sendServerMessage`, the client's reading loop
`ChatClient::onMessage` and its `sendEnvelope`.  They are modelled here one by
one, with the machine arithmetic of their length checks, on muduo's `Buffer`
as a byte queue whose `retrieve` refuses to go past the readable bytes.

Parsing the payload and acting on it does not touch the buffer, so a loop is
modelled by the calls it makes: one `handleMessage` for each payload, and
`shutdown` for a length it does not accept.
-/

namespace MuduoChat

abbrev Bytes := List UInt8

structure Buffer where
  bytes : Bytes := []
  deriving DecidableEq

inductive BufferFault where
  | retrieveBeyondReadable
  deriving DecidableEq

/-- A signed 32-bit value converted to `size_t`. -/
def toSize (value : BitVec 32) : ℕ :=
  (value.signExtend 64).toNat

inductive CodecCall where
  | handleMessage (payload : Bytes)
  | shutdown
  deriving DecidableEq

def CodecCall.payload? : CodecCall → Option Bytes
  | .handleMessage payload => some payload
  | .shutdown => none

def dispatched (calls : List CodecCall) : List Bytes :=
  calls.filterMap CodecCall.payload?

/-- One pass through the body of a reading loop: it either leaves the loop,
having made some last calls, or hands over a payload and goes round again. -/
inductive Round where
  | leave (calls : List CodecCall)
  | handled (payload : Bytes) (rest : Buffer)

namespace Buffer

def readableBytes (buffer : Buffer) : ℕ :=
  buffer.bytes.length

def append (buffer : Buffer) (data : Bytes) : Buffer :=
  ⟨buffer.bytes ++ data⟩

def prepend (buffer : Buffer) (data : Bytes) : Buffer :=
  ⟨data ++ buffer.bytes⟩

def peek (buffer : Buffer) (count : ℕ) : Bytes :=
  buffer.bytes.take count

def retrieve (buffer : Buffer) (count : ℕ) : Except BufferFault Buffer :=
  if count ≤ buffer.readableBytes then .ok ⟨buffer.bytes.drop count⟩
  else .error .retrieveBeyondReadable

theorem readableBytes_of_retrieve {buffer rest : Buffer} {count : ℕ}
    (hretrieve : buffer.retrieve count = .ok rest) :
    rest.readableBytes + count = buffer.readableBytes := by
  unfold retrieve at hretrieve
  split_ifs at hretrieve with hle
  cases hretrieve
  simp only [readableBytes, List.length_drop] at hle ⊢
  omega

theorem readableBytes_of_two_retrieves {buffer rest : Buffer}
    {payload : Bytes} {header size : ℕ} {take : Buffer → Bytes}
    (hpos : 0 < header)
    (hround : (do
      let body ← buffer.retrieve header
      let payload := take body
      let rest ← body.retrieve size
      return Round.handled payload rest : Except BufferFault Round) =
        .ok (.handled payload rest)) :
    rest.readableBytes < buffer.readableBytes := by
  cases hbody : buffer.retrieve header with
  | error fault =>
      rw [hbody] at hround
      cases hround
  | ok body =>
      have hheader := readableBytes_of_retrieve hbody
      rw [hbody] at hround
      cases hrest : body.retrieve size with
      | error fault =>
          simp only [bind, Except.bind, hrest] at hround
          cases hround
      | ok rest =>
          have hsize := readableBytes_of_retrieve hrest
          simp only [bind, Except.bind, hrest] at hround
          cases hround
          omega

end Buffer

/-- The `while` loop around a body that consumes input whenever it goes round
again. -/
def readLoop (body : Buffer → Except BufferFault Round)
    (hbody : ∀ {buffer payload rest},
      body buffer = .ok (.handled payload rest) →
        rest.readableBytes < buffer.readableBytes)
    (buffer : Buffer) : Except BufferFault (List CodecCall × Buffer) :=
  match _hround : body buffer with
  | .error fault => .error fault
  | .ok (.leave calls) => .ok (calls, buffer)
  | .ok (.handled payload rest) =>
      (readLoop body hbody rest).map fun result =>
        (.handleMessage payload :: result.1, result.2)
termination_by buffer.readableBytes
decreasing_by exact hbody _hround

/-! ## The server -/

namespace ChatCodec

def kHeaderLen : ℕ := 4

/-- The comparison `readableBytes() >= len + kHeaderLen` is made in `size_t`,
the sum wrapping at 64 bits. -/
def frameSize (len : BitVec 32) : ℕ :=
  (len.signExtend 64 + BitVec.ofNat 64 kHeaderLen).toNat

/-- The loop body once the length is known.  It hands over the payload before
it retrieves it. -/
def onLength (buffer : Buffer) (len : BitVec 32) :
    Except BufferFault Round :=
  if len.toInt > 65536 ∨ len.toInt < 0 then
    .ok (.leave [.shutdown])
  else if buffer.readableBytes ≥ frameSize len then do
    let body ← buffer.retrieve kHeaderLen
    let payload := body.peek (toSize len)
    let rest ← body.retrieve (toSize len)
    return .handled payload rest
  else .ok (.leave [])

def onMessageBody (host : ByteOrder) (buffer : Buffer) :
    Except BufferFault Round :=
  if buffer.readableBytes ≥ kHeaderLen then
    let be32 := host.load32 (buffer.peek kHeaderLen)
    onLength buffer (host.networkToHost32 be32)
  else .ok (.leave [])

theorem readableBytes_onMessageBody {host : ByteOrder}
    {buffer rest : Buffer} {payload : Bytes}
    (hround : onMessageBody host buffer = .ok (.handled payload rest)) :
    rest.readableBytes < buffer.readableBytes := by
  unfold onMessageBody onLength at hround
  split at hround
  · dsimp only at hround
    split_ifs at hround
    · cases hround
    · exact Buffer.readableBytes_of_two_retrieves
        (show 0 < kHeaderLen by decide) hround
    · cases hround
  · cases hround

def onMessage (host : ByteOrder) (buffer : Buffer) :
    Except BufferFault (List CodecCall × Buffer) :=
  readLoop (onMessageBody host) readableBytes_onMessageBody buffer

def sendServerMessage (host : ByteOrder) (payload : Bytes) : Bytes :=
  let buffer := ({} : Buffer).append payload
  let len := BitVec.ofNat 32 payload.length
  let be32 := host.hostToNetwork32 len
  (buffer.prepend (host.store32 be32)).bytes

/-- The input callback of one connection: each chunk is appended to the input
buffer and the loop is run. -/
def receive (host : ByteOrder) :
    Buffer → List Bytes → Except BufferFault (List CodecCall × Buffer)
  | buffer, [] => .ok ([], buffer)
  | buffer, chunk :: chunks => do
      let first ← onMessage host (buffer.append chunk)
      let later ← receive host first.2 chunks
      return (first.1 ++ later.1, later.2)

end ChatCodec

/-! ## The client -/

namespace ChatClient

/-- The client adds the header length in `int` before converting. -/
def frameSize (len : BitVec 32) : ℕ :=
  toSize (len + 4#32)

/-- The loop body once the length is known.  It retrieves the payload before
it parses and handles it; a payload that does not parse is skipped without
touching the buffer. -/
def onLength (buffer : Buffer) (len : BitVec 32) :
    Except BufferFault Round :=
  if len.toInt > 65536 ∨ len.toInt < 0 then
    .ok (.leave [.shutdown])
  else if buffer.readableBytes ≥ frameSize len then do
    let body ← buffer.retrieve 4
    let payload := body.peek (toSize len)
    let rest ← body.retrieve (toSize len)
    return .handled payload rest
  else .ok (.leave [])

def onMessageBody (host : ByteOrder) (buffer : Buffer) :
    Except BufferFault Round :=
  if buffer.readableBytes ≥ 4 then
    let be32 := host.load32 (buffer.peek 4)
    onLength buffer (host.networkToHost32 be32)
  else .ok (.leave [])

theorem readableBytes_onMessageBody {host : ByteOrder}
    {buffer rest : Buffer} {payload : Bytes}
    (hround : onMessageBody host buffer = .ok (.handled payload rest)) :
    rest.readableBytes < buffer.readableBytes := by
  unfold onMessageBody onLength at hround
  split at hround
  · dsimp only at hround
    split_ifs at hround
    · cases hround
    · exact Buffer.readableBytes_of_two_retrieves
        (show 0 < 4 by decide) hround
    · cases hround
  · cases hround

def onMessage (host : ByteOrder) (buffer : Buffer) :
    Except BufferFault (List CodecCall × Buffer) :=
  readLoop (onMessageBody host) readableBytes_onMessageBody buffer

def sendEnvelope (host : ByteOrder) (payload : Bytes) : Bytes :=
  let buffer := ({} : Buffer).append payload
  let len := BitVec.ofNat 32 payload.length
  let be32 := host.hostToNetwork32 len
  (buffer.prepend (host.store32 be32)).bytes

end ChatClient

/-! ## The wire format -/

def declaredLength (bytes : Bytes) : ℤ :=
  (bigEndian32 (bytes.take 4)).toInt

def maxPayload : ℕ := 65536

def wireHead (bytes : Bytes) : FrameHead Bytes :=
  if bytes.length < 4 then .incomplete
  else if declaredLength bytes > maxPayload ∨ declaredLength bytes < 0 then
    .invalid
  else if (declaredLength bytes).toNat + 4 ≤ bytes.length then
    .frame ((bytes.drop 4).take (declaredLength bytes).toNat)
      ((declaredLength bytes).toNat + 4)
  else .incomplete

theorem declaredLength_append {bytes : Bytes} (hlength : 4 ≤ bytes.length)
    (more : Bytes) :
    declaredLength (bytes ++ more) = declaredLength bytes := by
  rw [declaredLength, List.take_append_of_le_length hlength, declaredLength]

theorem wireHead_eq_frame {bytes payload : Bytes} {size : ℕ}
    (hhead : wireHead bytes = .frame payload size) :
    4 ≤ bytes.length ∧ 0 ≤ declaredLength bytes ∧
      declaredLength bytes ≤ maxPayload ∧
      size = (declaredLength bytes).toNat + 4 ∧ size ≤ bytes.length ∧
      payload = (bytes.drop 4).take (declaredLength bytes).toNat := by
  unfold wireHead at hhead
  split_ifs at hhead with hshort hinvalid hfits
  cases hhead
  push Not at hinvalid
  exact ⟨by omega, hinvalid.2, hinvalid.1, rfl, hfits, rfl⟩

theorem wireHead_eq_invalid {bytes : Bytes}
    (hhead : wireHead bytes = .invalid) :
    4 ≤ bytes.length ∧
      (declaredLength bytes > maxPayload ∨ declaredLength bytes < 0) := by
  unfold wireHead at hhead
  split_ifs at hhead with hshort hinvalid hfits
  exact ⟨by omega, hinvalid⟩

theorem wireHead_eq_incomplete {bytes : Bytes}
    (hhead : wireHead bytes = .incomplete) :
    bytes.length < 4 ∨
      4 ≤ bytes.length ∧ 0 ≤ declaredLength bytes ∧
        declaredLength bytes ≤ maxPayload ∧
        (bytes.length : ℤ) < declaredLength bytes + 4 := by
  unfold wireHead at hhead
  split_ifs at hhead with hshort hinvalid hfits
  · exact Or.inl hshort
  · push Not at hinvalid
    exact Or.inr ⟨by omega, hinvalid.2, hinvalid.1, by omega⟩

def wireReader : FrameReader UInt8 Bytes where
  head := wireHead
  size_pos := by
    intro buffer payload size hhead
    obtain ⟨-, -, -, rfl, -, -⟩ := wireHead_eq_frame hhead
    omega
  size_le := by
    intro buffer payload size hhead
    exact (wireHead_eq_frame hhead).2.2.2.2.1
  frame_append := by
    intro buffer payload size more hhead
    obtain ⟨hlength, hnonneg, hmax, rfl, hfits, rfl⟩ :=
      wireHead_eq_frame hhead
    have hdeclared := declaredLength_append hlength more
    unfold wireHead
    rw [hdeclared, if_neg (by simp; omega), if_neg (by omega),
      if_pos (by simp; omega), List.drop_append_of_le_length hlength,
      List.take_append_of_le_length (by simp; omega)]
  invalid_append := by
    intro buffer more hhead
    obtain ⟨hlength, hbad⟩ := wireHead_eq_invalid hhead
    unfold wireHead
    rw [declaredLength_append hlength more, if_neg (by simp; omega),
      if_pos hbad]

end MuduoChat
