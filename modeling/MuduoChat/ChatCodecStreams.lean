import MuduoChat.ChatCodec

/-!
# The codec on byte streams

Both reading loops are shown to be `FrameReader.drain` for the one wire
format, with every `retrieve` inside the readable bytes; both writers produce
exactly the frames that format reads back.  Independence of chunking, the
round trip between the two programs and the agreement of the two readers on
arbitrary input then follow from the theory of frame readers.
-/

namespace MuduoChat

/-! ## The machine arithmetic of the length checks -/

theorem toSize_eq {len : BitVec 32} (hnonneg : 0 ≤ len.toInt) :
    toSize len = len.toInt.toNat := by
  have hcond := BitVec.toInt_eq_toNat_cond len
  have hmsb : len.msb = false := by
    by_contra h
    have hneg : len.msb = true := by simpa using h
    have := BitVec.toInt_neg_of_msb_true hneg
    omega
  have hlt : len.toNat < 2 ^ 32 := len.isLt
  rw [toSize, BitVec.toNat_signExtend, hmsb, BitVec.toNat_setWidth]
  simp only [Bool.false_eq_true, if_false]
  split_ifs at hcond <;> omega

theorem toInt_add_four {len : BitVec 32} (hnonneg : 0 ≤ len.toInt)
    (hmax : len.toInt ≤ maxPayload) :
    (len + 4#32).toInt = len.toInt + 4 := by
  rw [BitVec.toInt_add]
  simp only [maxPayload] at hmax
  have hfour : (4#32).toInt = 4 := by decide
  rw [hfour]
  apply Int.bmod_eq_of_le <;> omega

theorem ChatCodec.frameSize_eq {len : BitVec 32} (hnonneg : 0 ≤ len.toInt)
    (hmax : len.toInt ≤ maxPayload) :
    ChatCodec.frameSize len = len.toInt.toNat + 4 := by
  have hsize := toSize_eq hnonneg
  simp only [maxPayload] at hmax
  rw [toSize] at hsize
  rw [ChatCodec.frameSize, ChatCodec.kHeaderLen, BitVec.toNat_add, hsize]
  simp only [BitVec.toNat_ofNat]
  omega

theorem ChatClient.frameSize_eq {len : BitVec 32} (hnonneg : 0 ≤ len.toInt)
    (hmax : len.toInt ≤ maxPayload) :
    ChatClient.frameSize len = len.toInt.toNat + 4 := by
  have hsum := toInt_add_four hnonneg hmax
  rw [ChatClient.frameSize, toSize_eq (by omega), hsum]
  omega

theorem not_unacceptable {bytes : Bytes} (hnonneg : 0 ≤ declaredLength bytes)
    (hmax : declaredLength bytes ≤ maxPayload) :
    ¬ ((bigEndian32 (bytes.take 4)).toInt > 65536 ∨
      (bigEndian32 (bytes.take 4)).toInt < 0) := by
  simp only [declaredLength, maxPayload] at hnonneg hmax
  omega

/-! ## What a run of a reading loop amounts to -/

def closingCalls (residual : Bytes) : List CodecCall :=
  match wireHead residual with
  | .invalid => [.shutdown]
  | .frame _ _ | .incomplete => []

theorem dispatched_closingCalls (residual : Bytes) :
    dispatched (closingCalls residual) = [] := by
  unfold closingCalls dispatched
  split <;> rfl

def loopResult (bytes : Bytes) : List CodecCall × Buffer :=
  ((wireReader.drain bytes).1.map CodecCall.handleMessage ++
      closingCalls (wireReader.drain bytes).2,
    ⟨(wireReader.drain bytes).2⟩)

theorem dispatched_append (first second : List CodecCall) :
    dispatched (first ++ second) = dispatched first ++ dispatched second :=
  List.filterMap_append

theorem dispatched_handleMessage (payloads : List Bytes) :
    dispatched (payloads.map CodecCall.handleMessage) = payloads := by
  unfold dispatched
  induction payloads with
  | nil => rfl
  | cons payload payloads ih => simpa [CodecCall.payload?] using ih

@[simp] theorem dispatched_loopResult (bytes : Bytes) :
    dispatched (loopResult bytes).1 = (wireReader.drain bytes).1 := by
  unfold loopResult
  rw [dispatched_append, dispatched_handleMessage, dispatched_closingCalls,
    List.append_nil]

/-- A loop body which treats the head of its buffer as the wire format
says. -/
structure FollowsWire (body : Buffer → Except BufferFault Round) : Prop where
  incomplete : ∀ {bytes : Bytes}, wireHead bytes = .incomplete →
    body ⟨bytes⟩ = .ok (.leave [])
  invalid : ∀ {bytes : Bytes}, wireHead bytes = .invalid →
    body ⟨bytes⟩ = .ok (.leave [.shutdown])
  frame : ∀ {bytes payload : Bytes} {size : ℕ},
    wireHead bytes = .frame payload size →
      body ⟨bytes⟩ = .ok (.handled payload ⟨bytes.drop size⟩)

theorem readLoop_of_leave {body : Buffer → Except BufferFault Round}
    {hbody} {buffer : Buffer} {calls : List CodecCall}
    (hround : body buffer = .ok (.leave calls)) :
    readLoop body hbody buffer = .ok (calls, buffer) := by
  rw [readLoop]
  split <;> simp_all

theorem readLoop_of_handled {body : Buffer → Except BufferFault Round}
    {hbody} {buffer rest : Buffer} {payload : Bytes}
    (hround : body buffer = .ok (.handled payload rest)) :
    readLoop body hbody buffer =
      (readLoop body hbody rest).map fun result =>
        (.handleMessage payload :: result.1, result.2) := by
  rw [readLoop]
  split <;> simp_all

theorem FollowsWire.readLoop_eq {body : Buffer → Except BufferFault Round}
    (hwire : FollowsWire body) (hbody) (bytes : Bytes) :
    readLoop body hbody ⟨bytes⟩ = .ok (loopResult bytes) := by
  induction bytes using wireReader.frameInduction with
  | frame bytes payload size hhead ih =>
      rw [readLoop_of_handled (hwire.frame hhead), ih]
      simp only [loopResult, wireReader.drain_of_frame hhead]
      rfl
  | incomplete bytes hhead =>
      have hclosing : closingCalls bytes = [] := by
        simp [closingCalls, show wireHead bytes = .incomplete from hhead]
      rw [readLoop_of_leave (hwire.incomplete hhead), loopResult,
        wireReader.drain_of_incomplete hhead, hclosing]
      rfl
  | invalid bytes hhead =>
      have hclosing : closingCalls bytes = [.shutdown] := by
        simp [closingCalls, show wireHead bytes = .invalid from hhead]
      rw [readLoop_of_leave (hwire.invalid hhead), loopResult,
        wireReader.drain_of_invalid hhead, hclosing]
      rfl

/-! ## Both loops follow the wire format -/

theorem hostLength_eq (host : ByteOrder) {bytes : Bytes}
    (hlength : 4 ≤ bytes.length) :
    host.networkToHost32 (host.load32 (Buffer.peek ⟨bytes⟩ 4)) =
      bigEndian32 (bytes.take 4) :=
  host.networkToHost32_load32 (by simpa [Buffer.peek] using hlength)

theorem Buffer.retrieve_eq {bytes : Bytes} {count : ℕ}
    (hcount : count ≤ bytes.length) :
    Buffer.retrieve ⟨bytes⟩ count = .ok ⟨bytes.drop count⟩ :=
  if_pos hcount

/-- The two `retrieve` calls of a round stay within the readable bytes, and
the payload is what lies between them. -/
theorem retrieve_frame {bytes : Bytes} (hlength : 4 ≤ bytes.length)
    (hnonneg : 0 ≤ declaredLength bytes)
    (hfits : (declaredLength bytes).toNat + 4 ≤ bytes.length) :
    (do
      let body ← Buffer.retrieve ⟨bytes⟩ 4
      let payload := body.peek (toSize (bigEndian32 (bytes.take 4)))
      let rest ← body.retrieve (toSize (bigEndian32 (bytes.take 4)))
      return Round.handled payload rest : Except BufferFault Round) =
      .ok (.handled ((bytes.drop 4).take (declaredLength bytes).toNat)
        ⟨bytes.drop ((declaredLength bytes).toNat + 4)⟩) := by
  have hsize : toSize (bigEndian32 (bytes.take 4)) =
      (declaredLength bytes).toNat := toSize_eq hnonneg
  have hbody : (declaredLength bytes).toNat ≤ (bytes.drop 4).length := by
    simp only [List.length_drop]
    omega
  rw [hsize, Buffer.retrieve_eq hlength]
  simp only [bind, Except.bind, Buffer.retrieve_eq hbody, List.drop_drop,
    Nat.add_comm 4]
  rfl

/-- A loop body that makes the checks of the wire format, in machine
arithmetic of its own, follows it. -/
theorem followsWire_of_checks {body : Buffer → Except BufferFault Round}
    {frameSize : BitVec 32 → ℕ}
    (hframe : ∀ {len : BitVec 32}, 0 ≤ len.toInt → len.toInt ≤ maxPayload →
      frameSize len = len.toInt.toNat + 4)
    (hshort : ∀ {bytes : Bytes}, bytes.length < 4 →
      body ⟨bytes⟩ = .ok (.leave []))
    (hlong : ∀ {bytes : Bytes}, 4 ≤ bytes.length →
      body ⟨bytes⟩ =
        let len := bigEndian32 (bytes.take 4)
        if len.toInt > 65536 ∨ len.toInt < 0 then
          .ok (.leave [.shutdown])
        else if bytes.length ≥ frameSize len then do
          let body ← Buffer.retrieve ⟨bytes⟩ 4
          let payload := body.peek (toSize len)
          let rest ← body.retrieve (toSize len)
          return .handled payload rest
        else .ok (.leave [])) :
    FollowsWire body where
  incomplete := by
    intro bytes hhead
    rcases wireHead_eq_incomplete hhead with
      hless | ⟨hlength, hnonneg, hmax, hpartial⟩
    · exact hshort hless
    · have hsize : frameSize (bigEndian32 (bytes.take 4)) =
          (declaredLength bytes).toNat + 4 := hframe hnonneg hmax
      rw [hlong hlength, if_neg (not_unacceptable hnonneg hmax), hsize]
      exact if_neg (by omega)
  invalid := by
    intro bytes hhead
    obtain ⟨hlength, hbad⟩ := wireHead_eq_invalid hhead
    rw [hlong hlength]
    exact if_pos hbad
  frame := by
    intro bytes payload size hhead
    obtain ⟨hlength, hnonneg, hmax, rfl, hfits, rfl⟩ :=
      wireHead_eq_frame hhead
    have hsize : frameSize (bigEndian32 (bytes.take 4)) =
        (declaredLength bytes).toNat + 4 := hframe hnonneg hmax
    rw [← retrieve_frame hlength hnonneg hfits, hlong hlength,
      if_neg (not_unacceptable hnonneg hmax), hsize]
    exact if_pos hfits

theorem ChatCodec.onMessageBody_followsWire (host : ByteOrder) :
    FollowsWire (ChatCodec.onMessageBody host) := by
  apply followsWire_of_checks ChatCodec.frameSize_eq
  · intro bytes hless
    exact if_neg (Nat.not_le.mpr hless)
  · intro bytes hlength
    rw [← hostLength_eq host hlength]
    exact if_pos hlength

theorem ChatClient.onMessageBody_followsWire (host : ByteOrder) :
    FollowsWire (ChatClient.onMessageBody host) := by
  apply followsWire_of_checks ChatClient.frameSize_eq
  · intro bytes hless
    exact if_neg (Nat.not_le.mpr hless)
  · intro bytes hlength
    rw [← hostLength_eq host hlength]
    exact if_pos hlength

theorem ChatCodec.onMessage_eq (host : ByteOrder) (bytes : Bytes) :
    ChatCodec.onMessage host ⟨bytes⟩ = .ok (loopResult bytes) :=
  (ChatCodec.onMessageBody_followsWire host).readLoop_eq _ bytes

theorem ChatClient.onMessage_eq (host : ByteOrder) (bytes : Bytes) :
    ChatClient.onMessage host ⟨bytes⟩ = .ok (loopResult bytes) :=
  (ChatClient.onMessageBody_followsWire host).readLoop_eq _ bytes

/-! ## Chunked input -/

theorem ChatCodec.receive_eq (host : ByteOrder) (bytes : Bytes)
    (chunks : List Bytes) :
    ∃ calls,
      ChatCodec.receive host ⟨bytes⟩ chunks =
          .ok (calls, ⟨(wireReader.feed bytes chunks).2⟩) ∧
        dispatched calls = (wireReader.feed bytes chunks).1 := by
  induction chunks generalizing bytes with
  | nil => exact ⟨[], rfl, rfl⟩
  | cons chunk chunks ih =>
      obtain ⟨later, hlater, hdispatched⟩ :=
        ih (wireReader.drain (bytes ++ chunk)).2
      refine ⟨(loopResult (bytes ++ chunk)).1 ++ later, ?_, ?_⟩
      · have hfirst := ChatCodec.onMessage_eq host (bytes ++ chunk)
        have hbuffer : (loopResult (bytes ++ chunk)).2 =
            ⟨(wireReader.drain (bytes ++ chunk)).2⟩ := rfl
        simp only [ChatCodec.receive, Buffer.append, hfirst, bind,
          Except.bind, hbuffer, hlater]
        rfl
      · rw [dispatched_append, dispatched_loopResult, hdispatched]
        rfl

/-- Reading does not depend on how the stream is cut into chunks.  The loop
returns on every buffer without a fault, and what it leaves is too short for a
header, or an incomplete frame of an acceptable length, or starts with an
unacceptable length; in the last case no byte is consumed ever after. -/
theorem ChatCodec.receive_chunks (host : ByteOrder) (chunks : List Bytes) :
    ∃ calls whole residual,
      ChatCodec.receive host {} chunks = .ok (calls, ⟨residual⟩) ∧
      ChatCodec.onMessage host ⟨chunks.flatten⟩ = .ok (whole, ⟨residual⟩) ∧
      dispatched calls = dispatched whole ∧
      (residual.length < 4 ∨
        (4 ≤ residual.length ∧ 0 ≤ declaredLength residual ∧
          declaredLength residual ≤ 65536 ∧
          (residual.length : ℤ) < declaredLength residual + 4) ∨
        (4 ≤ residual.length ∧
          (declaredLength residual < 0 ∨ 65536 < declaredLength residual) ∧
          ∀ more : List Bytes, ∃ later,
            ChatCodec.receive host ⟨residual⟩ more =
                .ok (later, ⟨residual ++ more.flatten⟩) ∧
              dispatched later = [])) := by
  obtain ⟨calls, hreceive, hcalls⟩ := ChatCodec.receive_eq host [] chunks
  have hfeed : wireReader.feed [] chunks =
      wireReader.drain chunks.flatten := by
    simpa using wireReader.feed_eq_drain [] (wireReader.drain_of_incomplete rfl)
      chunks
  rw [hfeed] at hreceive hcalls
  refine ⟨calls, (loopResult chunks.flatten).1,
    (wireReader.drain chunks.flatten).2, hreceive,
    ChatCodec.onMessage_eq host chunks.flatten, ?_, ?_⟩
  · rw [dispatched_loopResult, hcalls]
  · rcases wireReader.head_residual chunks.flatten with hhead | hhead
    · rcases wireHead_eq_incomplete hhead with hshort | hpartial
      · exact Or.inl hshort
      · exact Or.inr (Or.inl hpartial)
    · obtain ⟨hlength, hbad⟩ := wireHead_eq_invalid hhead
      refine Or.inr (Or.inr ⟨hlength, hbad.symm, ?_⟩)
      intro more
      obtain ⟨later, hlater, hnone⟩ := ChatCodec.receive_eq host
        (wireReader.drain chunks.flatten).2 more
      rw [wireReader.feed_of_invalid hhead] at hlater hnone
      exact ⟨later, hlater, hnone⟩

/-! ## The two programs read each other -/

theorem ChatCodec.sendServerMessage_eq (host : ByteOrder) (payload : Bytes) :
    ChatCodec.sendServerMessage host payload =
      networkBytes32 (BitVec.ofNat 32 payload.length) ++ payload := by
  simp [ChatCodec.sendServerMessage, Buffer.prepend, Buffer.append,
    ByteOrder.store32_hostToNetwork32]

theorem ChatClient.sendEnvelope_eq (host : ByteOrder) (payload : Bytes) :
    ChatClient.sendEnvelope host payload =
      networkBytes32 (BitVec.ofNat 32 payload.length) ++ payload := by
  simp [ChatClient.sendEnvelope, Buffer.prepend, Buffer.append,
    ByteOrder.store32_hostToNetwork32]

theorem wireHead_frame {payload : Bytes}
    (hsize : payload.length ≤ maxPayload) :
    wireHead (networkBytes32 (BitVec.ofNat 32 payload.length) ++ payload) =
      .frame payload
        (networkBytes32 (BitVec.ofNat 32 payload.length) ++
          payload).length := by
  have hheader :
      (networkBytes32 (BitVec.ofNat 32 payload.length)).length = 4 := by
    simp
  have hdeclared :
      declaredLength
          (networkBytes32 (BitVec.ofNat 32 payload.length) ++ payload) =
        payload.length := by
    rw [declaredLength, List.take_left' hheader, bigEndian32_networkBytes32]
    simp only [maxPayload] at hsize
    rw [BitVec.toInt_eq_toNat_cond, BitVec.toNat_ofNat,
      Nat.mod_eq_of_lt (by omega), if_pos (by omega)]
  simp only [wireHead, hdeclared, List.length_append, hheader,
    Int.toNat_natCast, List.drop_left' hheader, List.take_length]
  rw [if_neg (by omega), if_neg (by simp only [maxPayload] at *; omega),
    if_pos (by omega), Nat.add_comm]

/-- A run of `loop` on `bytes` hands over `payloads` and leaves `residual`. -/
def Reads (loop : Buffer → Except BufferFault (List CodecCall × Buffer))
    (bytes : Bytes) (payloads : List Bytes) (residual : Bytes) : Prop :=
  ∃ calls, loop ⟨bytes⟩ = .ok (calls, ⟨residual⟩) ∧
    dispatched calls = payloads

theorem reads_of_eq
    {loop : Buffer → Except BufferFault (List CodecCall × Buffer)}
    {bytes : Bytes} (hloop : loop ⟨bytes⟩ = .ok (loopResult bytes)) :
    Reads loop bytes (wireReader.drain bytes).1
      (wireReader.drain bytes).2 :=
  ⟨(loopResult bytes).1, hloop, dispatched_loopResult bytes⟩

theorem reads_frames
    {loop : Buffer → Except BufferFault (List CodecCall × Buffer)}
    (hloop : ∀ bytes, loop ⟨bytes⟩ = .ok (loopResult bytes))
    {write : Bytes → Bytes}
    (hwrite : ∀ payload, write payload =
      networkBytes32 (BitVec.ofNat 32 payload.length) ++ payload)
    {payloads : List Bytes}
    (hsize : ∀ payload ∈ payloads, payload.length ≤ maxPayload)
    (rest : Bytes) :
    Reads loop (payloads.flatMap write ++ rest)
      (payloads ++ (wireReader.drain rest).1) (wireReader.drain rest).2 := by
  have hframes : ∀ payload ∈ payloads,
      wireHead (write payload) = .frame payload (write payload).length := by
    intro payload hmem
    rw [hwrite]
    exact wireHead_frame (hsize payload hmem)
  have hread := reads_of_eq (hloop (payloads.flatMap write ++ rest))
  rwa [wireReader.drain_frames_append write payloads hframes rest] at hread

/-- What one program writes the other reads back, in front of any further
input; and on arbitrary input the two readers find the same payloads and
leave the same bytes. -/
theorem codecs_agree (server client : ByteOrder) (payloads : List Bytes)
    (hsize : ∀ payload ∈ payloads, payload.length ≤ maxPayload)
    (rest : Bytes) :
    (∃ tail residual,
      Reads (ChatClient.onMessage client) rest tail residual ∧
      Reads (ChatClient.onMessage client)
        (payloads.flatMap (ChatCodec.sendServerMessage server) ++ rest)
        (payloads ++ tail) residual) ∧
    (∃ tail residual,
      Reads (ChatCodec.onMessage server) rest tail residual ∧
      Reads (ChatCodec.onMessage server)
        (payloads.flatMap (ChatClient.sendEnvelope client) ++ rest)
        (payloads ++ tail) residual) ∧
    ∀ bytes, ∃ found residual,
      Reads (ChatCodec.onMessage server) bytes found residual ∧
      Reads (ChatClient.onMessage client) bytes found residual := by
  have hclient := ChatClient.onMessage_eq client
  have hserver := ChatCodec.onMessage_eq server
  refine ⟨⟨_, _, reads_of_eq (hclient rest), ?_⟩,
    ⟨_, _, reads_of_eq (hserver rest), ?_⟩, ?_⟩
  · exact reads_frames hclient (ChatCodec.sendServerMessage_eq server) hsize
      rest
  · exact reads_frames hserver (ChatClient.sendEnvelope_eq client) hsize rest
  · intro bytes
    exact ⟨_, _, reads_of_eq (hserver bytes), reads_of_eq (hclient bytes)⟩

theorem codecs_agree_heartbeats :
    (∀ payload ∈ [[0x92, 0x03, 0x00], []],
      List.length (α := UInt8) payload ≤ maxPayload) ∧
    (∃ tail residual,
      Reads (ChatClient.onMessage .little) [0x00, 0x00] tail residual ∧
      Reads (ChatClient.onMessage .little)
        (List.flatMap (ChatCodec.sendServerMessage .big)
          [[0x92, 0x03, 0x00], []] ++ [0x00, 0x00])
        ([[0x92, 0x03, 0x00], []] ++ tail) residual) :=
  ⟨by decide,
    (codecs_agree .big .little [[0x92, 0x03, 0x00], []] (by decide)
      [0x00, 0x00]).1⟩

end MuduoChat
