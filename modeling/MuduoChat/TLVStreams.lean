import MuduoChat.TLVCodec

/-!
# Records in strings

The two encoders write the bytes of a record in the same way, and both
decoders look for a record as `tlvReader` does, so that none of them reads
beyond the end of a string.
-/

namespace MuduoChat

namespace TLVCodec

/-! ## Records and their bytes -/

section Records

variable {bytes : Bytes} {tlv : TLV} {size : ℕ}

def recordBytes (tlv : TLV) : Bytes :=
  networkBytes 2 tlv.type ++ (networkBytes 4 tlv.length ++ tlv.value)

theorem encode_eq (host : ByteOrder) (tlvs : List TLV) :
    encode host tlvs = tlvs.flatMap recordBytes := by
  unfold encode
  congr 1
  funext tlv
  rw [host.store_hostToNetwork rfl, host.store_hostToNetwork rfl]
  rfl

theorem encodeSingle_eq (host : ByteOrder) (type : BitVec 16)
    (value : Bytes) :
    encodeSingle host type value = recordBytes (TLV.ofValue type value) := by
  unfold encodeSingle
  dsimp only
  rw [host.store_hostToNetwork rfl, host.store_hostToNetwork rfl]
  rfl

@[simp] theorem length_recordBytes (tlv : TLV) :
    (recordBytes tlv).length = 6 + tlv.value.length := by
  simp only [recordBytes, List.length_append, length_networkBytes]
  omega

theorem declaredType_recordBytes (tlv : TLV) :
    declaredType (recordBytes tlv) = tlv.type := by
  rw [declaredType, recordBytes, List.take_left' (length_networkBytes 2 _)]
  exact @bigEndian_networkBytes 16 2 rfl tlv.type

theorem declaredLength_recordBytes (tlv : TLV) :
    declaredLength (recordBytes tlv) = tlv.length := by
  rw [declaredLength, recordBytes, List.drop_left' (length_networkBytes 2 _),
    List.take_left' (length_networkBytes 4 _)]
  exact @bigEndian_networkBytes 32 4 rfl tlv.length

theorem drop_recordBytes (tlv : TLV) :
    (recordBytes tlv).drop 6 = tlv.value := by
  rw [recordBytes, ← List.append_assoc]
  exact List.drop_left' (by simp)

theorem tlvHead_recordBytes (hsized : tlv.Sized) :
    tlvHead (recordBytes tlv) = .frame tlv (recordBytes tlv).length := by
  have hlong : ¬ ((recordBytes tlv).length < 6 + tlv.length.toNat ∨
      (recordBytes tlv).length < 6) := by
    rw [length_recordBytes, hsized]
    omega
  rw [tlvHead, declaredLength_recordBytes, if_neg hlong,
    declaredType_recordBytes, drop_recordBytes, hsized, List.take_length,
    length_recordBytes]

/-- The bytes behind the header are split off whole. -/
theorem header_append (hheader : 6 ≤ bytes.length) :
    networkBytes 2 (declaredType bytes) ++
        (networkBytes 4 (declaredLength bytes) ++ bytes.drop 6) = bytes := by
  have htype : networkBytes 2 (declaredType bytes) = bytes.take 2 :=
    networkBytes_bigEndian (by rw [List.length_take]; omega) rfl
  have hlength : networkBytes 4 (declaredLength bytes) =
      (bytes.drop 2).take 4 :=
    networkBytes_bigEndian
      (by rw [List.length_take, List.length_drop]; omega) rfl
  have hvalue : bytes.drop 6 = (bytes.drop 2).drop 4 := by
    rw [List.drop_drop]
  rw [htype, hlength, hvalue, List.take_append_drop, List.take_append_drop]

/-- The record read off the head of a string is written there. -/
theorem recordBytes_of_frame (hhead : tlvHead bytes = .frame tlv size) :
    tlv.Sized ∧ recordBytes tlv ++ bytes.drop size = bytes := by
  obtain ⟨hheader, hsize, hfits, htlv⟩ := tlvHead_eq_frame hhead
  have htype : tlv.type = declaredType bytes := by rw [htlv]
  have hlength : tlv.length = declaredLength bytes := by rw [htlv]
  have hvalue : tlv.value = (bytes.drop 6).take tlv.length.toNat := by
    conv_lhs => rw [htlv]
  constructor
  · rw [TLV.Sized, hvalue, List.length_take, List.length_drop]
    omega
  · have hrest : bytes.drop size =
        (bytes.drop 6).drop tlv.length.toNat := by
      rw [List.drop_drop, hsize]
    rw [recordBytes, htype, hlength, hvalue, hrest, List.append_assoc,
      List.append_assoc, List.take_append_drop, header_append hheader]

end Records

/-! ## The loop is the reader -/

theorem sizeSum_eq {first second : ℕ} (hfits : first + second < 2 ^ 64) :
    sizeSum first second = first + second :=
  Nat.mod_eq_of_lt hfits

theorem loadAt_eq {data : Bytes} {offset count : ℕ}
    (hfits : offset + count ≤ data.length) :
    loadAt data offset count = .ok ((data.drop offset).take count) :=
  if_pos hfits

theorem substr_eq {data : Bytes} {offset : ℕ} (hfits : offset ≤ data.length)
    (count : ℕ) :
    substr data offset count = .ok ((data.drop offset).take count) :=
  if_pos hfits

theorem networkToHost_take (host : ByteOrder) {width count : ℕ}
    {bytes : Bytes} (hlength : count ≤ bytes.length)
    (hwidth : width = 8 * count) :
    host.networkToHost count (host.load width (bytes.take count)) =
      bigEndian width (bytes.take count) :=
  host.networkToHost_load (List.length_take_of_le hlength) hwidth

section Header

variable {data : Bytes} {offset : ℕ}

/-- The two reads of a header, where there is one. -/
theorem loadAt_header (hheader : offset + 6 ≤ data.length) :
    loadAt data offset 2 = .ok ((data.drop offset).take 2) ∧
      loadAt data (offset + 2) 4 =
        .ok (((data.drop offset).drop 2).take 4) := by
  rw [List.drop_drop]
  exact ⟨loadAt_eq (by omega), loadAt_eq (by omega)⟩

theorem networkToHost_header (host : ByteOrder)
    (hheader : offset + 6 ≤ data.length) :
    host.networkToHost 2 (host.load 16 ((data.drop offset).take 2)) =
        declaredType (data.drop offset) ∧
      host.networkToHost 4
          (host.load 32 (((data.drop offset).drop 2).take 4)) =
        declaredLength (data.drop offset) := by
  have hlength : (data.drop offset).length = data.length - offset :=
    List.length_drop
  exact ⟨networkToHost_take host (by omega) rfl,
    networkToHost_take host (by rw [List.length_drop]; omega) rfl⟩

theorem substr_value (hheader : offset + 6 ≤ data.length) (count : ℕ) :
    substr data (offset + 6) count =
      .ok (((data.drop offset).drop 6).take count) := by
  rw [List.drop_drop]
  exact substr_eq hheader count

end Header

theorem decodeFrom_eq (host : ByteOrder) (data : StdString) (offset : ℕ)
    (hoffset : offset ≤ data.size) :
    decodeFrom host data offset hoffset =
      .ok (tlvReader.drain (data.bytes.drop offset)).1 := by
  induction hmeasure : data.size - offset using Nat.strongRecOn
    generalizing offset with
  | _ measure ih =>
      subst hmeasure
      have hsize := data.size_lt
      have hdata : data.bytes.length = data.size := rfl
      have hlength : (data.bytes.drop offset).length =
          data.bytes.length - offset := List.length_drop
      have htwo : sizeSum offset 2 = offset + 2 := sizeSum_eq (by omega)
      have hsix : sizeSum (offset + 2) 4 = offset + 6 :=
        sizeSum_eq (by omega)
      have hdeclared :=
        (declaredLength (data.bytes.drop offset)).isLt
      have hstart : sizeSum (offset + 6)
          (declaredLength (data.bytes.drop offset)).toNat =
            offset + 6 + (declaredLength (data.bytes.drop offset)).toNat :=
        sizeSum_eq (by omega)
      rw [decodeFrom]
      by_cases hheader : offset + 6 ≤ data.size
      · have hguard : sizeSum (sizeSum offset 2) 4 ≤ data.size := by
          rw [htwo, hsix]
          exact hheader
        obtain ⟨hbeType, hbeLength⟩ :=
          @loadAt_header data.bytes offset hheader
        obtain ⟨htype, hlen⟩ :=
          @networkToHost_header data.bytes offset host hheader
        rw [dif_pos hguard]
        simp only [htwo, hsix, hbeType, hbeLength, bind, Except.bind, htype,
          hlen, hstart]
        split
        · rename_i hlong
          have hhead : tlvReader.head (data.bytes.drop offset) =
              .incomplete := if_pos (.inl (by omega))
          rw [tlvReader.drain_of_incomplete hhead]
          rfl
        · rename_i hlong
          have hhead : tlvReader.head (data.bytes.drop offset) = .frame _ _ :=
            if_neg (by omega)
          have hrest := ih _ (by omega) (offset + 6 +
            (declaredLength (data.bytes.drop offset)).toNat) (by omega) rfl
          have hdrop : (data.bytes.drop offset).drop
              (6 + (declaredLength (data.bytes.drop offset)).toNat) =
                data.bytes.drop (offset + 6 +
                  (declaredLength (data.bytes.drop offset)).toNat) := by
            rw [List.drop_drop, Nat.add_assoc]
          rw [substr_value hheader, hrest, tlvReader.drain_of_frame hhead,
            hdrop]
          rfl
      · have hhead : tlvReader.head (data.bytes.drop offset) =
            .incomplete := if_pos (.inr (by omega))
        have hshort : ¬ sizeSum (sizeSum offset 2) 4 ≤ data.size := by
          rw [htwo, hsix]
          exact hheader
        rw [dif_neg hshort, tlvReader.drain_of_incomplete hhead]
        rfl

theorem decode_eq (host : ByteOrder) (data : StdString) :
    decode host data = .ok (tlvReader.drain data.bytes).1 :=
  decodeFrom_eq host data 0 (Nat.zero_le _)

/-- The single decoder takes the record at the head, if there is one. -/
theorem decodeSingle_eq (host : ByteOrder) (data : Bytes) (before : TLV) :
    ∃ ok after, decodeSingle host data before = .ok (ok, after) ∧
      ((ok = false ∧ tlvHead data = .incomplete) ∨
        (ok = true ∧ tlvHead data = .frame after
          (6 + after.length.toNat))) := by
  unfold decodeSingle
  by_cases hheader : data.length < 2 + 4
  · rw [if_pos hheader]
    exact ⟨false, before, rfl, .inl ⟨rfl, if_pos (.inr hheader)⟩⟩
  · obtain ⟨hbeType, hbeLength⟩ :=
      @loadAt_header data 0 (not_lt.mp hheader)
    obtain ⟨htype, hlen⟩ :=
      @networkToHost_header data 0 host (not_lt.mp hheader)
    rw [List.drop_zero] at hbeType hbeLength htype hlen
    rw [Nat.zero_add] at hbeLength
    have hdeclared := (declaredLength data).isLt
    have hsum : sizeSum (2 + 4) (declaredLength data).toNat =
        6 + (declaredLength data).toNat := sizeSum_eq (by omega)
    rw [if_neg hheader]
    simp only [hbeType, hbeLength, bind, Except.bind, htype, hlen, hsum]
    by_cases hlong : data.length < 6 + (declaredLength data).toNat
    · rw [if_pos hlong]
      exact ⟨false, _, rfl, .inl ⟨rfl, if_pos (.inl hlong)⟩⟩
    · have hvalue : substr data (2 + 4) (declaredLength data).toNat =
          .ok ((data.drop 6).take (declaredLength data).toNat) :=
        substr_eq (by omega) _
      rw [if_neg hlong, hvalue]
      exact ⟨true, _, rfl, .inr ⟨rfl, if_neg (by omega)⟩⟩

/-! ## What the decoders accept -/

section Decoding

variable {host : ByteOrder} {tlvs : List TLV} {data rest whole : StdString}

/-- What has been decoded and what is left make up the string. -/
theorem drain_spec (bytes : Bytes) :
    (∀ tlv ∈ (tlvReader.drain bytes).1, tlv.Sized) ∧
      (tlvReader.drain bytes).1.flatMap recordBytes ++
        (tlvReader.drain bytes).2 = bytes := by
  induction bytes using tlvReader.frameInduction with
  | frame bytes tlv size hhead ih =>
      obtain ⟨hsized, hbytes⟩ := recordBytes_of_frame hhead
      obtain ⟨hall, hdrained⟩ := ih
      rw [tlvReader.drain_of_frame hhead]
      refine ⟨List.forall_mem_cons.mpr ⟨hsized, hall⟩, ?_⟩
      rw [List.flatMap_cons, List.append_assoc, hdrained, hbytes]
  | incomplete bytes hhead =>
      rw [tlvReader.drain_of_incomplete hhead]
      simp
  | invalid bytes hhead =>
      rw [tlvReader.drain_of_invalid hhead]
      simp

/-- Decoding undoes encoding, in front of any further bytes. -/
theorem decode_encode_append (hsized : ∀ tlv ∈ tlvs, tlv.Sized)
    (hwhole : whole.bytes = encode host tlvs ++ rest.bytes) :
    (∃ others, decode host rest = .ok others ∧
      decode host whole = .ok (tlvs ++ others)) ∧
      (rest.bytes = [] → decode host whole = .ok tlvs) := by
  have hdecoded : decode host whole =
      .ok (tlvs ++ (tlvReader.drain rest.bytes).1) := by
    rw [decode_eq, hwhole, encode_eq, tlvReader.drain_frames_append
      recordBytes tlvs fun tlv htlv => tlvHead_recordBytes (hsized tlv htlv)]
  refine ⟨⟨_, decode_eq host rest, hdecoded⟩, ?_⟩
  intro hempty
  have hnone : tlvReader.drain rest.bytes = ([], []) := by
    rw [hempty]
    exact tlvReader.drain_of_incomplete rfl
  rw [hdecoded, hnone, List.append_nil]

theorem decode_encode_append_two :
    ∃ others, decode .little ⟨[0, 9], by decide⟩ = .ok others ∧
      decode .little ⟨[0, 1, 0, 0, 0, 1, 7, 0, 2, 0, 0, 0, 0, 0, 9],
        by decide⟩ =
          .ok ([TLV.ofValue 1 [7], TLV.ofValue 2 []] ++ others) :=
  (decode_encode_append (by decide) (by decide)).1

/-- Decoding reads nothing outside the string and takes its longest prefix of
complete records: what is left is too short for a header, or for the value
that its header declares. -/
theorem decode_longest_prefix (host : ByteOrder) (data : StdString) :
    ∃ tlvs left, decode host data = .ok tlvs ∧
      (∀ tlv ∈ tlvs, tlv.Sized) ∧
      data.bytes = encode host tlvs ++ left ∧
      (left.length < 6 ∨ ∃ type length tail,
        left = encode host [⟨type, length, tail⟩] ∧
          left.length - 6 < length.toNat) := by
  obtain ⟨hsized, hbytes⟩ := drain_spec data.bytes
  refine ⟨_, (tlvReader.drain data.bytes).2, decode_eq host data, hsized, ?_,
    ?_⟩
  · rw [encode_eq, hbytes]
  · have hleft : tlvHead (tlvReader.drain data.bytes).2 = .incomplete := by
      rcases tlvReader.head_residual data.bytes with hhead | hhead
      · exact hhead
      · exact (tlvHead_ne_invalid _ hhead).elim
    generalize (tlvReader.drain data.bytes).2 = left at hleft
    by_cases hheader : left.length < 6
    · exact .inl hheader
    · refine .inr ⟨declaredType left, declaredLength left, left.drop 6, ?_,
        ?_⟩
      · rw [encode_eq, List.flatMap_singleton, recordBytes,
          header_append (not_lt.mp hheader)]
      · unfold tlvHead at hleft
        split at hleft
        · rename_i hshort
          have hlong := hshort.resolve_right hheader
          omega
        · cases hleft

/-- The single decoder succeeds on exactly the strings of which the loop
decodes a record, the first one, and the bytes behind it are decoded into the
others.  Records encoded one by one make up the encoding of all. -/
theorem single_agrees_list (host : ByteOrder) :
    (∀ (data : StdString) (before : TLV), ∃ ok after tlvs,
      decodeSingle host data.bytes before = .ok (ok, after) ∧
        decode host data = .ok tlvs ∧
        (ok = true ↔ tlvs ≠ []) ∧
        (ok = true → ∃ others, tlvs = after :: others ∧
          decode host (data.drop (6 + after.value.length)) =
            .ok others)) ∧
      ∀ pairs : List (BitVec 16 × Bytes),
        (∀ pair ∈ pairs, pair.2.length < 2 ^ 32) →
          (∀ pair ∈ pairs, (TLV.ofValue pair.1 pair.2).Sized) ∧
            (pairs.flatMap fun pair => encodeSingle host pair.1 pair.2) =
              encode host (pairs.map fun pair =>
                TLV.ofValue pair.1 pair.2) := by
  constructor
  · intro data before
    obtain ⟨ok, after, hsingle, hhead⟩ :=
      decodeSingle_eq host data.bytes before
    refine ⟨ok, after, _, hsingle, decode_eq host data, ?_⟩
    rcases hhead with ⟨rfl, hhead⟩ | ⟨rfl, hhead⟩
    · rw [tlvReader.drain_of_incomplete hhead]
      simp
    · have hsized : after.length.toNat = after.value.length :=
        (recordBytes_of_frame hhead).1
      rw [tlvReader.drain_of_frame hhead]
      refine ⟨by simp, fun _ => ⟨_, rfl, ?_⟩⟩
      rw [decode_eq, hsized]
      rfl
  · intro pairs hshort
    constructor
    · intro pair hpair
      rw [TLV.Sized, TLV.ofValue, BitVec.toNat_ofNat]
      exact Nat.mod_eq_of_lt (hshort pair hpair)
    · rw [encode_eq, List.flatMap_map]
      simp only [encodeSingle_eq]

end Decoding

end TLVCodec

end MuduoChat
