import Namecon.Rtp.HeaderLength

/-!
# The RTP header read, written and measured

* `writeFixedHeader_codec`: parsing and writing of the fixed header are inverse to each other.
* `headerLength_eq`: the length that comes out, branch by branch; no byte outside the buffer is read.
* `lengthOk_iff`: exactly which buffers `headerLength` measures as its header file says. Where the
  P bit is set the length is counted from the other end of the packet; an extension whose header ends
  behind the buffer is left out, and one whose data does is counted all the same.
-/

namespace Namecon

open Checked (read_ok ok_bind)

/-! ## Fields of one byte -/

namespace RtpHeader

/-- Version, P, X and CC come back out of the first byte that is put together from them. -/
theorem fields_byte0 (version csrcCount : UInt8) (padding extension : Bool) (hv : version < 4)
    (hcc : csrcCount < 16) :
    let byte0 := ((version &&& 0x03) <<< 6) ||| (bit padding <<< 5) ||| (bit extension <<< 4) |||
      (csrcCount &&& 0x0F)
    (byte0 >>> 6) &&& 0x03 = version ∧ ((byte0 >>> 5) &&& 0x01 != 0) = padding ∧
      ((byte0 >>> 4) &&& 0x01 != 0) = extension ∧ byte0 &&& 0x0F = csrcCount := by
  have table : ∀ (v : Fin 4) (cc : Fin 16) (p x : Bool),
      let byte0 := ((UInt8.ofNat v &&& 0x03) <<< 6) ||| (bit p <<< 5) ||| (bit x <<< 4) |||
        (UInt8.ofNat cc &&& 0x0F)
      (byte0 >>> 6) &&& 0x03 = UInt8.ofNat v ∧ ((byte0 >>> 5) &&& 0x01 != 0) = p ∧
        ((byte0 >>> 4) &&& 0x01 != 0) = x ∧ byte0 &&& 0x0F = UInt8.ofNat cc := by
    decide +kernel
  have := table ⟨version.toNat, UInt8.lt_iff_toNat_lt.1 hv⟩
    ⟨csrcCount.toNat, UInt8.lt_iff_toNat_lt.1 hcc⟩ padding extension
  simpa only [UInt8.ofNat_toNat] using this

/-- The marker and the payload type come back out of the second byte. -/
theorem fields_byte1 (payloadType : UInt8) (marker : Bool) (hpt : payloadType < 128) :
    let byte1 := (bit marker <<< 7) ||| (payloadType &&& 0x7F)
    ((byte1 >>> 7) &&& 0x01 != 0) = marker ∧ byte1 &&& 0x7F = payloadType := by
  have table : ∀ (pt : Fin 128) (m : Bool),
      let byte1 := (bit m <<< 7) ||| (UInt8.ofNat pt &&& 0x7F)
      ((byte1 >>> 7) &&& 0x01 != 0) = m ∧ byte1 &&& 0x7F = UInt8.ofNat pt := by
    decide +kernel
  have := table ⟨payloadType.toNat, UInt8.lt_iff_toNat_lt.1 hpt⟩ marker
  simpa only [UInt8.ofNat_toNat] using this

/-! ## The fixed header -/

variable {hdr : RtpHeader} {buf data : Bytes}

theorem parse_writeFixedHeader (hlen : 12 ≤ buf.length) (hv : hdr.version < 4)
    (hcc : hdr.csrcCount < 16) (hpt : hdr.payloadType < 128) :
    parse (hdr.writeFixedHeader buf) = some hdr := by
  obtain ⟨_, _, _, _, _, _, _, _, _, _, _, _, rest, rfl⟩ := exists_of_length_le hlen
  obtain ⟨hversion, hpadding, hextension, hcsrc⟩ :=
    fields_byte0 hdr.version hdr.csrcCount hdr.padding hdr.extension hv hcc
  obtain ⟨hmarker, hpayload⟩ := fields_byte1 hdr.payloadType hdr.marker hpt
  simp only [writeFixedHeader, htons, htonl, List.cons_append, List.nil_append, parse]
  rw [hversion, hpadding, hextension, hcsrc, hmarker, hpayload, ntohs_htons, ntohl_htonl,
    ntohl_htonl]

theorem drop_writeFixedHeader (hlen : 12 ≤ buf.length) :
    (hdr.writeFixedHeader buf).drop 12 = buf.drop 12 := by
  obtain ⟨_, _, _, _, _, _, _, _, _, _, _, _, rest, rfl⟩ := exists_of_length_le hlen
  rfl

theorem length_writeFixedHeader : (hdr.writeFixedHeader buf).length = buf.length := by
  unfold writeFixedHeader
  split
  · rfl
  · rfl

/-- A parsed header written back gives the buffer. -/
theorem writeFixedHeader_parse_self (h : parse buf = some hdr) : hdr.writeFixedHeader buf = buf := by
  have hlen := parse_isSome.1 (by rw [h]; rfl)
  rw [writeFixedHeader_parse h hdr.ssrc]
  obtain ⟨_, _, _, _, _, _, _, _, s0, s1, s2, s3, rest, rfl⟩ := exists_of_length_le hlen
  obtain rfl := Option.some.inj h
  show _ ++ htonl (ntohl s0 s1 s2 s3) ++ _ = _
  rw [htonl_ntohl]
  rfl

/-- **The codec of the fixed header.** A header whose fields fit is read back as it was written, with
nothing changed from byte 12 on, and what is read from a buffer and written back gives the buffer. -/
theorem writeFixedHeader_codec (buf : Bytes) (hlen : 12 ≤ buf.length) (hdr : RtpHeader)
    (hv : hdr.version < 4) (hcc : hdr.csrcCount < 16) (hpt : hdr.payloadType < 128) :
    parse (hdr.writeFixedHeader buf) = some hdr ∧
      (hdr.writeFixedHeader buf).length = buf.length ∧
      (hdr.writeFixedHeader buf).drop 12 = buf.drop 12 ∧
      ∃ parsed, parse buf = some parsed ∧ parsed.writeFixedHeader buf = buf := by
  obtain ⟨parsed, hparsed, -⟩ := exists_parse hlen
  exact ⟨parse_writeFixedHeader hlen hv hcc hpt, length_writeFixedHeader,
    drop_writeFixedHeader hlen, parsed, hparsed, writeFixedHeader_parse_self hparsed⟩

/-- An audio packet's header with a marker, written over twelve zeros. -/
theorem writeFixedHeader_codec_audio :
    parse ((⟨2, false, true, 3, true, 111, 0xFFFF, 0x01020304, 0xDEADBEEF⟩ : RtpHeader
      ).writeFixedHeader (List.replicate 12 0)) =
      some ⟨2, false, true, 3, true, 111, 0xFFFF, 0x01020304, 0xDEADBEEF⟩ :=
  (writeFixedHeader_codec (List.replicate 12 0) (by decide) _ (by decide) (by decide)
    (by decide)).1

/-! ## The length, branch by branch -/

/-- The last byte, which counts the padding where the P bit is set. -/
def lastByte (data : Bytes) : UInt8 := data.getD (data.length - 1) 0

/-- The length before the padding is looked at. -/
def unpaddedLength (data : Bytes) : Nat :=
  if hasExtension data ∧ csrcEnd data + 4 ≤ data.length then fullLength data else csrcEnd data

theorem headerLength_short (h : data.length < 12) : headerLength data = .ok 0 := if_pos h

/-- **The length of a header**, and that no byte outside the buffer is read for it. -/
theorem headerLength_eq (h : 12 ≤ data.length) :
    headerLength data = .ok (if hasPadding data ∧ 0 < (lastByte data).toNat then
      sizeSub data.length (lastByte data).toNat else unpaddedLength data) := by
  have hlast : Checked.read data (data.length - 1) = .ok (lastByte data) := read_ok (by omega) 0
  unfold headerLength
  rw [if_neg (Nat.not_lt.2 h), read_ok (by omega) 0, ok_bind]
  -- what the padding makes of the length before it
  have hpad (length : Nat) : (if hasPadding data ∧ 0 < data.length then do
        let padLen ← Checked.read data (data.length - 1)
        pure (if 0 < padLen.toNat then sizeSub data.length padLen.toNat else length)
      else pure length : Checked.Result Nat) =
      .ok (if hasPadding data ∧ 0 < (lastByte data).toNat then
        sizeSub data.length (lastByte data).toNat else length) := by
    by_cases hp : hasPadding data = true
    · rw [if_pos ⟨hp, by omega⟩, hlast, ok_bind]
      by_cases h0 : 0 < (lastByte data).toNat
      · rw [if_pos h0, if_pos ⟨hp, h0⟩]
        rfl
      · rw [if_neg h0, if_neg fun h => h0 h.2]
        rfl
    · rw [if_neg fun h => hp h.1, if_neg fun h => hp h.1]
      rfl
  by_cases hx : hasExtension data ∧ csrcEnd data + 4 ≤ data.length
  · refine (if_pos hx).trans ?_
    rw [show 12 + (data.getD 0 0 &&& 0x0F).toNat * 4 = csrcEnd data from rfl,
      readNtohs_ok (by omega), ok_bind]
    refine (hpad _).trans ?_
    rw [unpaddedLength, if_pos hx, fullLength, if_pos hx.1]
  · refine (if_neg hx).trans ((hpad _).trans ?_)
    rw [unpaddedLength, if_neg hx]
    rfl

/-! ## The P bit the other way -/

theorem padding_toggle (b : UInt8) :
    (((b ^^^ 0x20) >>> 5) &&& (0x01 : UInt8) != 0) = !((b >>> 5) &&& (0x01 : UInt8) != 0) := by
  revert b
  exact forall_byte (by decide +kernel)

theorem extension_toggle (b : UInt8) :
    ((b ^^^ 0x20) >>> 4) &&& (0x01 : UInt8) = (b >>> 4) &&& (0x01 : UInt8) := by
  revert b
  exact forall_byte (by decide +kernel)

theorem csrcCount_toggle (b : UInt8) : (b ^^^ 0x20) &&& 0x0F = b &&& 0x0F := by
  revert b
  exact forall_byte (by decide +kernel)

/-- What the P bit does not touch. -/
theorem togglePadding_fields (h : 12 ≤ data.length) :
    (togglePadding data).length = data.length ∧ hasPadding (togglePadding data) = !hasPadding data ∧
      lastByte (togglePadding data) = lastByte data ∧
      unpaddedLength (togglePadding data) = unpaddedLength data := by
  obtain ⟨b0, b1, q0, q1, t0, t1, t2, t3, s0, s1, s2, s3, rest, rfl⟩ := exists_of_length_le h
  have hcsrc : csrcEnd (togglePadding (b0 :: b1 :: q0 :: q1 :: t0 :: t1 :: t2 :: t3 :: s0 :: s1 ::
      s2 :: s3 :: rest)) = 12 + (b0 &&& 0x0F).toNat * 4 :=
    congrArg (fun b : UInt8 => 12 + b.toNat * 4) (csrcCount_toggle b0)
  have hext : hasExtension (togglePadding (b0 :: b1 :: q0 :: q1 :: t0 :: t1 :: t2 :: t3 :: s0 ::
      s1 :: s2 :: s3 :: rest)) = ((b0 >>> 4) &&& 0x01 != 0) :=
    congrArg (· != 0) (extension_toggle b0)
  refine ⟨rfl, padding_toggle b0, rfl, ?_⟩
  unfold unpaddedLength fullLength
  rw [hcsrc, hext]
  rfl

/-! ## Where the length is the header's -/

/-- The condition under which `headerLength` measures the header: the buffer is too short to have
one; or the P bit is set and the whole buffer is padding; or the header ends inside the buffer and
the last byte, if it is not 0, is the number of bytes behind the header. -/
def Measured (data : Bytes) : Prop :=
  data.length < 12 ∨ hasPadding data ∧ (lastByte data).toNat = data.length ∨
    fullLength data ≤ data.length ∧
      ((lastByte data).toNat = 0 ∨ (lastByte data).toNat + fullLength data = data.length)

instance (data : Bytes) : Decidable (Measured data) := by
  unfold Measured
  infer_instance

theorem csrcEnd_le_fullLength (data : Bytes) : csrcEnd data ≤ fullLength data := by
  unfold fullLength
  split
  · exact Nat.le_add_right _ _
  · exact Nat.le_refl _

theorem twelve_le_unpaddedLength (data : Bytes) : 12 ≤ unpaddedLength data := by
  have hcsrc : 12 ≤ csrcEnd data := Nat.le_add_right _ _
  unfold unpaddedLength
  split
  · exact Nat.le_trans hcsrc (csrcEnd_le_fullLength data)
  · exact hcsrc

/-- Without padding the length is that of the header, where the header ends inside the buffer. -/
theorem unpaddedLength_eq (h : fullLength data ≤ data.length) :
    unpaddedLength data = fullLength data := by
  unfold unpaddedLength
  by_cases hx : hasExtension data = true
  · have hle := h
    rw [fullLength, if_pos hx] at hle
    rw [if_pos ⟨hx, by omega⟩]
  · rw [if_neg fun h => hx h.1, fullLength, if_neg hx]

/-- `LengthOk` of a buffer of twelve bytes or more; `padded` is the length with the P bit set. -/
theorem lengthOk_long (h : 12 ≤ data.length) : LengthOk data ↔
    let padded := if 0 < (lastByte data).toNat then sizeSub data.length (lastByte data).toNat
      else unpaddedLength data
    let n := if hasPadding data then padded else unpaddedLength data
    (n = 0 ∨ n = fullLength data) ∧
      (n ≠ 0 → n ≤ data.length ∧ padded = unpaddedLength data) := by
  obtain ⟨hlen, hp, hlast, hun⟩ := togglePadding_fields h
  unfold LengthOk
  rw [headerLength_eq h, headerLength_eq (hlen ▸ h), hlen, hp, hlast, hun]
  cases hasPadding data <;> simp [eq_comm]

/-- **Where `headerLength` is right.** The function meets what its header file says of it exactly
on the buffers of `Measured`. -/
theorem lengthOk_iff (data : Bytes) : LengthOk data ↔ Measured data := by
  by_cases hshort : data.length < 12
  · exact iff_of_true ⟨0, headerLength_short hshort, .inl rfl, fun h => absurd rfl h⟩ (.inl hshort)
  have hlast := (lastByte data).toNat_lt
  have hun := twelve_le_unpaddedLength data
  have hfull : fullLength data ≤ data.length → unpaddedLength data = fullLength data :=
    unpaddedLength_eq
  rw [lengthOk_long (by omega), Measured, or_iff_right hshort]
  by_cases hzero : 0 < (lastByte data).toNat
  · -- a count above the length wraps around to a length above the buffer's
    have hsub : sizeSub data.length (lastByte data).toNat = if (lastByte data).toNat ≤ data.length
      then data.length - (lastByte data).toNat
      else data.length + 2 ^ 64 - (lastByte data).toNat := rfl
    cases hasPadding data with
    | true =>
      simp only [hzero, if_true, true_and]
      split at hsub <;> omega
    | false =>
      simp only [hzero, if_true, Bool.false_eq_true, if_false, false_and, false_or]
      split at hsub <;> omega
  · cases hasPadding data with
    | true =>
      simp only [hzero, if_true, if_false, true_and, and_true]
      omega
    | false =>
      simp only [hzero, if_false, Bool.false_eq_true, false_and, false_or, and_true]
      omega

/-- A packet of version 2 with two bytes of payload and two of padding: 14 is returned, of a header
of 12. -/
theorem headerLength_padded :
    ¬ LengthOk [0xA0, 96, 0, 1, 0, 0, 0, 1, 0, 0, 0, 1, 0xAB, 0xCD, 0, 2] := by
  rintro ⟨n, hn, hfull, -⟩
  obtain rfl : 14 = n := Except.ok.inj hn
  exact absurd hfull (by decide)

end RtpHeader

end Namecon
