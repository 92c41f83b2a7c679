import Namecon.Rtp.Bytes

/-!
# The RTP fixed header (`rtp/RtpHeader`)

`RtpHeader.parse` and `RtpHeader.writeFixedHeader` as in `RtpHeader.cpp`: a buffer of at least
twelve bytes is a list that starts with twelve named bytes, so the guard `len < 12` is the last
branch of the pattern match. `writeFixedHeader_parse` says what the SFU uses of them: writing a
parsed header back with another SSRC changes the bytes 8 to 11 and nothing else (`withSsrc`).
-/

namespace Namecon

/-- The fixed part of the header, without the CSRCs. -/
structure RtpHeader where
  version : UInt8
  padding : Bool
  extension : Bool
  csrcCount : UInt8
  marker : Bool
  payloadType : UInt8
  sequenceNumber : UInt16
  timestamp : UInt32
  ssrc : UInt32
deriving DecidableEq, Repr

namespace RtpHeader

/-- `RtpHeader::parse`: any version is accepted, 12 bytes are enough. -/
def parse : Bytes → Option RtpHeader
  | byte0 :: byte1 :: q0 :: q1 :: t0 :: t1 :: t2 :: t3 :: s0 :: s1 :: s2 :: s3 :: _ =>
    some
      { version := (byte0 >>> 6) &&& 0x03
        padding := (byte0 >>> 5) &&& 0x01 != 0
        extension := (byte0 >>> 4) &&& 0x01 != 0
        csrcCount := byte0 &&& 0x0F
        marker := (byte1 >>> 7) &&& 0x01 != 0
        payloadType := byte1 &&& 0x7F
        sequenceNumber := ntohs q0 q1
        timestamp := ntohl t0 t1 t2 t3
        ssrc := ntohl s0 s1 s2 s3 }
  | _ => none

/-- `b ? 1 : 0`. -/
def bit (b : Bool) : UInt8 := if b then 1 else 0

/-- `RtpHeader::writeFixedHeader`; nothing is written where there are fewer than 12 bytes. -/
def writeFixedHeader (hdr : RtpHeader) : Bytes → Bytes
  | _ :: _ :: _ :: _ :: _ :: _ :: _ :: _ :: _ :: _ :: _ :: _ :: rest =>
    let byte0 := ((hdr.version &&& 0x03) <<< 6) ||| (bit hdr.padding <<< 5) |||
      (bit hdr.extension <<< 4) ||| (hdr.csrcCount &&& 0x0F)
    let byte1 := (bit hdr.marker <<< 7) ||| (hdr.payloadType &&& 0x7F)
    byte0 :: byte1 :: (htons hdr.sequenceNumber ++ htonl hdr.timestamp ++ htonl hdr.ssrc ++ rest)
  | data => data

end RtpHeader

/-- `buf` with the SSRC field, bytes 8 to 11, set to `ssrc`. -/
def withSsrc (buf : Bytes) (ssrc : UInt32) : Bytes := buf.take 8 ++ htonl ssrc ++ buf.drop 12

theorem exists_of_length_le {buf : Bytes} (h : 12 ≤ buf.length) :
    ∃ b0 b1 q0 q1 t0 t1 t2 t3 s0 s1 s2 s3 rest, buf =
      b0 :: b1 :: q0 :: q1 :: t0 :: t1 :: t2 :: t3 :: s0 :: s1 :: s2 :: s3 :: rest := by
  match buf, h with
  | b0 :: b1 :: q0 :: q1 :: t0 :: t1 :: t2 :: t3 :: s0 :: s1 :: s2 :: s3 :: rest, _ =>
    exact ⟨b0, b1, q0, q1, t0, t1, t2, t3, s0, s1, s2, s3, rest, rfl⟩

theorem RtpHeader.parse_isSome {buf : Bytes} : (parse buf).isSome ↔ 12 ≤ buf.length := by
  constructor
  · intro h
    unfold parse at h
    split at h
    · simp only [List.length_cons]; omega
    · cases h
  · intro h
    obtain ⟨_, _, _, _, _, _, _, _, _, _, _, _, _, rfl⟩ := exists_of_length_le h
    rfl

/-- A packet of twelve bytes or more has a header, with the SSRC at offset 8. -/
theorem RtpHeader.exists_parse {buf : Bytes} (h : 12 ≤ buf.length) :
    ∃ hdr, parse buf = some hdr ∧ hdr.ssrc = ntohlAt buf 8 := by
  obtain ⟨_, _, _, _, _, _, _, _, _, _, _, _, _, rfl⟩ := exists_of_length_le h
  exact ⟨_, rfl, rfl⟩

/-! ## The header survives a parse and a write -/

/-- A property of bytes that holds of all 256 of them. -/
theorem forall_byte {P : UInt8 → Prop} (h : ∀ n : Fin 256, P (UInt8.ofNat n)) (b : UInt8) :
    P b := by
  have := h ⟨b.toNat, b.toNat_lt⟩
  rwa [UInt8.ofNat_toNat] at this

/-- The first byte is put together again from its version, P, X and CC fields. -/
theorem byte0_fields (b : UInt8) :
    ((((b >>> 6) &&& 0x03) &&& 0x03) <<< 6) ||| (RtpHeader.bit ((b >>> 5) &&& 0x01 != 0) <<< 5) |||
      (RtpHeader.bit ((b >>> 4) &&& 0x01 != 0) <<< 4) ||| ((b &&& 0x0F) &&& 0x0F) = b := by
  revert b
  exact forall_byte (by decide +kernel)

/-- The second byte is put together again from its marker and payload type. -/
theorem byte1_fields (b : UInt8) :
    (RtpHeader.bit ((b >>> 7) &&& 0x01 != 0) <<< 7) ||| ((b &&& 0x7F) &&& 0x7F) = b := by
  revert b
  exact forall_byte (by decide +kernel)

/-- **Only the SSRC changes**: a parsed header written back with the SSRC `ssrc`. -/
theorem writeFixedHeader_parse {buf : Bytes} {hdr : RtpHeader} (h : RtpHeader.parse buf = some hdr)
    (ssrc : UInt32) : ({ hdr with ssrc } : RtpHeader).writeFixedHeader buf = withSsrc buf ssrc := by
  obtain ⟨b0, b1, q0, q1, t0, t1, t2, t3, s0, s1, s2, s3, rest, rfl⟩ :=
    exists_of_length_le (RtpHeader.parse_isSome.1 (by rw [h]; rfl))
  obtain rfl := Option.some.inj h
  simp only [RtpHeader.writeFixedHeader, byte0_fields, byte1_fields, htons_ntohs, htonl_ntohl]
  rfl

end Namecon
