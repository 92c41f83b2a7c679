import Namecon.Lib.Framing
import Namecon.Rtp.Reads

/-!
# RTCP compounds

A compound is a concatenation of packets, each with a header of four bytes whose length field
counts 32-bit words less one (`compound`).
-/

namespace Namecon

/-- The length the header of the packet at the start of `p` claims, in bytes. -/
def rtcpPacketLen (p : Bytes) : Nat := ((ntohsAt p 2).toNat + 1) * 4

/-- The packets of an RTCP compound. -/
def compound : Framing UInt8 where
  header := 4
  size := rtcpPacketLen
  header_pos := by decide
  header_le p := by unfold rtcpPacketLen; omega
  size_congr p q h := by
    unfold rtcpPacketLen
    rw [← ntohsAt_take (p := p) (n := 4) (by omega), ← ntohsAt_take (p := q) (n := 4) (by omega), h]

theorem compound_size (p : Bytes) : compound.size p = rtcpPacketLen p := rfl

theorem fits_compound {p : Bytes} :
    compound.Fits p ↔ 4 ≤ p.length ∧ rtcpPacketLen p ≤ p.length := Iff.rfl

/-- A header in front of as many words as it counts. -/
theorem isRecord_compound (byte0 pt : UInt8) {words : UInt16} (body : Bytes)
    (hbody : body.length = words.toNat * 4) :
    compound.IsRecord ([byte0, pt] ++ htons words ++ body) := by
  have hlen : ([byte0, pt] ++ htons words ++ body).length = 4 + body.length := by
    simp [htons]
    omega
  have hwords : ntohsAt ([byte0, pt] ++ htons words ++ body) 2 = words := ntohs_htons words
  refine ⟨by rw [hlen]; exact Nat.le_add_right 4 _, ?_⟩
  rw [compound_size, rtcpPacketLen, hwords, hlen]
  omega

theorem rtcpPacketLen_pos (p : Bytes) : 0 < rtcpPacketLen p := compound.size_pos p

theorem dvd_rtcpPacketLen (p : Bytes) : 4 ∣ rtcpPacketLen p := Nat.dvd_mul_left _ _

end Namecon
