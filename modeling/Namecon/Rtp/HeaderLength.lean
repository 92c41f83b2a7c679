import Mathlib.Algebra.Group.Nat.Defs
import Namecon.Rtp.Header
import Namecon.Rtp.Reads

/-!
# The length of an RTP header (`RtpHeader::headerLength`)

The function with every byte it reads checked against the buffer (`Lib/Checked.lean`); `size_t` is
64 bits wide. `fullLength` is what the header file says the function computes, and `LengthOk` puts
together what a caller relies on.
-/

namespace Namecon

open Checked (Result read)

/-- `a - b` in `size_t`. -/
def sizeSub (a b : Nat) : Nat := if b ≤ a then a - b else a + 2 ^ 64 - b

namespace RtpHeader

/-- `RtpHeader::headerLength`. Padding is taken off the length of the whole packet, as the code
does; the differences are taken in `size_t`. -/
def headerLength (data : Bytes) : Result Nat :=
  if data.length < 12 then return 0 else do
  let byte0 ← read data 0
  let cc := byte0 &&& 0x0F
  let length := 12 + cc.toNat * 4
  let extension := (byte0 >>> 4) &&& 0x01 != 0
  let length ←
    if extension ∧ length + 4 ≤ data.length then do
      let extLen ← readNtohs data (length + 2)
      pure (length + (4 + extLen.toNat * 4))
    else pure length
  let padding := (byte0 >>> 5) &&& 0x01 != 0
  if padding ∧ 0 < data.length then
    let padLen ← read data (data.length - 1)
    return if 0 < padLen.toNat then sizeSub data.length padLen.toNat else length
  else return length

/-! ## What the length stands for -/

/-- The P bit. -/
def hasPadding (data : Bytes) : Bool := (data.getD 0 0 >>> 5) &&& 0x01 != 0

/-- The X bit. -/
def hasExtension (data : Bytes) : Bool := (data.getD 0 0 >>> 4) &&& 0x01 != 0

/-- The fixed header and the CSRC list. -/
def csrcEnd (data : Bytes) : Nat := 12 + (data.getD 0 0 &&& 0x0F).toNat * 4

/-- The fixed header, the CSRC list and the extension, which is there if the X bit says so. -/
def fullLength (data : Bytes) : Nat :=
  if hasExtension data then csrcEnd data + (4 + (ntohsAt data (csrcEnd data + 2)).toNat * 4)
  else csrcEnd data

/-- The packet with the P bit the other way. -/
def togglePadding : Bytes → Bytes
  | byte0 :: rest => (byte0 ^^^ 0x20) :: rest
  | [] => []

/-- The function stays inside the buffer and returns 0 or the full length. A length other than 0 is
inside the buffer and is what the function returns with the P bit the other way. -/
def LengthOk (data : Bytes) : Prop :=
  ∃ n, headerLength data = .ok n ∧ (n = 0 ∨ n = fullLength data) ∧
    (n ≠ 0 → n ≤ data.length ∧ headerLength (togglePadding data) = .ok n)

end RtpHeader

end Namecon
