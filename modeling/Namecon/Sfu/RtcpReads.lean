import Namecon.Rtcp.Compound
import Namecon.Sfu.Rtcp

/-!
# RTCP translation, read by read

`Router::onRtcpPacket` once more, with the offsets it keeps and every byte it reads checked against
the buffer (`Lib/Checked.lean`); `Sfu/Rtcp.lean` has what it does, without the reads. The functions
have the names of the source with `checked` in front.

`RtcpEvent` is what the loop makes of one packet: the handler it goes to, and the fields the handler
takes from the buffer.
-/

namespace Namecon.Router

open Checked (Result read readSlice)

/-! ## Which handler -/

/-- `len >= minLen && p[1] == pt && (p[0] & 0x1F) == 1`: a byte is read only when the tests before
it succeed. -/
def checkedIsFeedback (minLen : Nat) (pt : UInt8) (rtcp : Bytes) (offset remaining : Nat) :
    Result Bool :=
  if minLen ≤ remaining then do
    let byte1 ← read rtcp (offset + 1)
    if byte1 = pt then
      let byte0 ← read rtcp offset
      return byte0 &&& 0x1F == 1
    else return false
  else return false

/-- `len >= minLen && p[1] == pt`. -/
def checkedIsReport (minLen : Nat) (pt : UInt8) (rtcp : Bytes) (offset remaining : Nat) :
    Result Bool :=
  if minLen ≤ remaining then do
    let byte1 ← read rtcp (offset + 1)
    return byte1 == pt
  else return false

/-- `rtcpIsPLI` with checked reads; so are the next three. -/
def checkedIsPLI : Bytes → Nat → Nat → Result Bool := checkedIsFeedback 12 206

/-- `rtcpIsNACK`. -/
def checkedIsNACK : Bytes → Nat → Nat → Result Bool := checkedIsFeedback 16 205

/-- `rtcpIsSR`. -/
def checkedIsSR : Bytes → Nat → Nat → Result Bool := checkedIsReport 28 200

/-- `rtcpIsRR`. -/
def checkedIsRR : Bytes → Nat → Nat → Result Bool := checkedIsReport 8 201

/-! ## The handlers -/

section
variable (r : Router) (srtp : SrtpOracle) (i : Nat) (rtcp : Bytes) (offset : Nat)

/-- `handlePLI` at `offset`. -/
def checkedHandlePLI : Result (List Datagram) := do
  let outSsrc ← readNtohl rtcp (offset + 8)
  return r.translate srtp i ⟨outSsrc, pliReading⟩

/-- `handleNACK` at `offset`. -/
def checkedHandleNACK : Result (List Datagram) := do
  let outSsrc ← readNtohl rtcp (offset + 8)
  let pid ← readNtohs rtcp (offset + 12)
  let blp ← readNtohs rtcp (offset + 14)
  return r.translate srtp i ⟨outSsrc, nackReading pid blp⟩

/-- The report is copied after the lookup. -/
def checkedHandleRR (len : Nat) : Result (List Datagram) :=
  if len < 8 then return [] else do
  let outSsrc ← readNtohl rtcp (offset + 4)
  match r.findConsumerByOutSsrc outSsrc with
  | none => return []
  | some c =>
    match (r.heap c).publisher with
    | none => return []
    | some publisher =>
      if (r.peers publisher).srtp.isNone then return [] else
      let out ← readSlice rtcp offset len
      return (r.peers publisher).sendRtcp srtp i ((rrReading out).build (r.heap c))

end

/-! ## The loop -/

/-- A packet the loop visits, and what is sent for it. -/
structure Round where
  offset : Nat
  pktLen : Nat
  sent : List Datagram
deriving DecidableEq, Repr

/-- `words = (static_cast<uint16_t>(p[2]) << 8) | p[3]`. -/
def lengthWords (byte2 byte3 : UInt8) : UInt16 := UInt16.ofNat (byte2.toNat <<< 8 ||| byte3.toNat)

/-- The body of the loop at `offset`. -/
def checkedRound (r : Router) (srtp : SrtpOracle) (i : Nat) (rtcp : Bytes) (offset pktLen : Nat) :
    Result (List Datagram) := do
  let remaining := rtcp.length - offset
  if ← checkedIsPLI rtcp offset remaining then r.checkedHandlePLI srtp i rtcp offset
  else if ← checkedIsNACK rtcp offset remaining then r.checkedHandleNACK srtp i rtcp offset
  else if ← checkedIsRR rtcp offset remaining then r.checkedHandleRR srtp i rtcp offset pktLen
  else if ← checkedIsSR rtcp offset remaining then return []
  else return []

/-- The loop from `offset` on: the packets it visits, and the offset at which it stops. -/
def checkedLoop (r : Router) (srtp : SrtpOracle) (rtcp : Bytes) :
    Nat → Nat → Nat → Result (List Round × Nat)
  | 0, _, _ => .error .outOfFuel
  | fuel + 1, i, offset =>
    if offset + 4 ≤ rtcp.length then do
      let byte2 ← read rtcp (offset + 2)
      let byte3 ← read rtcp (offset + 3)
      let pktLen := ((lengthWords byte2 byte3).toNat + 1) * 4
      if pktLen = 0 ∨ rtcp.length < offset + pktLen then return ([], offset) else
      let sent ← r.checkedRound srtp i rtcp offset pktLen
      let rest ← checkedLoop r srtp rtcp fuel (i + 1) (offset + pktLen)
      return (⟨offset, pktLen, sent⟩ :: rest.1, rest.2)
    else return ([], offset)

/-- `Router::onRtcpPacket` with checked reads; a sub-packet takes four bytes at least. -/
def checkedOnRtcpPacket (r : Router) (srtp : SrtpOracle) (rtcp : Bytes) :
    Result (List Round × Nat) := r.checkedLoop srtp rtcp (rtcp.length + 1) 0 0

/-! ## What a packet is taken for -/

/-- What a sub-packet asks of a consumer. -/
inductive RtcpEvent
  | pli (outSsrc : UInt32)
  | nack (outSsrc : UInt32) (pid blp : UInt16)
  | rr (outSsrc : UInt32) (report : Bytes)
deriving DecidableEq, Repr

/-- The classification of a packet with the fields its handler reads; `p` is what is left of the
buffer at the packet, `len` its length. -/
def event (p : Bytes) (len : Nat) : Option RtcpEvent :=
  if rtcpIsPLI p then some (.pli (ntohlAt p 8))
  else if rtcpIsNACK p then some (.nack (ntohlAt p 8) (ntohsAt p 12) (ntohsAt p 14))
  else if rtcpIsRR p then if len < 8 then none else some (.rr (ntohlAt p 4) (p.take len))
  else none

/-- What the handler makes of the fields. -/
def RtcpEvent.request : RtcpEvent → Request
  | .pli outSsrc => ⟨outSsrc, pliReading⟩
  | .nack outSsrc pid blp => ⟨outSsrc, nackReading pid blp⟩
  | .rr outSsrc report => ⟨outSsrc, rrReading report⟩

/-- The events of a compound, in order. -/
def events (rtcp : Bytes) : List RtcpEvent :=
  (rtcpWalk rtcp.length rtcp).flatMap fun x => (event x.1 x.2).toList

end Namecon.Router
