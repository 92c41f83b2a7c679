import Namecon.Rtcp.Compound

/-!
# The RTCP handler (`rtcp/RtcpHandler.cpp`)

A pointer into the buffer is the rest of the buffer from there, so `p[i]` is inside the buffer when
`i` is below the length of `p`, and `p + n <= end` says that `p` has `n` bytes. Every byte the code
reads is a checked read (`Lib/Checked.lean`), and the loops run on fuel. The callbacks are functions
the handler is given: what it does is the list of the calls it makes.
-/

namespace Namecon

open Checked (Result read readSlice)

/-- Which of the callbacks of the handler are set. -/
structure RtcpHandler where
  sendCb : Bool := false
  pliCb : Bool := false
  nackCb : Bool := false
  sdesCb : Bool := false
  srCb : Bool := false
deriving DecidableEq, Repr

namespace RtcpHandler

/-- A call of one of the callbacks for what was parsed. -/
inductive Callback
  | pli (mediaSsrc : UInt32)
  | nack (mediaSsrc : UInt32) (pid blp : UInt16)
  | sdes (ssrc : UInt32) (cname : Bytes)
  | sr (senderSsrc ntpMsw ntpLsw rtpTs pktCnt octCnt : UInt32)
deriving DecidableEq, Repr

/-- `if (cb) cb(…)`. -/
def call {α : Type} (cb : Bool) (c : α) : List α := if cb then [c] else []

/-! ## `onRtcpPacket` -/

/-- `case RTCP_PT_SR`. The switch has checked no length beyond the sub-packet's own. -/
def caseSr (h : RtcpHandler) (p : Bytes) : Result (List Callback) := do
  let senderSsrc ← readNtohl p 4
  let ntpMsw ← readNtohl p 8
  let ntpLsw ← readNtohl p 12
  let rtpTs ← readNtohl p 16
  let pktCnt ← readNtohl p 20
  let octCnt ← readNtohl p 24
  return call h.srCb (.sr senderSsrc ntpMsw ntpLsw rtpTs pktCnt octCnt)

/-- The loop over the items of a source description, up to `itemEnd`; `item` is counted from the
start of the packet. -/
def sdesItems (h : RtcpHandler) (p : Bytes) (ssrc : UInt32) (itemEnd : Nat) :
    Nat → Nat → Result (List Callback)
  | 0, _ => .error .outOfFuel
  | fuel + 1, item =>
    if item + 2 ≤ itemEnd then do
      let type ← read p item
      if type = 0 then return [] else
      let valLen ← read p (item + 1)
      if itemEnd < item + 2 + valLen.toNat then return [] else
      if type = 1 ∧ 0 < valLen.toNat then
        let cname ← readSlice p (item + 2) valLen.toNat
        let rest ← sdesItems h p ssrc itemEnd fuel (item + 2 + valLen.toNat)
        return call h.sdesCb (.sdes ssrc cname) ++ rest
      else sdesItems h p ssrc itemEnd fuel (item + 2 + valLen.toNat)
    else return []

/-- `case RTCP_PT_SDES`: one chunk is read, its items from offset 8 on. -/
def caseSdes (h : RtcpHandler) (p : Bytes) (packetLen : Nat) : Result (List Callback) := do
  let ssrc ← readNtohl p 4
  sdesItems h p ssrc packetLen packetLen 8

/-- `case RTCP_PT_RTPFB`: a generic NACK, of which the first entry is read. -/
def caseRtpfb (h : RtcpHandler) (p : Bytes) (packetLen : Nat) : Result (List Callback) := do
  let byte0 ← read p 0
  if byte0 &&& 0x1F = 1 ∧ 16 ≤ packetLen then
    let mediaSsrc ← readNtohl p 8
    let pid ← readNtohs p 12
    let blp ← readNtohs p 14
    return call h.nackCb (.nack mediaSsrc pid blp)
  else return []

/-- `case RTCP_PT_PSFB`: a PLI. -/
def casePsfb (h : RtcpHandler) (p : Bytes) (packetLen : Nat) : Result (List Callback) := do
  let byte0 ← read p 0
  if byte0 &&& 0x1F = 1 ∧ 12 ≤ packetLen then
    let mediaSsrc ← readNtohl p 8
    return call h.pliCb (.pli mediaSsrc)
  else return []

/-- The `switch` over the packet type. -/
def switch (h : RtcpHandler) (p : Bytes) (packetLen : Nat) (pt : UInt8) : Result (List Callback) :=
  if pt = 200 then h.caseSr p
  else if pt = 202 then h.caseSdes p packetLen
  else if pt = 205 then h.caseRtpfb p packetLen
  else if pt = 206 then h.casePsfb p packetLen
  else return []

/-- The loop over the sub-packets of a compound packet; a sub-packet takes four bytes at least. -/
def packets (h : RtcpHandler) : Nat → Bytes → Result (List Callback)
  | 0, _ => .error .outOfFuel
  | fuel + 1, p =>
    if 4 ≤ p.length then do
      let pt ← read p 1
      let length ← readNtohs p 2
      let packetLen := (length.toNat + 1) * 4
      if p.length < packetLen then return [] else
      let cbs ← h.switch p packetLen pt
      let rest ← packets h fuel (p.drop packetLen)
      return cbs ++ rest
    else return []

/-- `RtcpHandler::onRtcpPacket`: the callbacks in the order of their calls. -/
def onRtcpPacket (h : RtcpHandler) (data : Bytes) : Result (List Callback) :=
  h.packets (data.length + 1) data

/-! ## What the handler sends -/

/-- The buffers a call hands to the send callback. -/
def sendPLI (h : RtcpHandler) (senderSsrc mediaSsrc : UInt32) : List Bytes :=
  call h.sendCb ([0x80 ||| 1, 206] ++ htons 2 ++ htonl senderSsrc ++ htonl mediaSsrc)

/-- `RtcpHandler::sendNACK`, with one entry. -/
def sendNACK (h : RtcpHandler) (senderSsrc mediaSsrc : UInt32) (pid blp : UInt16) : List Bytes :=
  call h.sendCb ([0x80 ||| 1, 205] ++ htons 3 ++ htonl senderSsrc ++ htonl mediaSsrc ++
    htons pid ++ htons blp)

/-- The header of the class says that `mediaSsrc` is for report blocks to come. -/
def sendSR (h : RtcpHandler) (receiverSsrc _mediaSsrc ntpMsw ntpLsw rtpTs pktCnt octCnt : UInt32) :
    List Bytes :=
  call h.sendCb ([0x80, 200] ++ htons 6 ++ htonl receiverSsrc ++ htonl ntpMsw ++ htonl ntpLsw ++
    htonl rtpTs ++ htonl pktCnt ++ htonl octCnt)

end RtcpHandler

end Namecon
