import Namecon.Transport.PacketRouter

/-!
# The buffers that are encrypted in place

`SrtpContext::protect` and `protectRtcp` write the authentication tag, and for RTCP the index as
well, behind the packet in the buffer they are given. `ProtectCall` is one such call with the size
of that buffer, and for each function that makes any there is one that lists them, with `Calls`
behind its name.
-/

namespace Namecon

/-- A call of `protect` or `protectRtcp`, which writes behind the plain bytes. -/
structure ProtectCall where
  channel : Channel
  target : Endpoint
  /-- The buffer up to `*len`. -/
  plain : Bytes
  /-- The size of the buffer. -/
  capacity : Nat
  /-- What libsrtp makes of it. -/
  outcome : Option Bytes
deriving DecidableEq, Repr

namespace ProtectCall

/-- What libsrtp appends: a tag of 10 bytes, and for RTCP 4 bytes with the index. -/
def trailer (k : ProtectCall) : Nat := if k.channel = .rtp then 10 else 14

/-- The encrypted packet is inside the buffer. -/
def Fits (k : ProtectCall) : Prop := k.plain.length + k.trailer ≤ k.capacity

instance (k : ProtectCall) : Decidable k.Fits := inferInstanceAs (Decidable (_ ≤ _))

/-- `if (protect(…)) _udp->sendTo(…)`. -/
def sent (k : ProtectCall) : Option Datagram :=
  k.outcome.map fun data => ⟨k.target, k.channel, k.plain, data⟩

end ProtectCall

/-- `protectRtcp` with the context of the peer, if it has one. -/
def Peer.protectRtcpCalls (x : Peer) (srtp : SrtpOracle) (i : Nat) (plain : Bytes)
    (capacity : Nat) : List ProtectCall :=
  match x.srtp with
  | none => []
  | some ctx => [⟨.rtcp, x.remoteEp, plain, capacity, srtp.protectRtcp i ctx plain⟩]

namespace Router

/-! ## RTP -/

/-- `uint8_t out[64]` of `findOrCreateProducer`. -/
def linkTargetsCalls (r : Router) (srtp : SrtpOracle) (fromPeer : PeerRef) (ssrc : UInt32)
    (isVideo : Bool) : List ProtectCall :=
  match r.findProducer fromPeer ssrc with
  | some _ => []
  | none =>
    if isVideo then (r.peers fromPeer).protectRtcpCalls srtp 0 (pliPacket ssrc) 64 else []

/-- `uint8_t out[65536]` of the forwarding loop. -/
def forwardOneCalls (r : Router) (srtp : SrtpOracle) (plainRtp : Bytes) (c : ConsumerRef) :
    List ProtectCall :=
  let k := r.heap c
  if !k.active then [] else
  match k.subscriber with
  | none => []
  | some subscriber =>
    match (r.peers subscriber).srtp with
    | none => []
    | some ctx =>
      if k.recvMid.isEmpty then [] else
      let out := (rewriteRtpHeader plainRtp k).1
      [⟨.rtp, (r.peers subscriber).remoteEp, out, 65536, srtp.protect c ctx out⟩]

/-- The calls of the sending loop. -/
def forwardCalls (srtp : SrtpOracle) (plainRtp : Bytes) :
    List ConsumerRef → Router → List ProtectCall
  | [], _ => []
  | c :: cs, r => r.forwardOneCalls srtp plainRtp c ++
      forwardCalls srtp plainRtp cs (r.forwardOne srtp plainRtp c).1

/-- The calls of `onRtpPacket`: a PLI for a new stream of video, then the copies. -/
def onRtpPacketCalls (r : Router) (videoPTs : Finset UInt8) (srtp : SrtpOracle) (plainRtp : Bytes)
    (fromPeer : PeerRef) : List ProtectCall :=
  match RtpHeader.parse plainRtp with
  | none => []
  | some hdr =>
    let isVideo : Bool := hdr.payloadType ∈ videoPTs
    let linked := r.linkTargets srtp fromPeer hdr.ssrc isVideo
    r.linkTargetsCalls srtp fromPeer hdr.ssrc isVideo ++
      forwardCalls srtp plainRtp linked.2.1 linked.1

/-! ## RTCP -/

/-- The call of a handler that gives its packet a buffer of the size `capacity`. -/
def translateCalls (r : Router) (srtp : SrtpOracle) (i : Nat) (q : Request) (capacity : Nat) :
    List ProtectCall :=
  match r.findConsumerByOutSsrc q.outSsrc with
  | none => []
  | some c =>
    match (r.heap c).publisher with
    | none => []
    | some publisher =>
      (r.peers publisher).protectRtcpCalls srtp i (q.build (r.heap c)) capacity

/-- `uint8_t out[64]`. -/
def handlePLICalls (r : Router) (srtp : SrtpOracle) (i : Nat) (p : Bytes) : List ProtectCall :=
  r.translateCalls srtp i (pliRequest p) 64

/-- `uint8_t out[64]`. -/
def handleNACKCalls (r : Router) (srtp : SrtpOracle) (i : Nat) (p : Bytes) : List ProtectCall :=
  r.translateCalls srtp i (nackRequest p) 64

/-- `std::vector<uint8_t> out(rtcp, rtcp + len)`. -/
def handleRRCalls (r : Router) (srtp : SrtpOracle) (i : Nat) (p : Bytes) (len : Nat) :
    List ProtectCall :=
  if len < 8 then [] else r.translateCalls srtp i (rrRequest p len) len

/-- The calls for one sub-packet. -/
def handleRtcpCalls (r : Router) (srtp : SrtpOracle) (i : Nat) (p : Bytes) (len : Nat) :
    List ProtectCall :=
  if rtcpIsPLI p then r.handlePLICalls srtp i p
  else if rtcpIsNACK p then r.handleNACKCalls srtp i p
  else if rtcpIsRR p then r.handleRRCalls srtp i p len
  else []

/-- The calls of `onRtcpPacket`. -/
def onRtcpPacketCalls (r : Router) (srtp : SrtpOracle) (rtcp : Bytes) : List ProtectCall :=
  (rtcpWalk rtcp.length rtcp).zipIdx.flatMap fun x => r.handleRtcpCalls srtp x.2 x.1.1 x.1.2

/-- The sender report that `generateAndSendSR` builds at the NTP time `ntp`. -/
def srPacket (k : Consumer) (ntp : UInt64) : Bytes :=
  ([0x80, 200] : Bytes) ++ htons 6 ++ htonl k.rewrittenSsrc ++ htonl (ntp >>> 32).toUInt32 ++
    htonl (ntp &&& 0xFFFFFFFF).toUInt32 ++ htonl k.lastSentTimestamp ++ htonl k.packetsSent ++
    htonl k.octetsSent

/-- `uint8_t out[64]`. No other code calls `generateAndSendSR`. -/
def generateAndSendSRCalls (r : Router) (srtp : SrtpOracle) (c : ConsumerRef) (ntp : UInt64) :
    List ProtectCall :=
  match (r.heap c).subscriber with
  | none => []
  | some subscriber =>
    (r.peers subscriber).protectRtcpCalls srtp 0 (srPacket (r.heap c) ntp) 64

end Router

namespace MediaServer

/-- `uint8_t out[64]`. -/
def sendPLItoAllPeersCalls (r : Router) (srtp : SrtpOracle) (newPeer : PeerRef) :
    List ProtectCall :=
  r.getAllVideoProducers.zipIdx.flatMap fun x =>
    if x.1.publisher = newPeer ∨ x.1.originalSsrc = 0 then []
    else (r.peers x.1.publisher).protectRtcpCalls srtp x.2 (pliPacket x.1.originalSsrc) 64

/-- The calls of `handleDtls`: the PLIs when the handshake is done. -/
def handleDtlsCalls (s : MediaServer) (ep : Endpoint) (env : PacketEnv) : List ProtectCall :=
  let got := s.getOrCreatePeer ep env.pick
  let s := got.1
  let dtls := (s.router.peers got.2).dtls.getD { sendTo := ep }
  let fed := handlePacket env dtls
  let r := s.router.modifyPeer got.2 fun x => { x with dtls := some fed.1 }
  if !dtls.handshakeDone && fed.1.handshakeDone then
    match initSrtp env with
    | none => []
    | some ctx =>
      let r := r.modifyPeer got.2 fun x => { x with srtp := some ctx }
      sendPLItoAllPeersCalls r env.srtp got.2
  else []

/-- The calls of `handleSrtp`. -/
def handleSrtpCalls (s : MediaServer) (data : Bytes) (ep : Endpoint) (env : PacketEnv) :
    List ProtectCall :=
  let got := s.getOrCreatePeer ep env.pick
  let s := got.1
  match (s.router.peers got.2).srtp with
  | none => []
  | some ctx =>
    match env.unprotect ctx data with
    | some plain => s.router.onRtpPacketCalls s.videoPTs env.srtp plain got.2
    | none =>
      match env.unprotectRtcp ctx data with
      | some plain => s.router.onRtcpPacketCalls env.srtp plain
      | none => []

/-- The calls that a datagram causes. -/
def protectCalls (s : MediaServer) (data : Bytes) (ep : Endpoint) (env : PacketEnv) :
    List ProtectCall :=
  match protocol data with
  | none => []
  | some .stun => []
  | some .dtls => s.handleDtlsCalls ep env
  | some .srtp => s.handleSrtpCalls data ep env

end MediaServer

end Namecon
