import Mathlib.Logic.Function.Basic
import Namecon.Rtp.Header

/-!
# Peers, producers and consumers (`sfu/Peer.h`, `sfu/Producer.h`, `sfu/Consumer.h`)

`Peer*` and `Consumer*` are references `PeerRef` and `ConsumerRef` into the object tables of
`Router` (`Sfu/Router.lean`); a null pointer is `none`. A `Peer` owns its producers, which are
therefore values in its vector, and the consumers whose references stand in its vector
(`unique_ptr`): a consumer is destroyed when its reference leaves the vector of its owner.

OpenSSL and libsrtp are outside the repository. `SrtpContext` keeps the keys a context was made
from, `DtlsContext` the endpoint of its send callback and whether its handshake is done, and the
outcome of each library call is an argument of the step that makes it (`SrtpOracle`).
-/

namespace Namecon

/-- A `shared_ptr<Peer>`: two are equal where they point to one object. -/
abbrev PeerRef := Nat

/-- A `Consumer*`. References are not used again, so one may outlive its consumer. -/
abbrev ConsumerRef := Nat

/-- A UDP endpoint (the socket is IPv4). -/
structure Endpoint where
  address : UInt32 := 0
  port : UInt16 := 0
deriving DecidableEq, Repr

/-- Where the answers of a handshake go, and whether it is over. -/
structure DtlsContext where
  sendTo : Endpoint
  handshakeDone : Bool := false
deriving DecidableEq, Repr

/-- An initialised SRTP context: the 60 bytes it was made from. -/
structure SrtpContext where
  keyMaterial : Bytes
deriving DecidableEq, Repr

/-- A subscription: whose stream goes to whom under which SSRC, and the state of its rewriting. -/
structure Consumer where
  subscriber : Option PeerRef := none
  publisher : Option PeerRef := none
  isVideo : Bool := false
  rewrittenSsrc : UInt32 := 0
  publisherSsrc : UInt32 := 0
  recvMid : String := ""
  seqInitialized : Bool := false
  lastSentSeq : UInt16 := 0
  lastSentTimestamp : UInt32 := 0
  seqDelta : Int := 0
  tsDelta : Int := 0
  packetsSent : UInt32 := 0
  octetsSent : UInt32 := 0
  active : Bool := true
deriving DecidableEq, Repr

/-- An incoming stream and the consumers linked to it. -/
structure Producer where
  publisher : PeerRef
  originalSsrc : UInt32
  isVideo : Bool
  consumers : List ConsumerRef := []
deriving DecidableEq, Repr

/-- A `Peer` with the streams it sends and the subscriptions it owns. -/
structure Peer where
  peerId : String := ""
  remoteEp : Endpoint := {}
  dtls : Option DtlsContext := none
  srtp : Option SrtpContext := none
  producers : List Producer := []
  consumers : List ConsumerRef := []
deriving DecidableEq, Repr

/-! ## What leaves the socket -/

/-- What a datagram on the socket carries. -/
inductive Channel
  | rtp
  | rtcp
  | dtls
  | stun
deriving DecidableEq, Repr

/-- A datagram handed to `UdpServer::sendTo`: `plain` is the buffer before SRTP protection, `data`
the bytes sent. -/
structure Datagram where
  target : Endpoint
  channel : Channel
  plain : Bytes
  data : Bytes
deriving DecidableEq, Repr

/-- What `srtp_protect` and `srtp_protect_rtcp` do in the calls of one step: `none` where the call
fails. `protect` is asked once for each consumer a packet is forwarded to, `protectRtcp` for the
`i`-th RTCP packet of the step. -/
structure SrtpOracle where
  protect : ConsumerRef → SrtpContext → Bytes → Option Bytes
  protectRtcp : Nat → SrtpContext → Bytes → Option Bytes

/-- A PLI for the stream `ssrc` with sender SSRC 0, as all three places that send one build it. -/
def pliPacket (ssrc : UInt32) : Bytes := [0x81, 206] ++ htons 2 ++ htonl 0 ++ htonl ssrc

/-- Protects the RTCP packet `plain` with the peer's context and sends it to the peer. -/
def Peer.sendRtcp (x : Peer) (srtp : SrtpOracle) (i : Nat) (plain : Bytes) : List Datagram :=
  match x.srtp with
  | none => []
  | some ctx =>
    match srtp.protectRtcp i ctx plain with
    | none => []
    | some data => [⟨x.remoteEp, .rtcp, plain, data⟩]

theorem Peer.channel_of_mem_sendRtcp {x : Peer} {srtp : SrtpOracle} {i : Nat} {plain : Bytes}
    {d : Datagram} (h : d ∈ x.sendRtcp srtp i plain) : d.channel = .rtcp := by
  unfold Peer.sendRtcp at h
  split at h
  · cases h
  · split at h
    · cases h
    · rw [List.mem_singleton.1 h]

end Namecon
