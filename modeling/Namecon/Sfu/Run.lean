import Namecon.Lib.Runs
import Namecon.Sfu.Router

/-!
# Runs of the router

The operations that change the state of the router, as the labels of a run (`Lib/Runs.lean`). The
transport layer writes `remoteEp`, `dtls` and `srtp` of a `Peer` between them (`setTransport`); the
ids of the peers are fixed by the state a run starts in, in which no peer has a producer or a
consumer (`Router.Fresh`).
-/

namespace Namecon

/-- The calls that change the router, and what the transport writes into a `Peer`. -/
inductive RouterOp
  | addConsumer (subscriber publisher : PeerRef) (isVideo : Bool) (d : Router.SsrcDraw)
  | removePeer (peer : PeerRef)
  | bindConsumerByMid (subscriber : PeerRef) (publisherPeerId : String) (isVideo : Bool)
      (recvMid : String)
  | onRtpPacket (videoPTs : Finset UInt8) (srtp : SrtpOracle) (plainRtp : Bytes)
      (fromPeer : PeerRef)
  | setTransport (peer : PeerRef) (remoteEp : Endpoint) (dtls : Option DtlsContext)
      (srtp : Option SrtpContext)

/-- No RTP packet with the SSRC 0. -/
def RouterOp.NoZeroPacket : RouterOp → Prop
  | .onRtpPacket _ _ plainRtp _ => ∀ hdr ∈ RtpHeader.parse plainRtp, hdr.ssrc ≠ 0
  | _ => True

instance (op : RouterOp) : Decidable op.NoZeroPacket :=
  match op with
  | .onRtpPacket _ _ plainRtp _ =>
    inferInstanceAs (Decidable (∀ hdr ∈ RtpHeader.parse plainRtp, hdr.ssrc ≠ 0))
  | .addConsumer .. | .removePeer .. | .bindConsumerByMid .. | .setTransport .. => .isTrue trivial

namespace Router

/-- The endpoint and the contexts of a `Peer`, which `PacketRouter` writes. -/
def setTransport (r : Router) (peer : PeerRef) (remoteEp : Endpoint) (dtls : Option DtlsContext)
    (srtp : Option SrtpContext) : Router :=
  r.modifyPeer peer fun x => { x with remoteEp, dtls, srtp }

/-- One call; what it sends is left out. -/
def step (r : Router) : RouterOp → Router
  | .addConsumer subscriber publisher isVideo d => (r.addConsumer subscriber publisher isVideo d).1
  | .removePeer peer => r.removePeer peer
  | .bindConsumerByMid subscriber publisherPeerId isVideo recvMid =>
    (r.bindConsumerByMid subscriber publisherPeerId isVideo recvMid).1
  | .onRtpPacket videoPTs srtp plainRtp fromPeer =>
    (r.onRtpPacket videoPTs srtp plainRtp fromPeer).1
  | .setTransport peer remoteEp dtls srtp => r.setTransport peer remoteEp dtls srtp

/-- A router no call has reached yet. -/
structure Fresh (r : Router) : Prop where
  producers : ∀ p, (r.peers p).producers = []
  consumers : ∀ p, (r.peers p).consumers = []
  allPeers : r.allPeers = []
  outSsrcToConsumer : ∀ ssrc, r.outSsrcToConsumer ssrc = none
  table : ∀ ssrc, r.table ssrc = none

/-- The router of a server that starts, with the peer ids `ids`. -/
def start (ids : PeerRef → String) : Router := { peers := fun p => { peerId := ids p } }

theorem fresh_start (ids : PeerRef → String) : (start ids).Fresh :=
  ⟨fun _ => rfl, fun _ => rfl, rfl, fun _ => rfl, fun _ => rfl⟩

end Router

end Namecon
