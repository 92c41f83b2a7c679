import Namecon.Transport.PacketRouter

/-!
# The gRPC service (`grpc/MediaServiceImpl.cpp`)

The RPCs the signalling server makes, as functions on `MediaServer`. `RemoveConsumer` answers
without doing anything, and the RPCs that answer `UNIMPLEMENTED` are left out. `ServerOp` are the
events of a run: RPCs and datagrams.
-/

namespace Namecon

open Function (update)

/-- What the server tells about itself: `getPublicIp`, the credentials of the ICE server and the
fingerprint of its certificate. -/
structure ServerInfo where
  publicIp : String := "127.0.0.1"
  iceUfrag : String := ""
  icePwd : String := ""
  fingerprint : String := ""

/-- What the signalling service is told of the SFU for the transport of a new peer. -/
structure AddPeerResp where
  sfuIp : String
  sfuPort : Nat
  iceUfrag : String
  icePwd : String
  dtlsFingerprint : String
deriving DecidableEq, Repr

/-- An RPC that fails, with the message of its status. -/
inductive Status
  | notFound (message : String)
  | exception
deriving DecidableEq, Repr

/-- An entry of `recv_mids`: the mid under which the peer receives the kind of a publisher. -/
structure RecvMid where
  mid : String
  publisherPeerId : String
  isVideo : Bool
deriving DecidableEq, Repr

/-- `SdpParser::generateAnswer`: from an offer, the outgoing SSRCs of its mids and the payload types
that are video so far, the answer (`none` where it throws, empty where the offer has no media) and
the payload types that are video afterwards. -/
abbrev GenerateAnswer :=
  String → (String → Option UInt32) → Finset UInt8 → Option String × Finset UInt8

namespace MediaServer

/-- `AddPeer`: a new `Peer` under the id, which then waits for its endpoint. A `Peer` that is there
under the id is forgotten. -/
def addPeer (s : MediaServer) (info : ServerInfo) (peerId : String) : MediaServer × AddPeerResp :=
  let s :=
    { s with
      nextPeer := s.nextPeer + 1
      router := s.router.modifyPeer s.nextPeer fun _ => { peerId }
      peers := update s.peers peerId (some s.nextPeer) }.registerPeer peerId s.nextPeer
  (s, ⟨info.publicIp, 10000, info.iceUfrag, info.icePwd, info.fingerprint⟩)

/-- `_peers.find(id)`. -/
def findPeer (s : MediaServer) (peerId : String) : Option PeerRef := s.peers peerId

/-- `AddConsumer`: both peers must be registered; it answers with the outgoing SSRC. -/
def addConsumer (s : MediaServer) (subscriberPeerId publisherPeerId : String) (isVideo : Bool)
    (d : Router.SsrcDraw) : MediaServer × Except Status UInt32 :=
  match s.findPeer subscriberPeerId, s.findPeer publisherPeerId with
  | some subscriber, some publisher =>
    let out := s.router.addConsumer subscriber publisher isVideo d
    ({ s with router := out.1 }, .ok out.2)
  | _, _ => (s, .error (.notFound "Peer not registered yet (wait for AddPeer)"))

/-- The loop over `recv_mids`: the router, and `midToSsrc`. -/
def bindMids (subscriber : PeerRef) :
    List RecvMid → Router × (String → Option UInt32) → Router × (String → Option UInt32)
  | [], acc => acc
  | rm :: rest, (r, midToSsrc) =>
    let bound := r.bindConsumerByMid subscriber rm.publisherPeerId rm.isVideo rm.mid
    bindMids subscriber rest
      (bound.1, if bound.2 ≠ 0 then update midToSsrc rm.mid (some bound.2) else midToSsrc)

/-- The bindings of the request, then those of all bound consumers of the subscriber. -/
def offerMids (s : MediaServer) (peerId : String) (recvMids : List RecvMid) :
    Router × (String → Option UInt32) :=
  match s.findPeer peerId with
  | none => (s.router, fun _ => none)
  | some subscriber =>
    let bound := bindMids subscriber recvMids (s.router, fun _ => none)
    let boundSsrcs := bound.1.getAllBoundSsrcs subscriber
    (bound.1, fun mid => (boundSsrcs mid).or (bound.2 mid))

/-- `SendOffer`: the mids are bound before the offer is parsed, so they stay bound where it
throws. -/
def sendOffer (s : MediaServer) (generateAnswer : GenerateAnswer) (peerId sdp : String)
    (recvMids : List RecvMid) : MediaServer × Except Status String :=
  let mids := s.offerMids peerId recvMids
  let answer := generateAnswer sdp mids.2 s.videoPTs
  ({ s with router := mids.1, videoPTs := answer.2 },
    match answer.1 with
    | some text => .ok text
    | none => .error .exception)

/-- `RemovePeer`: an id that is not there is ignored. -/
def removePeer (s : MediaServer) (peerId : String) : MediaServer :=
  match s.findPeer peerId with
  | none => s
  | some peer =>
    { s with peers := update s.peers peerId none, router := s.router.removePeer peer }

end MediaServer

/-! ## Runs -/

/-- What reaches the media server: the four RPCs of its service and the datagrams of its socket. -/
inductive ServerOp
  | addPeer (info : ServerInfo) (peerId : String)
  | addConsumer (subscriberPeerId publisherPeerId : String) (isVideo : Bool) (d : Router.SsrcDraw)
  | sendOffer (generateAnswer : GenerateAnswer) (peerId sdp : String) (recvMids : List RecvMid)
  | removePeer (peerId : String)
  | packet (data : Bytes) (ep : Endpoint) (env : PacketEnv)

/-- One RPC or datagram; answers and what is sent are left out. -/
def MediaServer.step (s : MediaServer) : ServerOp → MediaServer
  | .addPeer info peerId => (s.addPeer info peerId).1
  | .addConsumer sub pub isVideo d => (s.addConsumer sub pub isVideo d).1
  | .sendOffer generateAnswer peerId sdp recvMids =>
    (s.sendOffer generateAnswer peerId sdp recvMids).1
  | .removePeer peerId => s.removePeer peerId
  | .packet data ep env => (s.onPacket data ep env).1

end Namecon
