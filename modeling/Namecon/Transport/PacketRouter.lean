import Namecon.Sfu.Rtcp
import Namecon.Sfu.Run

/-!
# Datagrams (`transport/PacketRouter.cpp`)

`MediaServer` is the state of the C++ process: the router, the endpoint table and the pool of peers
registered by `AddPeer` (`PacketRouter`), and the registry of the gRPC service. Datagrams arrive one
at a time (`UdpServer::doReceive`), so `onPacket` is a step.

`_pendingPeers` is an unordered map: `begin()` may be any of its entries, and `PacketEnv.pick` says
which. `PacketEnv` holds all that a datagram may meet outside the repository: what OpenSSL and
libsrtp make of it, and what the ICE server sends back.
-/

namespace Namecon

open Function (update)

/-- The state of the process. -/
structure MediaServer where
  router : Router := Router.start fun _ => ""
  /-- The reference the next `make_shared<Peer>()` gives. -/
  nextPeer : PeerRef := 0
  peerMap : Endpoint → Option PeerRef := fun _ => none
  pendingPeers : List (String × PeerRef) := []
  /-- `MediaServiceImpl::_peers`. -/
  peers : String → Option PeerRef := fun _ => none
  /-- `SdpParser::videoPTs`. -/
  videoPTs : Finset UInt8 := ∅

/-- What a datagram meets outside the repository. -/
structure PacketEnv where
  pick : Nat
  srtp : SrtpOracle
  unprotect : SrtpContext → Bytes → Option Bytes
  unprotectRtcp : SrtpContext → Bytes → Option Bytes
  /-- What `IceServer::onStunPacket` sends. -/
  ice : List Datagram
  /-- `SSL_do_handshake` returned 1. -/
  handshakeDone : Bool
  /-- What OpenSSL left in the write BIO. -/
  handshakeOut : List Bytes
  /-- `DtlsContext::exportSrtpKeys`, empty where the export fails. -/
  exportSrtpKeys : Bytes
  /-- Both `srtp_create` calls succeed. -/
  srtpCreate : Bool

namespace MediaServer

/-- `PacketRouter::registerPeer`: the peer waits for an endpoint, in the place of one that waits
under its id. -/
def registerPeer (s : MediaServer) (peerId : String) (peer : PeerRef) : MediaServer :=
  { s with pendingPeers := ListFacts.setKey s.pendingPeers peerId peer }

/-- The entry at `_pendingPeers.begin()`. -/
def pendingBegin (s : MediaServer) (pick : Nat) : Option (String × PeerRef) :=
  s.pendingPeers[pick % s.pendingPeers.length]?

/-- A peer made or taken for a new endpoint: `peer->remoteEp = ep; _peerMap[ep] = peer`. -/
def bindEndpoint (s : MediaServer) (ep : Endpoint) (peer : PeerRef) : MediaServer :=
  { s with
    router := s.router.modifyPeer peer fun x => { x with remoteEp := ep }
    peerMap := update s.peerMap ep (some peer) }

/-- `PacketRouter::getOrCreatePeer`: a new endpoint takes any pending peer, or a fresh one where
none is pending. -/
def getOrCreatePeer (s : MediaServer) (ep : Endpoint) (pick : Nat) : MediaServer × PeerRef :=
  match s.peerMap ep with
  | some peer => (s, peer)
  | none =>
    match s.pendingBegin pick with
    | some e =>
      ({ s with pendingPeers := ListFacts.eraseKey s.pendingPeers e.1 }.bindEndpoint ep e.2, e.2)
    | none => ({ s with nextPeer := s.nextPeer + 1 }.bindEndpoint ep s.nextPeer, s.nextPeer)

/-! ## The protocols -/

/-- What the first byte says. -/
inductive Protocol
  | stun
  | dtls
  | srtp
deriving DecidableEq, Repr

/-- The branch `onPacket` takes. -/
def protocol (data : Bytes) : Option Protocol :=
  let firstByte := data.getD 0 0
  if data.length < 1 then none
  else if 20 ≤ data.length ∧ firstByte = 0x00 ∧ data.getD 1 0 ≤ 0x03 ∧
      ntohlAt data 4 = 0x2112A442 then some .stun
  else if 20 ≤ firstByte ∧ firstByte ≤ 64 then some .dtls
  else if 128 ≤ firstByte then some .srtp
  else none

/-- A PLI to the publisher of every video stream but the new peer's. -/
def sendPLItoAllPeers (r : Router) (srtp : SrtpOracle) (newPeer : PeerRef) : List Datagram :=
  r.getAllVideoProducers.zipIdx.flatMap fun x =>
    if x.1.publisher = newPeer ∨ x.1.originalSsrc = 0 then []
    else (r.peers x.1.publisher).sendRtcp srtp x.2 (pliPacket x.1.originalSsrc)

/-- `SrtpContext::init`. -/
def initSrtp (env : PacketEnv) : Option SrtpContext :=
  if 60 ≤ env.exportSrtpKeys.length ∧ env.srtpCreate then some ⟨env.exportSrtpKeys⟩ else none

/-- `DtlsContext::handlePacket`: the context after it, and what its callback sent. -/
def handlePacket (env : PacketEnv) (dtls : DtlsContext) : DtlsContext × List Datagram :=
  if dtls.handshakeDone then (dtls, [])
  else ({ dtls with handshakeDone := env.handshakeDone },
    env.handshakeOut.map fun b => ⟨dtls.sendTo, .dtls, b, b⟩)

/-- `PacketRouter::handleDtls`: keys are set once, when the handshake becomes done. -/
def handleDtls (s : MediaServer) (ep : Endpoint) (env : PacketEnv) : MediaServer × List Datagram :=
  let got := s.getOrCreatePeer ep env.pick
  let s := got.1
  let dtls := (s.router.peers got.2).dtls.getD { sendTo := ep }
  let fed := handlePacket env dtls
  let r := s.router.modifyPeer got.2 fun x => { x with dtls := some fed.1 }
  if !dtls.handshakeDone && fed.1.handshakeDone then
    match initSrtp env with
    | none => ({ s with router := r }, fed.2)
    | some ctx =>
      let r := r.modifyPeer got.2 fun x => { x with srtp := some ctx }
      ({ s with router := r }, fed.2 ++ sendPLItoAllPeers r env.srtp got.2)
  else ({ s with router := r }, fed.2)

/-- `PacketRouter::handleSrtp`: nothing but the binding happens before the peer has keys. -/
def handleSrtp (s : MediaServer) (data : Bytes) (ep : Endpoint) (env : PacketEnv) :
    MediaServer × List Datagram :=
  let got := s.getOrCreatePeer ep env.pick
  let s := got.1
  match (s.router.peers got.2).srtp with
  | none => (s, [])
  | some ctx =>
    match env.unprotect ctx data with
    | some plain =>
      let out := s.router.onRtpPacket s.videoPTs env.srtp plain got.2
      ({ s with router := out.1 }, out.2)
    | none =>
      match env.unprotectRtcp ctx data with
      | some plain => (s, s.router.onRtcpPacket env.srtp plain)
      | none => (s, [])

/-- `PacketRouter::onPacket`. -/
def onPacket (s : MediaServer) (data : Bytes) (ep : Endpoint) (env : PacketEnv) :
    MediaServer × List Datagram :=
  match protocol data with
  | none => (s, [])
  | some .stun => (s, env.ice)
  | some .dtls => s.handleDtls ep env
  | some .srtp => s.handleSrtp data ep env

/-! ## What a datagram can do -/

section

variable {P : MediaServer → Prop} {s : MediaServer} {data : Bytes} {ep : Endpoint} {env : PacketEnv}

/-- A DTLS datagram changes the contexts of its peer alone. -/
theorem handleDtls_cases (hcontexts : ∀ f : Peer → Peer,
      (∀ x, ∃ dtls srtp, f x = { x with dtls, srtp }) →
      P { (s.getOrCreatePeer ep env.pick).1 with
        router := (s.getOrCreatePeer ep env.pick).1.router.modifyPeer
          (s.getOrCreatePeer ep env.pick).2 f }) :
    P (s.handleDtls ep env).1 := by
  have hfed := hcontexts (fun x => { x with dtls := some (handlePacket env
    (((s.getOrCreatePeer ep env.pick).1.router.peers (s.getOrCreatePeer ep env.pick).2).dtls.getD
      { sendTo := ep })).1 }) fun x => ⟨_, x.srtp, rfl⟩
  unfold handleDtls
  dsimp only
  split
  · split
    · exact hfed
    · dsimp only
      rw [Router.modifyPeer_modifyPeer]
      exact hcontexts _ fun x => ⟨_, _, rfl⟩
  · exact hfed

/-- An SRTP datagram binds its endpoint, and may be a packet for the router. -/
theorem handleSrtp_cases (hbound : P (s.getOrCreatePeer ep env.pick).1)
    (hrtp : ∀ plain, P { (s.getOrCreatePeer ep env.pick).1 with
      router := ((s.getOrCreatePeer ep env.pick).1.router.onRtpPacket
        (s.getOrCreatePeer ep env.pick).1.videoPTs env.srtp plain
        (s.getOrCreatePeer ep env.pick).2).1 }) :
    P (s.handleSrtp data ep env).1 := by
  unfold handleSrtp
  dsimp only
  split
  · exact hbound
  · split
    · exact hrtp _
    · split <;> exact hbound

theorem onPacket_cases (hkept : P s) (hdtls : P (s.handleDtls ep env).1)
    (hsrtp : P (s.handleSrtp data ep env).1) : P (s.onPacket data ep env).1 := by
  unfold onPacket
  split
  · exact hkept
  · exact hkept
  · exact hdtls
  · exact hsrtp

end

end MediaServer

end Namecon
