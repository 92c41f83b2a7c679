import Namecon.Grpc.MediaService

/-!
# What a datagram makes the transport do

`MediaServer.calls` are the calls that `handleDtls` and `handleSrtp` make for the peer of a
datagram, in order, and `perform` is the effect of one; a datagram is the endpoint bound and the
calls performed (`onPacket_eq_performAll`). No other code makes any of them.
-/

namespace Namecon

/-- What a datagram makes the transport do to a peer or to the router. -/
inductive TransportCall
  /-- `peer->dtls = make_shared<DtlsContext>()`, sending to the endpoint. -/
  | newDtls (peer : PeerRef) (sendTo : Endpoint)
  /-- `peer->dtls->handlePacket(data, len)`. -/
  | handlePacket (peer : PeerRef)
  /-- `peer->srtp = srtp`. -/
  | setSrtp (peer : PeerRef) (srtp : SrtpContext)
  | sendPLItoAllPeers (newPeer : PeerRef)
  | onRtpPacket (plainRtp : Bytes) (fromPeer : PeerRef)
  | onRtcpPacket (rtcp : Bytes) (fromPeer : PeerRef)
deriving DecidableEq, Repr

namespace MediaServer

variable {s : MediaServer} {ep : Endpoint} {env : PacketEnv} {data : Bytes}

/-- What the peer gets for a handshake that this datagram completes: `exportSrtpKeys` and
`SrtpContext::init`. -/
def newKeys (env : PacketEnv) (dtls : DtlsContext) : Option SrtpContext :=
  if !dtls.handshakeDone && (handlePacket env dtls).1.handshakeDone then initSrtp env else none

/-- The context is set before the burst of PLIs. -/
def keyCalls (peer : PeerRef) : Option SrtpContext → List TransportCall
  | none => []
  | some srtp => [.setSrtp peer srtp, .sendPLItoAllPeers peer]

/-- The calls of `handleDtls` for the peer `x`. -/
def dtlsCalls (x : Peer) (peer : PeerRef) (ep : Endpoint) (env : PacketEnv) : List TransportCall :=
  (if x.dtls.isNone then [.newDtls peer ep] else []) ++ .handlePacket peer ::
    keyCalls peer (newKeys env (x.dtls.getD { sendTo := ep }))

/-- The calls of `handleSrtp` for the peer `x`: RTCP where it does not unprotect as RTP. -/
def srtpCalls (x : Peer) (peer : PeerRef) (data : Bytes) (env : PacketEnv) : List TransportCall :=
  match x.srtp with
  | none => []
  | some ctx =>
    match env.unprotect ctx data with
    | some plain => [.onRtpPacket plain peer]
    | none =>
      match env.unprotectRtcp ctx data with
      | some plain => [.onRtcpPacket plain peer]
      | none => []

/-- The calls for the peer of the endpoint. -/
def calls (s : MediaServer) (data : Bytes) (ep : Endpoint) (env : PacketEnv) :
    List TransportCall :=
  let got := s.getOrCreatePeer ep env.pick
  match protocol data with
  | some .dtls => dtlsCalls (got.1.router.peers got.2) got.2 ep env
  | some .srtp => srtpCalls (got.1.router.peers got.2) got.2 data env
  | some .stun => []
  | none => []

/-- One call, and what it sends. -/
def perform (env : PacketEnv) (s : MediaServer) : TransportCall → MediaServer × List Datagram
  | .newDtls peer sendTo =>
    ({ s with router := s.router.modifyPeer peer fun x => { x with dtls := some { sendTo } } }, [])
  | .handlePacket peer =>
    match (s.router.peers peer).dtls with
    | none => (s, [])
    | some dtls =>
      let fed := handlePacket env dtls
      ({ s with router := s.router.modifyPeer peer fun x => { x with dtls := some fed.1 } }, fed.2)
  | .setSrtp peer srtp =>
    ({ s with router := s.router.modifyPeer peer fun x => { x with srtp := some srtp } }, [])
  | .sendPLItoAllPeers newPeer => (s, MediaServer.sendPLItoAllPeers s.router env.srtp newPeer)
  | .onRtpPacket plainRtp fromPeer =>
    let out := s.router.onRtpPacket s.videoPTs env.srtp plainRtp fromPeer
    ({ s with router := out.1 }, out.2)
  | .onRtcpPacket rtcp _ => (s, s.router.onRtcpPacket env.srtp rtcp)

/-- The calls in turn, and all they send. -/
def performAll (env : PacketEnv) :
    List TransportCall → MediaServer → MediaServer × List Datagram
  | [], s => (s, [])
  | k :: ks, s =>
    let one := s.perform env k
    let rest := performAll env ks one.1
    (rest.1, one.2 ++ rest.2)

/-- The calls of an operation; RPCs make none. -/
def callsOf (s : MediaServer) : ServerOp → List TransportCall
  | .packet data ep env => s.calls data ep env
  | .addPeer .. | .addConsumer .. | .sendOffer .. | .removePeer .. => []

/-! ## A datagram is its calls -/

theorem performAll_append (env : PacketEnv) (ks ks' : List TransportCall) (s : MediaServer) :
    performAll env (ks ++ ks') s =
      ((performAll env ks' (performAll env ks s).1).1,
        (performAll env ks s).2 ++ (performAll env ks' (performAll env ks s).1).2) := by
  induction ks generalizing s with
  | nil => rfl
  | cons k ks ih => simp only [List.cons_append, performAll, ih, List.append_assoc]

/-- Creating the context, where there is none, and feeding it. -/
theorem performAll_feed (s : MediaServer) (peer : PeerRef) (ep : Endpoint) (env : PacketEnv) :
    performAll env ((if (s.router.peers peer).dtls.isNone then [.newDtls peer ep] else []) ++
      [.handlePacket peer]) s =
    let fed := handlePacket env ((s.router.peers peer).dtls.getD { sendTo := ep })
    ({ s with router := s.router.modifyPeer peer fun x => { x with dtls := some fed.1 } },
      fed.2) := by
  cases hd : (s.router.peers peer).dtls with
  | none => simp [performAll, perform, Router.modifyPeer_modifyPeer]
  | some dtls => simp [performAll, perform, hd]

theorem handleDtls_eq (s : MediaServer) (ep : Endpoint) (env : PacketEnv) :
    s.handleDtls ep env =
      performAll env (dtlsCalls ((s.getOrCreatePeer ep env.pick).1.router.peers
        (s.getOrCreatePeer ep env.pick).2) (s.getOrCreatePeer ep env.pick).2 ep env)
        (s.getOrCreatePeer ep env.pick).1 := by
  unfold handleDtls dtlsCalls
  generalize s.getOrCreatePeer ep env.pick = got
  dsimp only
  rw [List.append_cons, performAll_append, performAll_feed, newKeys]
  dsimp only
  split
  · cases initSrtp env with
    | none => simp [performAll, keyCalls]
    | some srtp => simp [performAll, keyCalls, perform]
  · simp [performAll, keyCalls]

theorem handleSrtp_eq (s : MediaServer) (data : Bytes) (ep : Endpoint) (env : PacketEnv) :
    s.handleSrtp data ep env =
      performAll env (srtpCalls ((s.getOrCreatePeer ep env.pick).1.router.peers
        (s.getOrCreatePeer ep env.pick).2) (s.getOrCreatePeer ep env.pick).2 data env)
        (s.getOrCreatePeer ep env.pick).1 := by
  unfold handleSrtp srtpCalls
  generalize s.getOrCreatePeer ep env.pick = got
  dsimp only
  cases (got.1.router.peers got.2).srtp with
  | none => rfl
  | some ctx =>
    dsimp only
    cases env.unprotect ctx data with
    | some plain => simp [performAll, perform]
    | none =>
      dsimp only
      cases env.unprotectRtcp ctx data with
      | some plain => simp [performAll, perform]
      | none => rfl

/-- **A DTLS or SRTP datagram binds its endpoint and performs its calls.** -/
theorem onPacket_eq_performAll (h : protocol data = some .dtls ∨ protocol data = some .srtp) :
    s.onPacket data ep env =
      performAll env (s.calls data ep env) (s.getOrCreatePeer ep env.pick).1 := by
  unfold onPacket calls
  rcases h with h | h
  · rw [h]
    exact handleDtls_eq s ep env
  · rw [h]
    exact handleSrtp_eq s data ep env

end MediaServer

end Namecon
