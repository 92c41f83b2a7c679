import Namecon.Sdp.Proof.PayloadTypes

/-!
# The process (`grpc/MediaServiceImpl.cpp` and the static members of `SdpParser`)

A `MediaServer` has of the static members of `SdpParser` the set that the router reads. A
`MediaProcess` has all of them, and its `sendOffer` runs the parser itself. Seen from the server it
takes the same steps (`step_server`). `ProcessOp` are the events of a run, as `ServerOp` are.
-/

namespace Namecon

open Runs (exec)

/-! ## What leaves `videoPTs` as it is -/

namespace MediaServer

variable (s : MediaServer)

theorem addConsumer_videoPTs (sub pub : String) (v : Bool) (d : Router.SsrcDraw) :
    (s.addConsumer sub pub v d).1.videoPTs = s.videoPTs := by
  unfold addConsumer
  cases s.findPeer sub with
  | none => rfl
  | some _ => cases s.findPeer pub <;> rfl

theorem removePeer_videoPTs (peerId : String) : (s.removePeer peerId).videoPTs = s.videoPTs := by
  unfold removePeer
  cases s.findPeer peerId <;> rfl

theorem getOrCreatePeer_videoPTs (ep : Endpoint) (pick : Nat) :
    (s.getOrCreatePeer ep pick).1.videoPTs = s.videoPTs := by
  unfold getOrCreatePeer
  cases s.peerMap ep with
  | some _ => rfl
  | none => cases s.pendingBegin pick <;> rfl

theorem onPacket_videoPTs (data : Bytes) (ep : Endpoint) (env : PacketEnv) :
    (s.onPacket data ep env).1.videoPTs = s.videoPTs := by
  have hgot := s.getOrCreatePeer_videoPTs ep env.pick
  refine onPacket_cases (P := fun s' => s'.videoPTs = s.videoPTs) rfl ?_ ?_
  · exact handleDtls_cases (P := fun s' => s'.videoPTs = s.videoPTs) fun _ _ => hgot
  · exact handleSrtp_cases (P := fun s' => s'.videoPTs = s.videoPTs) hgot fun _ => hgot

end MediaServer

/-! ## The process -/

/-- The server and the static members; `videoPTs` is one variable. -/
structure MediaProcess where
  server : MediaServer
  statics : PayloadTypes
  shared : statics.videoPTs = server.videoPTs

namespace MediaProcess

/-- The process before its first RPC or datagram. -/
def start : MediaProcess := ⟨{}, {}, rfl⟩

/-- The parser `SendOffer` makes: its static members are those of the process. -/
def offerParser (m : MediaProcess) (info : ServerInfo) (mids : String → Option UInt32) :
    SdpParser :=
  { info.parser mids m.server.videoPTs with statics := m.statics }

/-- The process with the router `r` and what a parser has left of the static members. -/
def leave (m : MediaProcess) (r : Router) (p : SdpParser) : MediaProcess :=
  ⟨{ m.server with router := r, videoPTs := p.statics.videoPTs }, p.statics, rfl⟩

/-- The binding of the mids comes before the parsing, and stays when that throws. -/
def sendOffer (m : MediaProcess) (info : ServerInfo) (peerId sdp : String)
    (recvMids : List RecvMid) : MediaProcess × Except Status String :=
  let mids := m.server.offerMids peerId recvMids
  match (m.offerParser info mids.2).generateAnswer sdp.toList with
  | .error p => (m.leave mids.1 p, .error .exception)
  | .ok (p, answer) => (m.leave mids.1 p, .ok (String.ofList answer))

/-- A step of the server that does not concern the static members. -/
def withServer (m : MediaProcess) (s : MediaServer) (h : s.videoPTs = m.server.videoPTs) :
    MediaProcess :=
  ⟨s, m.statics, m.shared.trans h.symm⟩

end MediaProcess

/-- `ServerOp` with the answer of `SendOffer` made by the parser. -/
inductive ProcessOp
  | addPeer (info : ServerInfo) (peerId : String)
  | addConsumer (subscriberPeerId publisherPeerId : String) (isVideo : Bool) (d : Router.SsrcDraw)
  | sendOffer (info : ServerInfo) (peerId sdp : String) (recvMids : List RecvMid)
  | removePeer (peerId : String)
  | packet (data : Bytes) (ep : Endpoint) (env : PacketEnv)

namespace MediaProcess

/-- One RPC or datagram of the process. -/
def step (m : MediaProcess) : ProcessOp → MediaProcess
  | .addPeer info peerId => m.withServer (m.server.addPeer info peerId).1 rfl
  | .addConsumer sub pub isVideo d =>
    m.withServer (m.server.addConsumer sub pub isVideo d).1
      (m.server.addConsumer_videoPTs sub pub isVideo d)
  | .sendOffer info peerId sdp recvMids => (m.sendOffer info peerId sdp recvMids).1
  | .removePeer peerId =>
    m.withServer (m.server.removePeer peerId) (m.server.removePeer_videoPTs peerId)
  | .packet data ep env =>
    m.withServer (m.server.onPacket data ep env).1 (m.server.onPacket_videoPTs data ep env)

/-! ## What the server sees -/

variable (m : MediaProcess) (info : ServerInfo)

theorem alike_offerParser (mids : String → Option UInt32) :
    SdpParser.Alike (info.parser mids m.server.videoPTs) (m.offerParser info mids) :=
  ⟨m.shared, rfl⟩

/-- `SendOffer` is that of the server, the parser being the function of its three arguments that it
is taken for there. -/
theorem sendOffer_server (peerId sdp : String) (recvMids : List RecvMid) :
    ((m.sendOffer info peerId sdp recvMids).1.server,
      (m.sendOffer info peerId sdp recvMids).2) =
        m.server.sendOffer info.generateAnswer peerId sdp recvMids := by
  have halike := m.alike_offerParser info (m.server.offerMids peerId recvMids).2
  unfold sendOffer MediaServer.sendOffer ServerInfo.generateAnswer
  dsimp only
  rcases SdpParser.alike_generateAnswer halike sdp.toList with
    ⟨e, e', he, he', hstat, -⟩ | ⟨a, a', answer, ha, ha', hstat, -⟩
  · rw [he, he']
    simp only [leave, hstat]
  · rw [ha, ha']
    simp only [leave, hstat]

/-- What an offer adds to the sets, whatever comes of it. -/
theorem gains_sendOffer (peerId sdp : String) (recvMids : List RecvMid) :
    SdpParser.Gains m.statics (SdpParser.mediaOf sdp.toList)
      (m.sendOffer info peerId sdp recvMids).1.statics := by
  have h := SdpParser.gains_generateAnswer
    (m.offerParser info (m.server.offerMids peerId recvMids).2) sdp.toList
  unfold sendOffer
  dsimp only
  cases hres : (m.offerParser info (m.server.offerMids peerId recvMids).2).generateAnswer
      sdp.toList with
  | error p =>
    rw [hres] at h
    exact h
  | ok res =>
    rw [hres] at h
    exact h

end MediaProcess

end Namecon
