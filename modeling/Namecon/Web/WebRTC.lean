import Mathlib.Logic.Function.Basic
import Namecon.Sdp.SdpParser

/-!
# The WebRTC object of a page (`web/js/webrtc.js`)

The fields of `WebRTC` that negotiation reads and writes, and its functions as far as they run
without an `await`. A transceiver is its place in `pc.getTransceivers()`, which only grows. An offer
has a section for each transceiver that is there when it is created; `setLocalDescription` gives the
transceivers of its sections their mids, and the mid of a section is its number.

`null` is a key of a JavaScript object like any other, so `_midPeerMap` is a function on
`Option Nat`.
-/

namespace Namecon

open Function (update)

/-- The kind of a track. -/
inductive Kind
  | audio
  | video
deriving DecidableEq, Repr

/-- An `RTCRtpTransceiver`; its mid is `null` before the first `setLocalDescription` with its
section. -/
structure Transceiver where
  kind : Kind
  direction : Direction
  mid : Option Nat := none
deriving DecidableEq, Repr

/-- An offer, by how many sections its SDP has. -/
structure Offer where
  sections : Nat
deriving DecidableEq, Repr

/-- The mids that occur in the SDP. -/
def Offer.mids (o : Offer) : List Nat := List.range o.sections

/-- An entry of `_pendingTransceivers`. -/
structure Pending where
  transceiver : Nat
  peerId : String
  kind : Kind
deriving DecidableEq, Repr

/-- An entry of `_inactivePool`. -/
structure Pooled where
  transceiver : Nat
  kind : Kind
deriving DecidableEq, Repr

/-- An entry of `recv_mids`. The transceiver it is made of is not sent. -/
structure RecvMidEntry where
  transceiver : Nat
  mid : Option Nat
  publisherPeerId : String
  kind : Kind
  isVideo : Bool
deriving DecidableEq, Repr

/-- `pc` and `localStream` tell whether there is one, `transceivers` are those of the peer connection
and `renegotiateQueue` is the length of the queue. `answerResolver` is the call whose promise it
resolves. `pushed` is the history of `_pendingTransceivers.push`. -/
structure WebRTC where
  pc : Bool := false
  localStream : Bool := false
  transceivers : List Transceiver := []
  videoSender : Option Nat := none
  cameraEnabled : Bool := false
  pendingTransceivers : List Pending := []
  inactivePool : List Pooled := []
  midPeerMap : Option Nat → Option String := fun _ => none
  renegotiateQueue : Nat := 0
  renegotiating : Bool := false
  needsRenegotiate : Bool := false
  answerResolver : Option Nat := none
  pushed : List Pending := []

namespace WebRTC

variable (w : WebRTC)

/-- `transceiver.mid`. -/
def midOf (t : Nat) : Option Nat := w.transceivers[t]?.bind (·.mid)

/-- `transceiver.direction = d`. -/
def setDirection (t : Nat) (d : Direction) : WebRTC :=
  { w with transceivers := w.transceivers.modify t fun tc => { tc with direction := d } }

/-- `pc.addTransceiver`. -/
def addTransceiver (kind : Kind) (direction : Direction) : WebRTC :=
  { w with transceivers := w.transceivers ++ [{ kind, direction }] }

/-- `pc.addTrack` for the microphone, the first audio track that is sent: an audio transceiver that
is there is taken for it. -/
def addTrack : WebRTC :=
  match w.transceivers.findIdx? fun tc => tc.kind = .audio with
  | some t =>
    { w with transceivers := w.transceivers.modify t fun tc =>
        { tc with direction := if tc.direction = .inactive then .sendonly else .sendrecv } }
  | none => w.addTransceiver .audio .sendrecv

/-- `this._pendingTransceivers.push`. -/
def pushPending (p : Pending) : WebRTC :=
  { w with pendingTransceivers := w.pendingTransceivers ++ [p], pushed := w.pushed ++ [p] }

/-- The loop body of `addRecvTransceiver`. -/
def addRecvOne (peerId : String) (k : Kind) : WebRTC :=
  match w.inactivePool.find? fun p => p.kind = k with
  | some p =>
    ({ w with inactivePool := w.inactivePool.eraseP fun p => p.kind = k }.setDirection
      p.transceiver .recvonly).pushPending ⟨p.transceiver, peerId, k⟩
  | none => (w.addTransceiver k .recvonly).pushPending ⟨w.transceivers.length, peerId, k⟩

/-- `kindList` of `'both'`. -/
def both : List Kind := [.video, .audio]

/-- `addRecvTransceiver`: a transceiver from the pool is taken before a new one is made. -/
def addRecvTransceiver (peerId : String) (kindList : List Kind) : WebRTC :=
  if w.pc then kindList.foldl (fun w k => w.addRecvOne peerId k) w else w

/-- The loop body of `markTransceiverInactive`. -/
def markOne (peerId : String) (w : WebRTC) (t : Nat) : WebRTC :=
  match w.transceivers[t]? with
  | none => w
  | some tc =>
    if w.midPeerMap tc.mid = some peerId then
      { w.setDirection t .inactive with
        inactivePool := w.inactivePool ++ [⟨t, tc.kind⟩]
        midPeerMap := update w.midPeerMap tc.mid none }
    else w

/-- `markTransceiverInactive`: what the peer sent on goes to the pool. -/
def markTransceiverInactive (peerId : String) : WebRTC :=
  if w.pc then (List.range w.transceivers.length).foldl (markOne peerId) w else w

/-- The `addTransceiver` of `enableCamera`. -/
def addVideoSender : WebRTC :=
  { w.addTransceiver .video .sendrecv with videoSender := some w.transceivers.length }

/-- What `enableCamera` does between `getUserMedia` and `renegotiate`. While there is no
`localStream`, its `addTrack` throws. -/
def enableCamera : WebRTC :=
  if w.localStream then { w.addVideoSender with cameraEnabled := true, needsRenegotiate := true }
  else w.addVideoSender

/-- `disableCamera`, up to its `renegotiate`; the sender goes to no pool. -/
def disableCamera : WebRTC :=
  { w.videoSender.elim w fun t => w.setDirection t .inactive with
    videoSender := none
    cameraEnabled := false
    needsRenegotiate := true }

/-- `pc.createOffer`, at the moment the offer is created. -/
def createOffer : Offer := ⟨w.transceivers.length⟩

/-- `pc.setLocalDescription`, at the moment it resolves. -/
def setLocalDescription (o : Offer) : WebRTC :=
  { w with transceivers :=
      w.transceivers.mapIdx fun t tc => if t < o.sections then { tc with mid := some t } else tc }

/-- `offer.sdp.includes('m=audio')`. -/
def includesAudio (o : Offer) : Bool := (w.transceivers.take o.sections).any (·.kind = .audio)

/-- What the `map` of `_runRenegotiateQueue` makes of an entry. -/
def recvMid (p : Pending) : RecvMidEntry :=
  ⟨p.transceiver, w.midOf p.transceiver, p.peerId, p.kind, p.kind = .video⟩

/-- `_runRenegotiateQueue` from `setLocalDescription` to `_sendOffer`. -/
def takePending : WebRTC × List RecvMidEntry :=
  ({ w with
      midPeerMap := w.pendingTransceivers.foldl
        (fun m p => update m (w.midOf p.transceiver) (some p.peerId)) w.midPeerMap
      pendingTransceivers := []
      needsRenegotiate := false },
    w.pendingTransceivers.map w.recvMid)

/-- The `recv_mids` of `_doIceRestart`. The keys of `_midPeerMap` are visited in ascending order. -/
def boundMids : List RecvMidEntry :=
  (List.range w.transceivers.length).filterMap fun t =>
    w.transceivers[t]?.bind fun tc =>
      tc.mid.bind fun mid =>
        (w.midPeerMap (some mid)).map fun peerId =>
          ⟨t, some mid, peerId, tc.kind, tc.kind = .video⟩

end WebRTC

end Namecon
