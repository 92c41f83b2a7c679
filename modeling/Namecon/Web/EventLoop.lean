import Namecon.Web.WebRTC

/-!
# The event loop of a page (`web/js/webrtc.js`, `web/room.html`)

A `Page` is what runs between two `await`s: the WebRTC object, the calls that wait, each a
`CallFrame`, and the offers on the socket. The three callers of `_sendOffer` are `init`, an
iteration of `_runRenegotiateQueue` and `_doIceRestart`; a call is named by its number, and so is
its offer and the promise of its `_sendOffer`. An `Event` is what wakes the page up. Its step is all
that runs up to the next `await`. The steps of the browser come in any order, but for two things:
the server replies to the offers one after the other, and the descriptions of the answers are set in
the order in which the answers come.

The signalling server sends `joined` once. A socket that closes and `cleanup` are left out: the page
is left then.
-/

namespace Namecon

open Function (update)

/-- The `joined` handler, which has called `init` and goes on with `existing_peers`, an iteration of
`_runRenegotiateQueue`, or `_doIceRestart`. -/
inductive Caller
  | init (existing : List String)
  | run
  | iceRestart
deriving DecidableEq, Repr

/-- What a call waits for. -/
inductive Await
  | getUserMedia
  | createOffer
  | setLocalDescription (offer : Offer)
  | answer
deriving DecidableEq, Repr

/-- A call that waits at an `await`. -/
structure CallFrame where
  caller : Caller
  await : Await
deriving DecidableEq, Repr

/-- A message `offer`, and the call that has sent it. -/
structure Payload where
  caller : Caller
  sdp : Offer
  recvMids : List RecvMidEntry
deriving DecidableEq, Repr

/-- `sent` is the history of the offers, `unanswered` are the calls whose offers the server has not
replied to, `answering` the calls of `setAnswer` that wait, by the offer that is answered. A pair in
`resolved` is a promise and the offer whose answer has resolved it. -/
structure Page where
  rtc : WebRTC := {}
  frames : Nat → Option CallFrame := fun _ => none
  nextFrame : Nat := 0
  sent : List Payload := []
  unanswered : List Nat := []
  answering : List Nat := []
  resolved : List (Nat × Nat) := []

namespace Page

variable (s : Page)

/-- A new call, up to its first `await`. -/
def call (f : CallFrame) : Page :=
  { s with frames := update s.frames s.nextFrame (some f), nextFrame := s.nextFrame + 1 }

/-- Call `i` waits at `f`, or has returned. -/
def setFrame (i : Nat) (f : Option CallFrame) : Page := { s with frames := update s.frames i f }

/-- The loop of `_runRenegotiateQueue` up to an `await`. -/
def runRenegotiateQueue : Nat → Page → Page
  | 0, s => { s with rtc := { s.rtc with renegotiateQueue := 0 } }
  | queue + 1, s =>
    if s.rtc.pendingTransceivers = [] ∧ s.rtc.needsRenegotiate = false then
      runRenegotiateQueue queue s
    else
      { s with rtc := { s.rtc with renegotiateQueue := queue, renegotiating := true } }.call
        ⟨.run, .createOffer⟩

/-- `renegotiate`: while an iteration waits the request is only counted. -/
def renegotiate : Page :=
  let queue := s.rtc.renegotiateQueue + 1
  if s.rtc.renegotiating then { s with rtc := { s.rtc with renegotiateQueue := queue } }
  else s.runRenegotiateQueue queue

/-- The `joined` handler from the return of `init`. -/
def afterInit (existing : List String) : Page :=
  if existing = [] then s
  else
    { s with rtc := existing.foldl (fun w p => w.addRecvTransceiver p WebRTC.both) s.rtc
      }.renegotiate

/-- `_sendOffer` in the call `i`, which then waits for the promise. -/
def sendOffer (i : Nat) (caller : Caller) (sdp : Offer) (recvMids : List RecvMidEntry) : Page :=
  { s with
    rtc := { s.rtc with answerResolver := some i }
    frames := update s.frames i (some ⟨caller, .answer⟩)
    sent := s.sent ++ [⟨caller, sdp, recvMids⟩]
    unanswered := s.unanswered ++ [i] }

/-- What follows `await setLocalDescription` in the call `i`. -/
def offerDescribed (i : Nat) (o : Offer) : Caller → Page
  | .init existing =>
    if s.rtc.includesAudio o then s.sendOffer i (.init existing) o []
    else (s.setFrame i none).afterInit existing
  | .run => { s with rtc := s.rtc.takePending.1 }.sendOffer i .run o s.rtc.takePending.2
  | .iceRestart =>
    { s with rtc := { s.rtc with needsRenegotiate := false } }.sendOffer i .iceRestart o
      s.rtc.boundMids

/-- The call goes on after `await this._sendOffer`. -/
def resume : Caller → Page
  | .init existing => s.afterInit existing
  | .run =>
    { s with rtc := { s.rtc with renegotiating := false } }.runRenegotiateQueue
      s.rtc.renegotiateQueue
  | .iceRestart => s

/-- `r()`: the promise of the call `i` is resolved. -/
def resolve (i : Nat) : Page :=
  match s.frames i with
  | some ⟨caller, .answer⟩ => (s.setFrame i none).resume caller
  | _ => s

/-- `createOffer` or `setLocalDescription` throws: the `finally` of `_runRenegotiateQueue`, the
`catch` of `_doIceRestart`. -/
def throws (i : Nat) : Caller → Page
  | .run => { s with rtc := { s.rtc with renegotiating := false } }.setFrame i none
  | _ => s.setFrame i none

end Page

/-! ## Events -/

/-- The number of `userMedia`, `offerCreated`, `described` and `rejected` is that of the call which
waits for it. `cameraOn` and `cameraOff` are the button, `cameraOn` when the camera is there;
`answer` and `error` are the reply to the first offer without one, and `remoteDescribed` goes on
with the first `setAnswer` that waits. -/
inductive Event
  | joined (existing : List String)
  | addRecvTransceiver (peerId : String) (kindList : List Kind)
  | renegotiate
  | peerLeft (peerId : String)
  | cameraOn
  | cameraOff
  | iceRestart
  | userMedia (i : Nat) (granted : Bool)
  | offerCreated (i : Nat)
  | described (i : Nat)
  | rejected (i : Nat)
  | answer
  | error
  | remoteDescribed
deriving DecidableEq, Repr

/-- The message `renegotiate`: the two calls of its handler. -/
def Event.renegotiateMessage (peerId : String) : List Event :=
  [.addRecvTransceiver peerId WebRTC.both, .renegotiate]

namespace Page

/-- What runs up to the next `await`. -/
def step (s : Page) : Event → Page
  | .joined existing =>
    if s.rtc.pc then s
    else { s with rtc := { s.rtc with pc := true } }.call ⟨.init existing, .getUserMedia⟩
  | .addRecvTransceiver peerId kindList =>
    { s with rtc := s.rtc.addRecvTransceiver peerId kindList }
  | .renegotiate => s.renegotiate
  | .peerLeft peerId => { s with rtc := s.rtc.markTransceiverInactive peerId }.renegotiate
  | .cameraOn =>
    if s.rtc.pc then
      if s.rtc.localStream then { s with rtc := s.rtc.enableCamera }.renegotiate
      else { s with rtc := s.rtc.enableCamera }
    else s
  | .cameraOff =>
    if s.rtc.cameraEnabled then { s with rtc := s.rtc.disableCamera }.renegotiate else s
  | .iceRestart => if s.rtc.pc then s.call ⟨.iceRestart, .createOffer⟩ else s
  | .userMedia i granted =>
    match s.frames i with
    | some ⟨caller, .getUserMedia⟩ =>
      { s with rtc := if granted then { s.rtc with localStream := true }.addTrack else s.rtc
        }.setFrame i (some ⟨caller, .createOffer⟩)
    | _ => s
  | .offerCreated i =>
    match s.frames i with
    | some ⟨caller, .createOffer⟩ =>
      s.setFrame i (some ⟨caller, .setLocalDescription s.rtc.createOffer⟩)
    | _ => s
  | .described i =>
    match s.frames i with
    | some ⟨caller, .setLocalDescription o⟩ =>
      { s with rtc := s.rtc.setLocalDescription o }.offerDescribed i o caller
    | _ => s
  | .rejected i =>
    match s.frames i with
    | some ⟨caller, .createOffer⟩ => s.throws i caller
    | some ⟨caller, .setLocalDescription _⟩ => s.throws i caller
    | _ => s
  | .answer =>
    match s.unanswered with
    | [] => s
    | i :: rest => { s with unanswered := rest, answering := s.answering ++ [i] }
  | .error => { s with unanswered := s.unanswered.tail }
  | .remoteDescribed =>
    match s.answering with
    | [] => s
    | j :: rest =>
      match s.rtc.answerResolver with
      | none => { s with answering := rest }
      | some i =>
        { s with
          rtc := { s.rtc with answerResolver := none }
          answering := rest
          resolved := s.resolved ++ [(i, j)] }.resolve i

end Page

end Namecon
