import Namecon.Signal.Hub
import Namecon.Web.EventLoop

/-!
# The video grid of a page (`web/js/ui.js`, `web/room.html`)

A `Screen` is a page and its tiles, in the order of the grid. The handlers of `web/room.html` change
the tiles along with the WebRTC object: `joined` adds the local tile before it calls `init` and the
tiles of `existing_peers` when `init` has returned, `renegotiate` adds the tile of its peer before
the transceivers (the event `addRecvTransceiver` is both), and `peer-left` removes one. `ontrack`
puts a remote track into a tile.
-/

namespace Namecon

/-- An entry of `UI.tiles`. `srcObject` lists the transceivers whose tracks are in the stream of the
`video` element, with their kinds; there is no stream until the first of them. That of the local
tile is left out. -/
structure Tile where
  id : String
  srcObject : Option (List (Nat × Kind)) := none
deriving DecidableEq, Repr

namespace UI

/-- `addLocalVideo` and `addRemoteVideo`. -/
def addVideo (tiles : List Tile) (id : String) : List Tile :=
  if id ∈ tiles.map (·.id) then tiles else tiles ++ [⟨id, none⟩]

/-- `removeVideo`: the tile goes, whatever it shows. -/
def removeVideo (tiles : List Tile) (id : String) : List Tile := tiles.filter (·.id ≠ id)

end UI

/-- A page and its tiles, the local one among them. -/
structure Screen where
  page : Page := {}
  tiles : List Tile := []

/-- `track` is the event of the peer connection, by the transceiver. -/
inductive ScreenEvent
  | page (e : Event)
  | track (t : Nat)
deriving DecidableEq, Repr

/-- The `existing_peers` for which the `joined` handler goes on: `init` returns, because its offer
has no audio section or its promise is resolved. -/
def Page.initReturns (s : Page) : Event → List String
  | .described i =>
    match s.frames i with
    | some ⟨.init existing, .setLocalDescription o⟩ =>
      if (s.rtc.setLocalDescription o).includesAudio o then [] else existing
    | _ => []
  | .remoteDescribed =>
    match s.answering, s.rtc.answerResolver with
    | _ :: _, some i =>
      match s.frames i with
      | some ⟨.init existing, .answer⟩ => existing
      | _ => []
    | _, _ => []
  | _ => []

namespace Screen

variable (s : Screen)

/-- What the handlers make of the tiles. -/
def tilesAfter : Event → List Tile
  | .joined _ => UI.addVideo s.tiles "local"
  | .addRecvTransceiver peerId _ => UI.addVideo s.tiles peerId
  | .peerLeft peerId => UI.removeVideo s.tiles peerId
  | e => (s.page.initReturns e).foldl UI.addVideo s.tiles

/-- The tile whose `video` element `ontrack` takes: that of the peer of the mid, else the first
remote one without a stream. -/
def targetVideo (mid : Option Nat) : Option String :=
  let empty := s.tiles.find? fun tile => tile.id ≠ "local" ∧ tile.srcObject = none
  match s.page.rtc.midPeerMap mid with
  | some peerId =>
    if peerId ≠ "" ∧ peerId ∈ s.tiles.map (·.id) then some peerId else empty.map (·.id)
  | none => empty.map (·.id)

/-- The tracks of the same kind are removed from the stream, and the track is added. -/
def addToStream (t : Nat) (kind : Kind) (tile : Tile) : Tile :=
  { tile with srcObject := some ((tile.srcObject.getD []).filter (·.2 ≠ kind) ++ [(t, kind)]) }

/-- `pc.ontrack`: tracks of other transceivers than receiving ones are skipped. -/
def ontrack (t : Nat) : Screen :=
  match s.page.rtc.transceivers[t]? with
  | none => s
  | some tc =>
    if tc.direction ≠ .recvonly then s else
    match s.targetVideo tc.mid with
    | none => s
    | some id =>
      { s with tiles := s.tiles.map fun tile =>
          if tile.id = id then addToStream t tc.kind tile else tile }

/-- An event of the page changes the tiles of the state before it. -/
def step (s : Screen) : ScreenEvent → Screen
  | .page e => ⟨s.page.step e, s.tilesAfter e⟩
  | .track t => s.ontrack t

/-- The events of the page, without the tracks. -/
def pageEvent : ScreenEvent → Option Event
  | .page e => some e
  | .track _ => none

end Screen

/-! ## Messages -/

/-- What the handler of a message does. -/
def Message.events : Message → List Event
  | .error _ => [.error]
  | .joined _ _ _ _ _ _ existing => [.joined (existing.map Prod.fst)]
  | .renegotiate peerId _ => Event.renegotiateMessage peerId
  | .answer _ => [.answer]
  | .peerLeft peerId => [.peerLeft peerId]

/-- The events that come with messages. -/
def Event.fromServer : Event → Bool
  | .joined _ | .addRecvTransceiver _ _ | .renegotiate | .peerLeft _ | .answer | .error => true
  | _ => false

/-- The page handles the messages in their order, with steps of the browser in between. -/
def Screen.Handles (ms : List Message) (es : List ScreenEvent) : Prop :=
  (es.filterMap pageEvent).filter Event.fromServer = ms.flatMap Message.events

instance (ms : List Message) (es : List ScreenEvent) : Decidable (Screen.Handles ms es) :=
  inferInstanceAs (Decidable (_ = _))

end Namecon
