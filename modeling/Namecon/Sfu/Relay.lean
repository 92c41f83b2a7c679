import Namecon.Sfu.Run

/-!
# What the router is for

A `Relay` knows the subscriptions and how to reach each peer, and nothing else: no streams, no links
between streams and consumers, no rewriting state. A packet goes to every bound subscription to the
sender and the kind of the packet, under the SSRC of the subscription. It takes the operations of the
router (`RouterOp`), so that the two can be run side by side; `departed` are the peers that have been
removed.
-/

namespace Namecon

open Function (update)
open ListFacts (updateFirst)

/-- `subscriber` gets the stream of kind `isVideo` of `publisher` under the SSRC `ssrc`, once it has
a mid for it. -/
structure Subscription where
  id : Nat
  subscriber : PeerRef
  publisher : PeerRef
  isVideo : Bool
  ssrc : UInt32
  mid : String := ""
deriving DecidableEq, Repr

/-- The subscription with its mid. -/
def Subscription.withMid (mid : String) (s : Subscription) : Subscription := { s with mid }

/-- The abstract relay: subscriptions between named peers, where each peer is reached, and who has
left. -/
structure Relay where
  name : PeerRef → String
  link : PeerRef → Endpoint × Option SrtpContext := fun _ => ({}, none)
  subscriptions : List Subscription := []
  nextId : Nat := 0
  departed : List PeerRef := []

namespace Relay

/-- The relay of a server that starts, with the peer ids `ids`. -/
def start (ids : PeerRef → String) : Relay := { name := ids }

/-- `s` is a subscription of `subscriber` to the stream of kind `isVideo` of the peer named
`publisher`. -/
def isFor (a : Relay) (subscriber : PeerRef) (publisher : String) (isVideo : Bool)
    (s : Subscription) : Bool :=
  s.subscriber == subscriber && s.isVideo == isVideo && a.name s.publisher == publisher

/-- What a call does to the subscriptions; a packet changes nothing. -/
def step (a : Relay) : RouterOp → Relay
  | .addConsumer subscriber publisher isVideo d =>
    { a with
      subscriptions := a.subscriptions ++
        [{ id := a.nextId, subscriber, publisher, isVideo, ssrc := d.val }]
      nextId := a.nextId + 1 }
  | .removePeer peer =>
    { a with
      subscriptions := a.subscriptions.filter fun s => s.subscriber ≠ peer ∧ s.publisher ≠ peer
      departed := peer :: a.departed }
  | .bindConsumerByMid subscriber publisher isVideo mid =>
    { a with
      subscriptions := updateFirst (a.isFor subscriber publisher isVideo) (.withMid mid)
        a.subscriptions }
  | .onRtpPacket .. => a
  | .setTransport peer remoteEp _ srtp => { a with link := update a.link peer (remoteEp, srtp) }

/-- A bound subscription to the stream of kind `isVideo` of `publisher`. -/
def relays (publisher : PeerRef) (isVideo : Bool) (s : Subscription) : Bool :=
  s.publisher == publisher && s.isVideo == isVideo && s.mid != ""

/-- What a subscription gets of a packet: nothing while its subscriber has no SRTP. -/
def deliver (a : Relay) (srtp : SrtpOracle) (packet : Bytes) (s : Subscription) : Option Datagram :=
  (a.link s.subscriber).2.bind fun ctx =>
    (srtp.protect s.id ctx (withSsrc packet s.ssrc)).map fun data =>
      ⟨(a.link s.subscriber).1, .rtp, withSsrc packet s.ssrc, data⟩

/-- A packet goes to every subscription of its sender's kind, whatever stream came first. -/
def deliveries (a : Relay) : RouterOp → List Datagram
  | .onRtpPacket videoPTs srtp packet sender =>
    (RtpHeader.parse packet).elim [] fun hdr =>
      (a.subscriptions.filter (relays sender (hdr.payloadType ∈ videoPTs))).filterMap
        (a.deliver srtp packet)
  | _ => []

end Relay

namespace Router

/-- The RTP datagrams an operation of the router sends. -/
def media (r : Router) : RouterOp → List Datagram
  | .onRtpPacket videoPTs srtp packet sender =>
    (r.onRtpPacket videoPTs srtp packet sender).2.filter (·.channel = .rtp)
  | _ => []

/-- What an operation may assume of the peers: one that has been removed takes no further part, and a
packet has an SSRC other than 0, which is that of the sender's stream of its kind and of no other
stream of the sender. -/
def Orderly (x : Router × Relay) : RouterOp → Prop
  | .addConsumer subscriber publisher _ _ =>
    subscriber ∉ x.2.departed ∧ publisher ∉ x.2.departed
  | .bindConsumerByMid _ publisher _ _ => ∀ peer ∈ x.2.departed, x.2.name peer ≠ publisher
  | .onRtpPacket videoPTs _ packet sender => ∀ hdr ∈ RtpHeader.parse packet,
      sender ∉ x.2.departed ∧ hdr.ssrc ≠ 0 ∧ ∀ p ∈ (x.1.peers sender).producers,
        p.originalSsrc = hdr.ssrc ↔ p.isVideo = decide (hdr.payloadType ∈ videoPTs)
  | _ => True

instance (x : Router × Relay) (op : RouterOp) : Decidable (Orderly x op) :=
  match op with
  | .addConsumer .. => inferInstanceAs (Decidable (_ ∧ _))
  | .bindConsumerByMid .. => inferInstanceAs (Decidable (∀ peer ∈ x.2.departed, _))
  | .onRtpPacket _ _ packet _ => inferInstanceAs (Decidable (∀ hdr ∈ RtpHeader.parse packet, _))
  | .removePeer .. | .setTransport .. => .isTrue trivial

end Router

end Namecon
