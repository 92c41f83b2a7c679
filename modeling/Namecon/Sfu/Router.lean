import Mathlib.Data.Finset.Basic
import Namecon.Lib.ListFacts
import Namecon.Sfu.Peer

/-!
# The SFU router (`sfu/Router.cpp`, `sfu/RouteTable.cpp`)

`Router` is the state of `class Router` with the objects its pointers refer to: `peers` and `heap`
are the `Peer` and `Consumer` objects by reference, `nextConsumer` the next reference
`make_unique<Consumer>` gives out. A reference is never given out twice, and `heap` keeps the last
content of a destroyed consumer: reading or writing through a dangling pointer is undefined in C++,
so what the model does there means nothing, and the theorems about ownership say where it cannot
happen.

Every operation that takes `_mutex` is a function on `Router`; an operation that sends also returns
the datagrams in the order they are sent. Random draws and the outcomes of libsrtp are arguments.
-/

namespace Namecon

open Function (update)
open ListFacts (updateFirst)

/-- The router with the objects it reaches: `peers` and `heap` are the memory behind the
references. -/
structure Router where
  peers : PeerRef → Peer
  heap : ConsumerRef → Consumer := fun _ => {}
  nextConsumer : ConsumerRef := 0
  allPeers : List PeerRef := []
  outSsrcToConsumer : UInt32 → Option ConsumerRef := fun _ => none
  /-- `RouteTable::_ssrcToPeer`. -/
  table : UInt32 → Option PeerRef := fun _ => none

namespace Router

/-- Writes through a `Peer*`. -/
def modifyPeer (r : Router) (p : PeerRef) (f : Peer → Peer) : Router :=
  { r with peers := update r.peers p (f (r.peers p)) }

/-- Writes through a `Consumer*`. -/
def modifyConsumer (r : Router) (c : ConsumerRef) (f : Consumer → Consumer) : Router :=
  { r with heap := update r.heap c (f (r.heap c)) }

section
variable (r : Router) (p : PeerRef) (f : Peer → Peer) (c : ConsumerRef) (g : Consumer → Consumer)

@[simp] theorem modifyPeer_self : (r.modifyPeer p f).peers p = f (r.peers p) := by
  simp [modifyPeer]

theorem modifyPeer_ne {q : PeerRef} (h : q ≠ p) : (r.modifyPeer p f).peers q = r.peers q := by
  simp [modifyPeer, h]

theorem modifyPeer_modifyPeer (f' : Peer → Peer) :
    (r.modifyPeer p f).modifyPeer p f' = r.modifyPeer p fun x => f' (f x) := by
  simp [modifyPeer]

@[simp] theorem modifyPeer_heap : (r.modifyPeer p f).heap = r.heap := rfl
@[simp] theorem modifyPeer_next : (r.modifyPeer p f).nextConsumer = r.nextConsumer := rfl
@[simp] theorem modifyPeer_allPeers : (r.modifyPeer p f).allPeers = r.allPeers := rfl
@[simp] theorem modifyPeer_out : (r.modifyPeer p f).outSsrcToConsumer = r.outSsrcToConsumer := rfl

@[simp] theorem modifyConsumer_self : (r.modifyConsumer c g).heap c = g (r.heap c) := by
  simp [modifyConsumer]

theorem modifyConsumer_modifyConsumer (g' : Consumer → Consumer) :
    (r.modifyConsumer c g).modifyConsumer c g' = r.modifyConsumer c fun k => g' (g k) := by
  simp [modifyConsumer]

theorem modifyConsumer_ne {c' : ConsumerRef} (h : c' ≠ c) :
    (r.modifyConsumer c g).heap c' = r.heap c' := by
  simp [modifyConsumer, h]

@[simp] theorem modifyConsumer_peers : (r.modifyConsumer c g).peers = r.peers := rfl
@[simp] theorem modifyConsumer_next : (r.modifyConsumer c g).nextConsumer = r.nextConsumer := rfl
@[simp] theorem modifyConsumer_allPeers : (r.modifyConsumer c g).allPeers = r.allPeers := rfl
@[simp] theorem modifyConsumer_out :
    (r.modifyConsumer c g).outSsrcToConsumer = r.outSsrcToConsumer := rfl

end

/-- A draw of `uniform_int_distribution<uint32_t>(0x40000000, 0x7FFFFFFF)`. -/
structure SsrcDraw where
  val : UInt32
  low : 0x40000000 ≤ val
  high : val ≤ 0x7FFFFFFF

theorem SsrcDraw.bounds : (0x40000000 : UInt32) ≤ 0x7FFFFFFF := by decide

instance : Inhabited SsrcDraw := ⟨⟨0x40000000, UInt32.le_refl _, SsrcDraw.bounds⟩⟩

/-- No draw is 0, so the `do … while (ssrc == 0)` loop ends after the first. -/
def allocateSsrc (d : SsrcDraw) : UInt32 := d.val

/-- `Router::registerPeer`: `_allPeers` holds a peer once. -/
def registerPeer (r : Router) (p : PeerRef) : Router :=
  { r with allPeers := if p ∈ r.allPeers then r.allPeers else r.allPeers ++ [p] }

/-! ## `addConsumer` -/

/-- Whether the linking loop of `addConsumer` links a consumer of kind `isVideo` to `p`. -/
def linksTo (isVideo : Bool) (p : Producer) : Bool := p.isVideo == isVideo && p.originalSsrc != 0

/-- `p->consumers.push_back(c)`. -/
def pushConsumer (c : ConsumerRef) (p : Producer) : Producer :=
  { p with consumers := p.consumers ++ [c] }

/-- The linking loop of `addConsumer` for the new consumer `raw`; it stops at the first link. -/
def linkNew (r : Router) (publisher : PeerRef) (raw : ConsumerRef) (isVideo : Bool) : Router :=
  match (r.peers publisher).producers.find? (linksTo isVideo) with
  | none => r
  | some p => (r.modifyConsumer raw fun k => { k with publisherSsrc := p.originalSsrc }).modifyPeer
      publisher fun x => { x with
        producers := updateFirst (linksTo isVideo) (pushConsumer raw) x.producers }

/-- `Router::addConsumer`: the new consumer is linked to the first stream of its kind the publisher
has, or waits for one. -/
def addConsumer (r : Router) (subscriber publisher : PeerRef) (isVideo : Bool) (d : SsrcDraw) :
    Router × UInt32 :=
  let raw := r.nextConsumer
  let ssrc := allocateSsrc d
  let c : Consumer := { subscriber := some subscriber, publisher := some publisher, isVideo,
                        rewrittenSsrc := ssrc }
  let r := { r with nextConsumer := raw + 1, heap := update r.heap raw c }
  let r := (r.registerPeer subscriber).registerPeer publisher
  let r := { r with outSsrcToConsumer := update r.outSsrcToConsumer ssrc (some raw) }
  let r := r.linkNew publisher raw isVideo
  (r.modifyPeer subscriber fun x => { x with consumers := x.consumers ++ [raw] }, ssrc)

/-! ## `removePeer` -/

/-- ① for one consumer of one of the peer's producers. -/
def retire (r : Router) (c : ConsumerRef) : Router :=
  { r.modifyConsumer c fun k => { k with publisher := none, active := false } with
    outSsrcToConsumer := update r.outSsrcToConsumer (r.heap c).rewrittenSsrc none }

/-- Whether the unlinking loop of ② takes `p` for the producer of a consumer of `publisherSsrc`. -/
def unlinksFrom (publisherSsrc : UInt32) (p : Producer) : Bool :=
  p.originalSsrc == publisherSsrc && p.originalSsrc != 0

/-- `cs.erase(std::remove(cs.begin(), cs.end(), c), cs.end())`. -/
def eraseConsumer (c : ConsumerRef) (p : Producer) : Producer :=
  { p with consumers := p.consumers.filter (· ≠ c) }

/-- The unlinking loop of ② for one consumer of the peer; it stops at the first producer with the
SSRC of the consumer. -/
def unlink (r : Router) (c : ConsumerRef) : Router :=
  match (r.heap c).publisher with
  | none => r
  | some publisher => r.modifyPeer publisher fun x => { x with
      producers :=
        updateFirst (unlinksFrom (r.heap c).publisherSsrc) (eraseConsumer c) x.producers }

/-- ② for one consumer of the peer. -/
def unsubscribe (r : Router) (c : ConsumerRef) : Router :=
  { r.unlink c with
    outSsrcToConsumer := update r.outSsrcToConsumer (r.heap c).rewrittenSsrc none }

/-- `Router::removePeer`: ① the peer as publisher, ② the peer as subscriber, ③ the routing
table. -/
def removePeer (r : Router) (peer : PeerRef) : Router :=
  let r := ((r.peers peer).producers.flatMap (·.consumers)).foldl retire r
  let r := r.modifyPeer peer fun x => { x with producers := [] }
  let r := (r.peers peer).consumers.foldl unsubscribe r
  let r := r.modifyPeer peer fun x => { x with consumers := [] }
  { r with
    allPeers := r.allPeers.filter (· ≠ peer)
    table := fun ssrc => if r.table ssrc = some peer then none else r.table ssrc }

/-! ## `findOrCreateProducer` -/

/-- `Router::findProducer`. -/
def findProducer (r : Router) (fromPeer : PeerRef) (ssrc : UInt32) : Option Producer :=
  (r.peers fromPeer).producers.find? (·.originalSsrc == ssrc)

/-- Whether `k` waits for the first packet of its `(publisher, kind)`. -/
def Waits (fromPeer : PeerRef) (isVideo : Bool) (k : Consumer) : Prop :=
  k.publisher = some fromPeer ∧ k.isVideo = isVideo ∧ k.publisherSsrc = 0

instance (fromPeer : PeerRef) (isVideo : Bool) (k : Consumer) :
    Decidable (Waits fromPeer isVideo k) := inferInstanceAs (Decidable (_ ∧ _ ∧ _))

/-- The linking loop over the consumers `cs`; it returns what it appends to the new producer. -/
def linkWaiting (fromPeer : PeerRef) (ssrc : UInt32) (isVideo : Bool) :
    List ConsumerRef → Router → Router × List ConsumerRef
  | [], r => (r, [])
  | c :: cs, r =>
    if Waits fromPeer isVideo (r.heap c) then
      let rest := linkWaiting fromPeer ssrc isVideo cs
        (r.modifyConsumer c fun k => { k with publisherSsrc := ssrc })
      (rest.1, c :: rest.2)
    else linkWaiting fromPeer ssrc isVideo cs r

/-- The consumers of all registered peers, in the order the linking loop visits them. -/
def allConsumers (r : Router) : List ConsumerRef :=
  r.allPeers.flatMap fun sub => (r.peers sub).consumers

/-- `findOrCreateProducer` where no producer has the SSRC: the new one, and the PLI that asks a
video publisher for a key frame. The loop only appends to the new producer's list, so the producer
is pushed with the list the loop builds. -/
def createProducer (r : Router) (srtp : SrtpOracle) (fromPeer : PeerRef) (ssrc : UInt32)
    (isVideo : Bool) : Router × Producer × List Datagram :=
  let pli := if isVideo then (r.peers fromPeer).sendRtcp srtp 0 (pliPacket ssrc) else []
  let linked := linkWaiting fromPeer ssrc isVideo r.allConsumers
    { r with table := update r.table ssrc (some fromPeer) }
  let p : Producer :=
    { publisher := fromPeer, originalSsrc := ssrc, isVideo, consumers := linked.2 }
  (linked.1.modifyPeer fromPeer fun x => { x with producers := x.producers ++ [p] }, p, pli)

/-- The stream of an incoming packet; a new one of video asks for a key frame. -/
def findOrCreateProducer (r : Router) (srtp : SrtpOracle) (fromPeer : PeerRef) (ssrc : UInt32)
    (isVideo : Bool) : Router × Producer × List Datagram :=
  match r.findProducer fromPeer ssrc with
  | some p => (r, p, [])
  | none => r.createProducer srtp fromPeer ssrc isVideo

/-! ## `onRtpPacket` -/

/-- `static_cast<int32_t>` as the number it yields. -/
def toInt32 (v : UInt32) : Int := v.toBitVec.toInt

/-- The buffer after the call, and the consumer with its rewriting state after the call. -/
def rewriteRtpHeader (buf : Bytes) (c : Consumer) : Bytes × Consumer :=
  match RtpHeader.parse buf with
  | none => (buf, c)
  | some hdr =>
    let hdr := { hdr with ssrc := c.rewrittenSsrc }
    if c.seqInitialized then
      let origSeqDelta := hdr.sequenceNumber - c.lastSentSeq
      let origTsDelta := hdr.timestamp - c.lastSentTimestamp
      let newSentSeq := c.lastSentSeq + origSeqDelta
      let newSentTs := c.lastSentTimestamp + origTsDelta
      (({ hdr with sequenceNumber := newSentSeq, timestamp := newSentTs }).writeFixedHeader buf,
        { c with
          seqDelta := (newSentSeq.toNat : Int) - hdr.sequenceNumber.toNat
          tsDelta := toInt32 newSentTs - toInt32 hdr.timestamp
          lastSentSeq := newSentSeq
          lastSentTimestamp := newSentTs })
    else
      (hdr.writeFixedHeader buf,
        { c with
          lastSentSeq := hdr.sequenceNumber
          lastSentTimestamp := hdr.timestamp
          seqDelta := 0
          tsDelta := 0
          seqInitialized := true })

/-- The section under the shared lock: the snapshot of the producer's consumers, if there is one. -/
def lookupTargets (r : Router) (fromPeer : PeerRef) (ssrc : UInt32) : Option (List ConsumerRef) :=
  (r.findProducer fromPeer ssrc).map (·.consumers)

/-- The section under the exclusive lock, which looks again before it creates the producer. -/
def createTargets (r : Router) (srtp : SrtpOracle) (fromPeer : PeerRef) (ssrc : UInt32)
    (isVideo : Bool) : Router × List ConsumerRef × List Datagram :=
  match r.findProducer fromPeer ssrc with
  | some p => (r, p.consumers, [])
  | none =>
    let made := r.findOrCreateProducer srtp fromPeer ssrc isVideo
    (made.1, made.2.1.consumers, made.2.2)

/-- `onRtpPacket` up to the forwarding loop. -/
def linkTargets (r : Router) (srtp : SrtpOracle) (fromPeer : PeerRef) (ssrc : UInt32)
    (isVideo : Bool) : Router × List ConsumerRef × List Datagram :=
  match r.lookupTargets fromPeer ssrc with
  | some targets => (r, targets, [])
  | none => r.createTargets srtp fromPeer ssrc isVideo

/-- `packetsSent++; octetsSent += len`. -/
def countSent (len : Nat) (k : Consumer) : Consumer :=
  { k with packetsSent := k.packetsSent + 1, octetsSent := k.octetsSent + UInt32.ofNat len }

/-- One round of the forwarding loop. -/
def forwardOne (r : Router) (srtp : SrtpOracle) (plainRtp : Bytes) (c : ConsumerRef) :
    Router × List Datagram :=
  let k := r.heap c
  if !k.active then (r, []) else
  match k.subscriber with
  | none => (r, [])
  | some subscriber =>
    match (r.peers subscriber).srtp with
    | none => (r, [])
    | some ctx =>
      if k.recvMid.isEmpty then (r, []) else
      let out := rewriteRtpHeader plainRtp k
      let r := r.modifyConsumer c fun _ => out.2
      match srtp.protect c ctx out.1 with
      | none => (r, [])
      | some data => (r.modifyConsumer c (countSent plainRtp.length),
          [⟨(r.peers subscriber).remoteEp, .rtp, out.1, data⟩])

/-- The sending loop of `onRtpPacket`; a consumer that fails does not stop it. -/
def forward (srtp : SrtpOracle) (plainRtp : Bytes) :
    List ConsumerRef → Router → Router × List Datagram
  | [], r => (r, [])
  | c :: cs, r =>
    let one := r.forwardOne srtp plainRtp c
    let rest := forward srtp plainRtp cs one.1
    (rest.1, one.2 ++ rest.2)

/-- `videoPTs` is the content of `SdpParser::videoPTs` at the time of the call. -/
def onRtpPacket (r : Router) (videoPTs : Finset UInt8) (srtp : SrtpOracle) (plainRtp : Bytes)
    (fromPeer : PeerRef) : Router × List Datagram :=
  match RtpHeader.parse plainRtp with
  | none => (r, [])
  | some hdr =>
    let linked := r.linkTargets srtp fromPeer hdr.ssrc (hdr.payloadType ∈ videoPTs)
    let sent := forward srtp plainRtp linked.2.1 linked.1
    (sent.1, linked.2.2 ++ sent.2)

/-! ## `bindConsumerByMid` and its readers -/

/-- Whether `bindConsumerByMid` takes `k` for the stream of kind `isVideo` of `publisherPeerId`. -/
def bindsTo (r : Router) (publisherPeerId : String) (isVideo : Bool) (k : Consumer) : Bool :=
  k.isVideo == isVideo &&
    match k.publisher with
    | none => false
    | some publisher => (r.peers publisher).peerId == publisherPeerId

/-- `Router::bindConsumerByMid`: 0 where the subscriber has no such consumer. -/
def bindConsumerByMid (r : Router) (subscriber : PeerRef) (publisherPeerId : String)
    (isVideo : Bool) (recvMid : String) : Router × UInt32 :=
  match (r.peers subscriber).consumers.find? fun c =>
      r.bindsTo publisherPeerId isVideo (r.heap c) with
  | none => (r, 0)
  | some c => (r.modifyConsumer c fun k => { k with recvMid }, (r.heap c).rewrittenSsrc)

/-- The `std::map` of the bound mids, filled in the order of the vector: the last one wins. -/
def getAllBoundSsrcs (r : Router) (subscriber : PeerRef) : String → Option UInt32 :=
  (r.peers subscriber).consumers.foldl
    (fun result c => if (r.heap c).recvMid.isEmpty then result
      else update result (r.heap c).recvMid (some (r.heap c).rewrittenSsrc)) fun _ => none

/-- `Router::getAllVideoProducers`. -/
def getAllVideoProducers (r : Router) : List Producer :=
  r.allPeers.flatMap fun p => (r.peers p).producers.filter (·.isVideo)

end Router

end Namecon
