import Namecon.Lib.Sections
import Namecon.Sfu.Rtcp
import Namecon.Sfu.Run

/-!
# The router, access by access (`sfu/Router.cpp`)

The functions of `Router` as programs of a thread (`RouterCall.prog`). Each access to an object that
threads share is a step, and so is each operation of a lock, but a test of a loop is one step, a
vector that a loop walks is looked at once, and `_udp->sendTo` is one step with the endpoint it
reads. Between its sections under `_mutex` a program goes on without the lock, as the forwarding
loop and the handlers of RTCP do.

An access to a consumer is defined while the consumer has not been destroyed (`consumers.clear()`
of `removePeer` destroys). A pointer is read again wherever the code does so, and to dereference it
is undefined when it is null by then. Peers and contexts belong to `PacketRouter`, which sets the
contexts and the endpoint of a peer without the lock (`setTransport`); that they live on is not part
of this.

A consumer that `addConsumer` has made gets its reference in the section: no other thread knows it
before. A section ends with a note of what it was asked and what it has found (`RouterEvent`); the
notes are no part of the code.
-/

namespace Namecon

open Function (update)
open ListFacts (updateFirst)
open Locks Locks.Prog

/-- `_mutex` and `_ssrcGenMutex` of `Router`, and `RouteTable::_mutex`. -/
inductive RouterLock
  | router
  | ssrcGen
  | table
deriving DecidableEq, Repr

/-- The objects of the router, what has been sent, and which consumers have been destroyed. -/
structure RouterMemory where
  router : Router
  sent : List Datagram := []
  destroyed : Finset ConsumerRef := ∅

/-- The consumer has not been destroyed. -/
def RouterMemory.alive (c : ConsumerRef) (s : RouterMemory) : Bool := c ∉ s.destroyed

/-- What a section under `_mutex` is asked. -/
inductive RouterQuery
  | addConsumer (subscriber publisher : PeerRef) (isVideo : Bool) (d : Router.SsrcDraw)
  | removePeer (peer : PeerRef)
  | bindConsumerByMid (subscriber : PeerRef) (publisherPeerId : String) (isVideo : Bool)
      (recvMid : String)
  | onRtpPacket (videoPTs : Finset UInt8) (srtp : SrtpOracle) (plainRtp : Bytes)
      (fromPeer : PeerRef)
  | findConsumerByOutSsrc (outSsrc : UInt32)
  | getAllBoundSsrcs (subscriber : PeerRef)
  | getAllVideoProducers

namespace RouterQuery

/-- What the section finds; of `addConsumer` the consumer it makes, for a packet the targets of the
forwarding loop. -/
abbrev Result : RouterQuery → Type
  | addConsumer .. => ConsumerRef
  | bindConsumerByMid .. => UInt32
  | removePeer _ => Unit
  | onRtpPacket .. => List ConsumerRef
  | findConsumerByOutSsrc _ => Option ConsumerRef
  | getAllBoundSsrcs _ => String → Option UInt32
  | getAllVideoProducers => List Producer

/-- The operation of the router that the section is, if it changes anything. -/
def op : RouterQuery → Option RouterOp
  | addConsumer subscriber publisher isVideo d =>
    some (.addConsumer subscriber publisher isVideo d)
  | removePeer peer => some (.removePeer peer)
  | bindConsumerByMid subscriber publisherPeerId isVideo recvMid =>
    some (.bindConsumerByMid subscriber publisherPeerId isVideo recvMid)
  | onRtpPacket videoPTs srtp plainRtp fromPeer =>
    some (.onRtpPacket videoPTs srtp plainRtp fromPeer)
  | findConsumerByOutSsrc _ | getAllBoundSsrcs _ | getAllVideoProducers => none

end RouterQuery

/-- `make_unique<Consumer>`, with the fields that are set at once. -/
def Router.allocate (r : Router) (k : Consumer) : Router :=
  { r with
    nextConsumer := r.nextConsumer + 1
    heap := update r.heap r.nextConsumer k }

/-- What the router answers when nobody else is there. -/
def Router.answer (r : Router) : (q : RouterQuery) → q.Result
  | .addConsumer .. => r.nextConsumer
  | .removePeer _ => ()
  | .bindConsumerByMid subscriber publisherPeerId isVideo recvMid =>
    (r.bindConsumerByMid subscriber publisherPeerId isVideo recvMid).2
  | .onRtpPacket videoPTs srtp plainRtp fromPeer =>
    (RtpHeader.parse plainRtp).elim [] fun hdr =>
      (r.linkTargets srtp fromPeer hdr.ssrc (hdr.payloadType ∈ videoPTs)).2.1
  | .findConsumerByOutSsrc outSsrc => r.findConsumerByOutSsrc outSsrc
  | .getAllBoundSsrcs subscriber => r.getAllBoundSsrcs subscriber
  | .getAllVideoProducers => r.getAllVideoProducers

/-- The router after the section. -/
def Router.after (r : Router) (q : RouterQuery) : Router := q.op.elim r r.step

/-- A section that has come to its end, with what it found. -/
abbrev RouterEvent := (q : RouterQuery) × q.Result

/-- The router as a sequential object: one call of a section after the other. -/
def Router.sequential : Spec Router RouterEvent where
  legal r e := e.2 = r.answer e.1
  apply r e := r.after e.1

/-- A call of the router, access by access. -/
abbrev RouterProg (α : Type) := Prog RouterLock RouterMemory RouterEvent α

namespace RouterProg

/-- Reads what outlives every call. -/
def look {α : Type} (f : Router → α) : RouterProg α := load fun s => f s.router

/-- A look that dereferences the consumer. -/
def lookAt {α : Type} (c : ConsumerRef) (f : Router → α) : RouterProg α :=
  loadIf (RouterMemory.alive c) fun s => f s.router

/-- Reads a field of a consumer. -/
def read {α : Type} (c : ConsumerRef) (f : Consumer → α) : RouterProg α :=
  lookAt c fun r => f (r.heap c)

/-- Writes what outlives every call. -/
def modify (f : Router → Router) : RouterProg Unit :=
  store fun s => { s with router := f s.router }

/-- Writes to a consumer; the run ends here where it has been destroyed. -/
def consumer (c : ConsumerRef) (f : Consumer → Consumer) : RouterProg Unit :=
  storeIf (RouterMemory.alive c) fun s => { s with router := s.router.modifyConsumer c f }

/-- Writes to a `Peer`. -/
def peer (p : PeerRef) (f : Peer → Peer) : RouterProg Unit := modify fun r => r.modifyPeer p f

/-- `_udp->sendTo`. -/
def sendTo (f : Router → List Datagram) : RouterProg Unit :=
  store fun s => { s with sent := s.sent ++ f s.router }

/-- A section under `_mutex`. -/
def locked {α : Type} (mode : Mode) (body : RouterProg α) (event : α → RouterEvent) :
    RouterProg α :=
  critical .router mode body fun a => some (event a)

/-! ## `addConsumer` -/

/-- `Router::registerPeer`. -/
def registerPeer (p : PeerRef) : RouterProg Unit := do
  let allPeers ← look (·.allPeers)
  if p ∈ allPeers then return else modify fun r => { r with allPeers := r.allPeers ++ [p] }

/-- A new consumer gets its reference. -/
def newConsumer (k : Consumer) : RouterProg ConsumerRef :=
  .act (fun _ => true) (fun s => { s with router := s.router.allocate k })
    fun s => ret s.router.nextConsumer

/-- The linking loop of `addConsumer`. -/
def linkNew (publisher : PeerRef) (raw : ConsumerRef) (isVideo : Bool) : RouterProg Unit := do
  let producers ← look fun r => (r.peers publisher).producers
  match producers.find? (Router.linksTo isVideo) with
  | none => pure ()
  | some p =>
    consumer raw fun k => { k with publisherSsrc := p.originalSsrc }
    peer publisher fun x => { x with
      producers := updateFirst (Router.linksTo isVideo) (Router.pushConsumer raw) x.producers }

/-- The critical section of `addConsumer`. -/
def addConsumerBody (subscriber publisher : PeerRef) (isVideo : Bool) (ssrc : UInt32) :
    RouterProg ConsumerRef := do
  let raw ← newConsumer { subscriber := some subscriber, publisher := some publisher, isVideo,
                          rewrittenSsrc := ssrc }
  registerPeer subscriber
  registerPeer publisher
  modify fun r => { r with outSsrcToConsumer := update r.outSsrcToConsumer ssrc (some raw) }
  linkNew publisher raw isVideo
  peer subscriber fun x => { x with consumers := x.consumers ++ [raw] }
  return raw

/-- The log line and the result read the new consumer after the section. -/
def addConsumer (subscriber publisher : PeerRef) (isVideo : Bool) (d : Router.SsrcDraw) :
    RouterProg UInt32 := do
  let ssrc ← withLock .ssrcGen .exclusive (pure (Router.allocateSsrc d))
  let raw ← locked .exclusive (addConsumerBody subscriber publisher isVideo ssrc) fun raw =>
    ⟨.addConsumer subscriber publisher isVideo d, raw⟩
  let _ ← read raw (·.rewrittenSsrc)
  read raw (·.rewrittenSsrc)

/-! ## `removePeer` -/

/-- `_outSsrcToConsumer.erase(c->rewrittenSsrc)`. -/
def eraseOut (c : ConsumerRef) : RouterProg Unit := do
  let ssrc ← read c (·.rewrittenSsrc)
  modify fun r => { r with outSsrcToConsumer := update r.outSsrcToConsumer ssrc none }

/-- ① for one consumer of one of the peer's producers. -/
def retire (c : ConsumerRef) : RouterProg Unit := do
  consumer c fun k => { k with publisher := none }
  consumer c fun k => { k with active := false }
  eraseOut c

/-- ② up to the reverse map: the consumer leaves the list of its stream. -/
def unlink (c : ConsumerRef) : RouterProg Unit := do
  match ← read c (·.publisher) with
  | none => pure ()
  | some publisher =>
    let publisherSsrc ← read c (·.publisherSsrc)
    let producers ← look fun r => (r.peers publisher).producers
    if (producers.find? (Router.unlinksFrom publisherSsrc)).isSome then
      peer publisher fun x => { x with
        producers :=
          updateFirst (Router.unlinksFrom publisherSsrc) (Router.eraseConsumer c) x.producers }
    else return

/-- ② for one consumer of the peer. -/
def unsubscribe (c : ConsumerRef) : RouterProg Unit := do
  unlink c
  eraseOut c

/-- `peer->consumers.clear()`. -/
def clearConsumers (p : PeerRef) : RouterProg Unit :=
  store fun s => { s with
    router := s.router.modifyPeer p fun x => { x with consumers := [] }
    destroyed := s.destroyed ∪ (s.router.peers p).consumers.toFinset }

/-- The critical section of `removePeer`; the routing table has a lock of its own. -/
def removePeerBody (p : PeerRef) : RouterProg Unit := do
  let producers ← look fun r => (r.peers p).producers
  forEach producers fun x => forEach x.consumers retire
  peer p fun x => { x with producers := [] }
  let consumers ← look fun r => (r.peers p).consumers
  forEach consumers unsubscribe
  clearConsumers p
  modify fun r => { r with allPeers := r.allPeers.filter (· ≠ p) }
  withLock .table .exclusive (modify fun r =>
    { r with table := fun ssrc => if r.table ssrc = some p then none else r.table ssrc })

/-- `Router::removePeer`. -/
def removePeer (p : PeerRef) : RouterProg Unit :=
  locked .exclusive (removePeerBody p) fun _ => ⟨.removePeer p, ()⟩

/-! ## `onRtpPacket` -/

/-- One round of the linking loop; `raw` is the new producer, the one with the SSRC. -/
def linkWaiting (fromPeer : PeerRef) (ssrc : UInt32) (isVideo : Bool) (c : ConsumerRef) :
    RouterProg Unit := do
  if ← read c fun k => decide (Router.Waits fromPeer isVideo k) then
    consumer c fun k => { k with publisherSsrc := ssrc }
    peer fromPeer fun x => { x with
      producers := updateFirst (·.originalSsrc == ssrc) (Router.pushConsumer c) x.producers }
  else return

/-- `peer->srtp->protectRtcp`, then `sendTo` with `peer->remoteEp`. -/
def sendRtcp (peer : PeerRef) (srtp : SrtpOracle) (i : Nat) (plain : Bytes) : RouterProg Unit := do
  match ← look fun r => (r.peers peer).srtp with
  | none => crash
  | some ctx =>
    match srtp.protectRtcp i ctx plain with
    | none => pure ()
    | some data => sendTo fun r => [⟨(r.peers peer).remoteEp, .rtcp, plain, data⟩]

/-- The keyframe request of `findOrCreateProducer`. -/
def requestPli (srtp : SrtpOracle) (fromPeer : PeerRef) (ssrc : UInt32) (isVideo : Bool) :
    RouterProg Unit := do
  if isVideo then
    if ← look fun r => (r.peers fromPeer).srtp.isSome then
      sendRtcp fromPeer srtp 0 (pliPacket ssrc)
    else pure ()
  else pure ()

/-- `findOrCreateProducer` where it creates; it gives the consumers of the new producer. -/
def createProducer (srtp : SrtpOracle) (fromPeer : PeerRef) (ssrc : UInt32) (isVideo : Bool) :
    RouterProg (List ConsumerRef) := do
  peer fromPeer fun x => { x with
    producers := x.producers ++ [{ publisher := fromPeer, originalSsrc := ssrc, isVideo }] }
  withLock .table .exclusive
    (modify fun r => { r with table := update r.table ssrc (some fromPeer) })
  requestPli srtp fromPeer ssrc isVideo
  let allPeers ← look (·.allPeers)
  forEach allPeers fun sub => do
    let consumers ← look fun r => (r.peers sub).consumers
    forEach consumers (linkWaiting fromPeer ssrc isVideo)
  look fun r => ((r.findProducer fromPeer ssrc).map (·.consumers)).getD []

/-- The section under the exclusive lock. -/
def createTargets (srtp : SrtpOracle) (fromPeer : PeerRef) (ssrc : UInt32) (isVideo : Bool) :
    RouterProg (List ConsumerRef) := do
  match ← look fun r => r.findProducer fromPeer ssrc with
  | some p => return p.consumers
  | none => createProducer srtp fromPeer ssrc isVideo

/-- The sections of `onRtpPacket`: its fast path, which answers when the producer is there, and its
slow path. -/
def linkTargets (videoPTs : Finset UInt8) (srtp : SrtpOracle) (plainRtp : Bytes)
    (fromPeer : PeerRef) (hdr : RtpHeader) : RouterProg (List ConsumerRef) := do
  let found ← critical .router .shared (look fun r => r.lookupTargets fromPeer hdr.ssrc)
    fun found => found.map fun targets => ⟨.onRtpPacket videoPTs srtp plainRtp fromPeer, targets⟩
  match found with
  | some targets => return targets
  | none =>
    locked .exclusive (createTargets srtp fromPeer hdr.ssrc (hdr.payloadType ∈ videoPTs))
      fun targets => ⟨.onRtpPacket videoPTs srtp plainRtp fromPeer, targets⟩

/-- Without a lock. -/
def rewriteRtpHeader (buf : Bytes) (c : ConsumerRef) : RouterProg Bytes :=
  match RtpHeader.parse buf with
  | none => return buf
  | some hdr => do
    let ssrc ← read c (·.rewrittenSsrc)
    let hdr := { hdr with ssrc }
    if ← read c (·.seqInitialized) then
      let lastSentSeq ← read c (·.lastSentSeq)
      let origSeqDelta := hdr.sequenceNumber - lastSentSeq
      let lastSentTimestamp ← read c (·.lastSentTimestamp)
      let origTsDelta := hdr.timestamp - lastSentTimestamp
      let lastSentSeq ← read c (·.lastSentSeq)
      let newSentSeq := lastSentSeq + origSeqDelta
      let lastSentTimestamp ← read c (·.lastSentTimestamp)
      let newSentTs := lastSentTimestamp + origTsDelta
      consumer c fun k => { k with
        seqDelta := (newSentSeq.toNat : Int) - hdr.sequenceNumber.toNat }
      consumer c fun k => { k with
        tsDelta := Router.toInt32 newSentTs - Router.toInt32 hdr.timestamp }
      consumer c fun k => { k with lastSentSeq := newSentSeq }
      consumer c fun k => { k with lastSentTimestamp := newSentTs }
      return { hdr with sequenceNumber := newSentSeq, timestamp := newSentTs }.writeFixedHeader buf
    else
      consumer c fun k => { k with lastSentSeq := hdr.sequenceNumber }
      consumer c fun k => { k with lastSentTimestamp := hdr.timestamp }
      consumer c fun k => { k with seqDelta := 0 }
      consumer c fun k => { k with tsDelta := 0 }
      consumer c fun k => { k with seqInitialized := true }
      return hdr.writeFixedHeader buf

/-- `packetsSent++; octetsSent += len`, each a read and a write. -/
def countSent (len : Nat) (c : ConsumerRef) : RouterProg Unit := do
  let packetsSent ← read c (·.packetsSent)
  consumer c fun k => { k with packetsSent := packetsSent + 1 }
  let octetsSent ← read c (·.octetsSent)
  consumer c fun k => { k with octetsSent := octetsSent + UInt32.ofNat len }

/-- `c->subscriber->srtp->protect`, then `sendTo` with `c->subscriber->remoteEp`. -/
def protectAndSend (srtp : SrtpOracle) (plainRtp out : Bytes) (c : ConsumerRef) :
    RouterProg Unit := do
  match ← read c (·.subscriber) with
  | none => crash
  | some subscriber =>
    match ← look fun r => (r.peers subscriber).srtp with
    | none => crash
    | some ctx =>
      match srtp.protect c ctx out with
      | none => pure ()
      | some data =>
        match ← read c (·.subscriber) with
        | none => crash
        | some subscriber =>
          sendTo fun r => [⟨(r.peers subscriber).remoteEp, .rtp, out, data⟩]
          countSent plainRtp.length c

/-- One round of the forwarding loop, without a lock. -/
def forwardOne (srtp : SrtpOracle) (plainRtp : Bytes) (c : ConsumerRef) : RouterProg Unit := do
  if ← read c (·.active) then
    if ← read c (·.subscriber.isSome) then
      match ← read c (·.subscriber) with
      | none => crash
      | some subscriber =>
        if ← look fun r => (r.peers subscriber).srtp.isSome then
          if ← read c (·.recvMid.isEmpty) then pure ()
          else
            let out ← rewriteRtpHeader plainRtp c
            protectAndSend srtp plainRtp out c
        else pure ()
    else pure ()
  else pure ()

/-- `Router::onRtpPacket`: the targets are collected under the lock, and sent to without it. -/
def onRtpPacket (videoPTs : Finset UInt8) (srtp : SrtpOracle) (plainRtp : Bytes)
    (fromPeer : PeerRef) : RouterProg Unit :=
  match RtpHeader.parse plainRtp with
  | none => return
  | some hdr => do
    let targets ← linkTargets videoPTs srtp plainRtp fromPeer hdr
    forEach targets (forwardOne srtp plainRtp)

/-! ## The other functions -/

/-- The critical section of `bindConsumerByMid`. -/
def bindConsumerByMidBody (subscriber : PeerRef) (publisherPeerId : String) (isVideo : Bool)
    (recvMid : String) : RouterProg UInt32 := do
  let consumers ← look fun r => (r.peers subscriber).consumers
  let binds c := lookAt c fun r => r.bindsTo publisherPeerId isVideo (r.heap c)
  match ← find binds consumers with
  | none => return 0
  | some c =>
    consumer c fun k => { k with recvMid }
    read c (·.rewrittenSsrc)

/-- `Router::bindConsumerByMid`. -/
def bindConsumerByMid (subscriber : PeerRef) (publisherPeerId : String) (isVideo : Bool)
    (recvMid : String) : RouterProg UInt32 :=
  locked .exclusive (bindConsumerByMidBody subscriber publisherPeerId isVideo recvMid) fun ssrc =>
    ⟨.bindConsumerByMid subscriber publisherPeerId isVideo recvMid, ssrc⟩

/-- The critical section of `getAllBoundSsrcs`. -/
def getAllBoundSsrcsBody (subscriber : PeerRef) : RouterProg (String → Option UInt32) := do
  let consumers ← look fun r => (r.peers subscriber).consumers
  fold (fun result c => do
    let recvMid ← read c (·.recvMid)
    if recvMid.isEmpty then return result
    else
      let ssrc ← read c (·.rewrittenSsrc)
      return update result recvMid (some ssrc)) consumers fun _ => none

/-- `Router::getAllBoundSsrcs`. -/
def getAllBoundSsrcs (subscriber : PeerRef) : RouterProg (String → Option UInt32) :=
  locked .shared (getAllBoundSsrcsBody subscriber) fun result =>
    ⟨.getAllBoundSsrcs subscriber, result⟩

/-- The critical section of `getAllVideoProducers`. -/
def getAllVideoProducersBody : RouterProg (List Producer) := do
  let allPeers ← look (·.allPeers)
  fold (fun out p => do
    let producers ← look fun r => (r.peers p).producers
    return out ++ producers.filter (·.isVideo)) allPeers []

/-- `Router::getAllVideoProducers`. -/
def getAllVideoProducers : RouterProg (List Producer) :=
  locked .shared getAllVideoProducersBody fun out => ⟨.getAllVideoProducers, out⟩

/-- `Router::findConsumerByOutSsrc`. -/
def findConsumerByOutSsrc (outSsrc : UInt32) : RouterProg (Option ConsumerRef) :=
  locked .shared (look fun r => r.findConsumerByOutSsrc outSsrc) fun found =>
    ⟨.findConsumerByOutSsrc outSsrc, found⟩

/-- What a handler reads of the consumer. -/
def collect (c : ConsumerRef) : Router.Reading → RouterProg Bytes
  | .built plain => return plain
  | .seqDelta next => do collect c (next (← read c (·.seqDelta)))
  | .publisherSsrc next => do collect c (next (← read c (·.publisherSsrc)))

/-- The lookup and the forwarding shared by the handlers of RTCP; `c->publisher` is read for each of
the two tests and for the copy. -/
def translate (srtp : SrtpOracle) (i : Nat) (q : Router.Request) : RouterProg Unit := do
  match ← findConsumerByOutSsrc q.outSsrc with
  | none => pure ()
  | some c =>
    if ← read c (·.publisher.isSome) then
      match ← read c (·.publisher) with
      | none => crash
      | some publisher =>
        if ← look fun r => (r.peers publisher).srtp.isSome then
          let publisher ← read c (·.publisher)
          let plain ← collect c q.reading
          match publisher with
          | none => crash
          | some publisher => sendRtcp publisher srtp i plain
        else pure ()
    else pure ()

/-- `Router::onRtcpPacket`: one sub-packet after the other. -/
def onRtcpPacket (srtp : SrtpOracle) (rtcp : Bytes) : RouterProg Unit :=
  forEach (Router.requests rtcp) fun x => translate srtp x.1 x.2

/-- What `PacketRouter` sets of a peer. -/
def setTransport (p : PeerRef) (remoteEp : Endpoint) (dtls : Option DtlsContext)
    (srtp : Option SrtpContext) : RouterProg Unit := do
  peer p fun x => { x with remoteEp }
  peer p fun x => { x with dtls }
  peer p fun x => { x with srtp }

end RouterProg

/-! ## What the lock guards -/

/-- Without what the forwarding loop writes. -/
def Consumer.link (k : Consumer) : Consumer :=
  { k with
    seqInitialized := false
    lastSentSeq := 0
    lastSentTimestamp := 0
    seqDelta := 0
    tsDelta := 0
    packetsSent := 0
    octetsSent := 0 }

/-- Without what `PacketRouter` writes. -/
def Peer.link (x : Peer) : Peer := { x with remoteEp := {}, dtls := none, srtp := none }

/-- What of the router is only written under `_mutex`. -/
def Router.links (r : Router) : Router :=
  { r with peers := fun p => (r.peers p).link, heap := fun c => (r.heap c).link }

/-! ## Calls -/

/-- The calls the threads make of the router, and what the transport writes into a `Peer`. -/
inductive RouterCall
  | addConsumer (subscriber publisher : PeerRef) (isVideo : Bool) (d : Router.SsrcDraw)
  | removePeer (peer : PeerRef)
  | bindConsumerByMid (subscriber : PeerRef) (publisherPeerId : String) (isVideo : Bool)
      (recvMid : String)
  | getAllBoundSsrcs (subscriber : PeerRef)
  | getAllVideoProducers
  | onRtpPacket (videoPTs : Finset UInt8) (srtp : SrtpOracle) (plainRtp : Bytes)
      (fromPeer : PeerRef)
  | onRtcpPacket (srtp : SrtpOracle) (rtcp : Bytes)
  | setTransport (peer : PeerRef) (remoteEp : Endpoint) (dtls : Option DtlsContext)
      (srtp : Option SrtpContext)

namespace RouterCall

/-- The accesses of a call. -/
def prog : RouterCall → RouterProg Unit
  | addConsumer subscriber publisher isVideo d => do
    let _ ← RouterProg.addConsumer subscriber publisher isVideo d
  | removePeer peer => RouterProg.removePeer peer
  | bindConsumerByMid subscriber publisherPeerId isVideo recvMid => do
    let _ ← RouterProg.bindConsumerByMid subscriber publisherPeerId isVideo recvMid
  | getAllBoundSsrcs subscriber => do let _ ← RouterProg.getAllBoundSsrcs subscriber
  | getAllVideoProducers => do let _ ← RouterProg.getAllVideoProducers
  | onRtpPacket videoPTs srtp plainRtp fromPeer =>
    RouterProg.onRtpPacket videoPTs srtp plainRtp fromPeer
  | onRtcpPacket srtp rtcp => RouterProg.onRtcpPacket srtp rtcp
  | setTransport peer remoteEp dtls srtp => RouterProg.setTransport peer remoteEp dtls srtp

/-- What the function of `Sfu/Router.lean` does and sends. -/
def perform (r : Router) : RouterCall → Router × List Datagram
  | addConsumer subscriber publisher isVideo d =>
    ((r.addConsumer subscriber publisher isVideo d).1, [])
  | removePeer peer => (r.removePeer peer, [])
  | bindConsumerByMid subscriber publisherPeerId isVideo recvMid =>
    ((r.bindConsumerByMid subscriber publisherPeerId isVideo recvMid).1, [])
  | getAllBoundSsrcs _ | getAllVideoProducers => (r, [])
  | onRtpPacket videoPTs srtp plainRtp fromPeer => r.onRtpPacket videoPTs srtp plainRtp fromPeer
  | onRtcpPacket srtp rtcp => (r, r.onRtcpPacket srtp rtcp)
  | setTransport peer remoteEp dtls srtp => (r.setTransport peer remoteEp dtls srtp, [])

/-- The consumers the call destroys. -/
def destroys (r : Router) : RouterCall → Finset ConsumerRef
  | removePeer peer => (r.peers peer).consumers.toFinset
  | addConsumer .. | bindConsumerByMid .. | getAllBoundSsrcs _ | getAllVideoProducers
  | onRtpPacket .. | onRtcpPacket .. | setTransport .. => ∅

/-- What the sections of the call are asked. -/
def queries : RouterCall → List RouterQuery
  | addConsumer subscriber publisher isVideo d => [.addConsumer subscriber publisher isVideo d]
  | removePeer peer => [.removePeer peer]
  | bindConsumerByMid subscriber publisherPeerId isVideo recvMid =>
    [.bindConsumerByMid subscriber publisherPeerId isVideo recvMid]
  | getAllBoundSsrcs subscriber => [.getAllBoundSsrcs subscriber]
  | getAllVideoProducers => [.getAllVideoProducers]
  | onRtpPacket videoPTs srtp plainRtp fromPeer =>
    if (RtpHeader.parse plainRtp).isSome then [.onRtpPacket videoPTs srtp plainRtp fromPeer] else []
  | onRtcpPacket _ rtcp => (Router.requests rtcp).map fun x => .findConsumerByOutSsrc x.2.outSsrc
  | setTransport .. => []

/-- Threads that make calls one after the other, of a router whose consumers `destroyed` have been
destroyed. -/
def pool {ι : Type} (r : Router) (destroyed : Finset ConsumerRef) (calls : ι → List RouterCall) :
    Pool ι RouterLock RouterMemory RouterEvent where
  shared := { router := r, destroyed }
  prog i := forEach (calls i) prog

end RouterCall

end Namecon
