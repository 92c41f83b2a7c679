import Namecon.Sfu.Router

/-!
# RTCP translation (`sfu/Router.cpp`)

`onRtcpPacket` walks the packets of a compound and translates PLI, NACK and RR of a subscriber for
the publisher. The walk passes each handler the pointer to its packet, so a handler is given what is
left of the buffer from there (`p`) and the length `pktLen` the header claims. The three handlers
share `translate`: look the consumer up by its outgoing SSRC, then send the publisher what the
consumer's fields make of the packet.
-/

namespace Namecon.Router

/-- The packets of the compound `p`, each with the rest of the buffer it starts. The header takes
four bytes, so `fuel = p.length` reaches the end (`rtcpWalk_fuel`). -/
def rtcpWalk : Nat → Bytes → List (Bytes × Nat)
  | 0, _ => []
  | fuel + 1, p =>
    let pktLen := ((ntohsAt p 2).toNat + 1) * 4
    if p.length < 4 ∨ p.length < pktLen then []
    else (p, pktLen) :: rtcpWalk fuel (p.drop pktLen)

/-- `p[1] == pt && (p[0] & 0x1F) == 1`, with at least `len` bytes left. -/
def isFeedback (len : Nat) (pt : UInt8) (p : Bytes) : Bool :=
  len ≤ p.length && p.getD 1 0 == pt && p.getD 0 0 &&& 0x1F == 1

/-- `rtcpIsPLI`. -/
def rtcpIsPLI : Bytes → Bool := isFeedback 12 206

/-- `rtcpIsNACK`. -/
def rtcpIsNACK : Bytes → Bool := isFeedback 16 205

/-- `rtcpIsRR`: eight bytes are enough, so a report without a block passes. -/
def rtcpIsRR (p : Bytes) : Bool := 8 ≤ p.length && p.getD 1 0 == 201

/-- `Router::findConsumerByOutSsrc`. -/
def findConsumerByOutSsrc (r : Router) (outSsrc : UInt32) : Option ConsumerRef :=
  r.outSsrcToConsumer outSsrc

/-- What a handler has still to read of the consumer, in the order of its code, before the packet
for the publisher is built. -/
inductive Reading
  | built (plain : Bytes)
  | seqDelta (next : Int → Reading)
  | publisherSsrc (next : UInt32 → Reading)

/-- The packet when all is read of `k`. -/
def Reading.build (k : Consumer) : Reading → Bytes
  | built plain => plain
  | seqDelta next => (next k.seqDelta).build k
  | publisherSsrc next => (next k.publisherSsrc).build k

/-- A request of a subscriber: the outgoing SSRC it names, and what it becomes for the publisher. -/
structure Request where
  outSsrc : UInt32
  reading : Reading

/-- What is built where all is read from `k` at once. -/
def Request.build (q : Request) (k : Consumer) : Bytes := q.reading.build k

/-- The lookup and the forwarding shared by the three handlers; `i` counts the packets of the
compound. -/
def translate (r : Router) (srtp : SrtpOracle) (i : Nat) (q : Request) : List Datagram :=
  match r.findConsumerByOutSsrc q.outSsrc with
  | none => []
  | some c =>
    match (r.heap c).publisher with
    | none => []
    | some publisher => (r.peers publisher).sendRtcp srtp i (q.build (r.heap c))

/-- A PLI names the publisher's SSRC. -/
def pliReading : Reading := .publisherSsrc fun ssrc => .built (pliPacket ssrc)

/-- The sequence number of a NACK goes from the outgoing numbering back to the original one. -/
def nackReading (pid blp : UInt16) : Reading :=
  .seqDelta fun seqDelta => .publisherSsrc fun ssrc => .built
    ([0x81, 205] ++ htons 3 ++ htonl 0 ++ htonl ssrc ++ htons (pid - UInt16.ofInt seqDelta) ++
      htons blp)

/-- The SSRC of the first report block is replaced, if the copy of the report has one. -/
def rrReading (out : Bytes) : Reading :=
  if 12 ≤ out.length then .publisherSsrc fun ssrc => .built (withSsrc out ssrc) else .built out

/-- A PLI for the consumer of the media SSRC. -/
def pliRequest (p : Bytes) : Request := ⟨ntohlAt p 8, pliReading⟩

/-- The first entry of a NACK for the consumer of the media SSRC. -/
def nackRequest (p : Bytes) : Request := ⟨ntohlAt p 8, nackReading (ntohsAt p 12) (ntohsAt p 14)⟩

/-- The consumer is looked up by the sender SSRC. -/
def rrRequest (p : Bytes) (len : Nat) : Request := ⟨ntohlAt p 4, rrReading (p.take len)⟩

theorem pliRequest_build (p : Bytes) (k : Consumer) :
    (pliRequest p).build k = pliPacket k.publisherSsrc := rfl

theorem nackRequest_build (p : Bytes) (k : Consumer) : (nackRequest p).build k =
    [0x81, 205] ++ htons 3 ++ htonl 0 ++ htonl k.publisherSsrc ++
      htons (ntohsAt p 12 - UInt16.ofInt k.seqDelta) ++ htons (ntohsAt p 14) := rfl

theorem rrRequest_build (p : Bytes) (len : Nat) (k : Consumer) : (rrRequest p len).build k =
    if 12 ≤ (p.take len).length then withSsrc (p.take len) k.publisherSsrc else p.take len := by
  unfold Request.build rrRequest rrReading
  dsimp only
  split <;> rfl

/-- `Router::handlePLI`. -/
def handlePLI (r : Router) (srtp : SrtpOracle) (i : Nat) (p : Bytes) : List Datagram :=
  r.translate srtp i (pliRequest p)

/-- `Router::handleNACK`. -/
def handleNACK (r : Router) (srtp : SrtpOracle) (i : Nat) (p : Bytes) : List Datagram :=
  r.translate srtp i (nackRequest p)

/-- `Router::handleRR`. -/
def handleRR (r : Router) (srtp : SrtpOracle) (i : Nat) (p : Bytes) (len : Nat) : List Datagram :=
  if len < 8 then [] else r.translate srtp i (rrRequest p len)

/-- One round of the loop of `onRtcpPacket`; a sender report is dropped. -/
def handleRtcp (r : Router) (srtp : SrtpOracle) (i : Nat) (p : Bytes) (len : Nat) : List Datagram :=
  if rtcpIsPLI p then r.handlePLI srtp i p
  else if rtcpIsNACK p then r.handleNACK srtp i p
  else if rtcpIsRR p then r.handleRR srtp i p len
  else []

/-- `Router::onRtcpPacket`: what the sub-packets of a compound send, in their order. -/
def onRtcpPacket (r : Router) (srtp : SrtpOracle) (rtcp : Bytes) : List Datagram :=
  (rtcpWalk rtcp.length rtcp).zipIdx.flatMap fun x => r.handleRtcp srtp x.2 x.1.1 x.1.2

/-- The request of a packet of the compound, if a handler looks a consumer up for it. -/
def request (p : Bytes) (len : Nat) : Option Request :=
  if rtcpIsPLI p then some (pliRequest p)
  else if rtcpIsNACK p then some (nackRequest p)
  else if rtcpIsRR p then if len < 8 then none else some (rrRequest p len)
  else none

/-- The requests of a compound, each with the number of its packet. -/
def requests (rtcp : Bytes) : List (Nat × Request) :=
  (rtcpWalk rtcp.length rtcp).zipIdx.flatMap fun x =>
    ((request x.1.1 x.1.2).map (Prod.mk x.2)).toList

theorem handleRtcp_eq (r : Router) (srtp : SrtpOracle) (i : Nat) (p : Bytes) (len : Nat) :
    r.handleRtcp srtp i p len = (request p len).elim [] (r.translate srtp i) := by
  unfold handleRtcp request handleRR
  split
  · rfl
  · split
    · rfl
    · split
      · split <;> rfl
      · rfl

theorem onRtcpPacket_eq (r : Router) (srtp : SrtpOracle) (rtcp : Bytes) :
    r.onRtcpPacket srtp rtcp = (requests rtcp).flatMap fun x => r.translate srtp x.1 x.2 := by
  unfold onRtcpPacket requests
  rw [List.flatMap_assoc]
  refine List.flatMap_congr fun x _ => ?_
  rw [handleRtcp_eq]
  cases request x.1.1 x.1.2 with
  | none => rfl
  | some q => exact (List.append_nil _).symm

end Namecon.Router
