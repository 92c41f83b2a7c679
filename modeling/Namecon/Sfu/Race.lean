import Namecon.Lib.Runs
import Namecon.Sfu.Rtcp

/-!
# A packet and departures on other threads

`MediaServer::run` handles datagrams and gRPC calls on different threads. `Race` is one
`onRtpPacket` or `onRtcpPacket` call between `removePeer` calls. A section under `_mutex` is one
step; outside of it the call works with the `Consumer*` it has copied, and each place where it
dereferences one is a step of its own (`Pc`). Only `rewriteRtpHeader` is one step with all it reads
and writes: the loop goes on to dereference the consumer after it in any case.

A pointer that has been tested is read again where the code does so. If it is null by then, the
process is at its end (`Pc.crashed`).
-/

namespace Namecon

/-- The call of the packet thread. -/
inductive Entry
  | onRtpPacket
  | onRtcpPacket

/-- The function called, and what it is given. -/
structure Call where
  entry : Entry
  videoPTs : Finset UInt8 := ∅
  srtp : SrtpOracle
  packet : Bytes
  fromPeer : PeerRef

/-- The next step of the call. `c` is the consumer at hand, `rest` what is left of the snapshot or
of the compound packet. -/
inductive Pc
  /-- The section under the shared lock. -/
  | lookup (hdr : RtpHeader)
  /-- The section under the exclusive lock. -/
  | create (hdr : RtpHeader)
  | active (c : ConsumerRef) (rest : List ConsumerRef)
  /-- `!c->subscriber`. -/
  | subscriber (c : ConsumerRef) (rest : List ConsumerRef)
  /-- `!c->subscriber->srtp`. -/
  | subscriberSrtp (c : ConsumerRef) (rest : List ConsumerRef)
  | recvMid (c : ConsumerRef) (rest : List ConsumerRef)
  | rewrite (c : ConsumerRef) (rest : List ConsumerRef)
  /-- `c->subscriber->srtp->protect`. -/
  | protect (c : ConsumerRef) (rest : List ConsumerRef) (out : Bytes)
  /-- `c->subscriber->remoteEp`. -/
  | send (c : ConsumerRef) (rest : List ConsumerRef) (out data : Bytes)
  | packetsSent (c : ConsumerRef) (rest : List ConsumerRef)
  | octetsSent (c : ConsumerRef) (rest : List ConsumerRef)
  /-- `findConsumerByOutSsrc`, under the shared lock. -/
  | find (q : Nat × Router.Request) (rest : List (Nat × Router.Request))
  /-- `!c->publisher`. -/
  | publisher (c : ConsumerRef) (q : Nat × Router.Request) (rest : List (Nat × Router.Request))
  /-- `!c->publisher->srtp`. -/
  | publisherSrtp (c : ConsumerRef) (q : Nat × Router.Request)
      (rest : List (Nat × Router.Request))
  /-- `Peer* publisher = c->publisher`. -/
  | copy (c : ConsumerRef) (q : Nat × Router.Request) (rest : List (Nat × Router.Request))
  /-- What is left to read of `c`, then `publisher->srtp->protectRtcp` and `sendTo`. -/
  | build (c : ConsumerRef) (publisher : Option PeerRef) (i : Nat) (reading : Router.Reading)
      (rest : List (Nat × Router.Request))
  | done
  /-- A null pointer was dereferenced. -/
  | crashed

namespace Pc

/-- The next round of the forwarding loop. -/
def visit : List ConsumerRef → Pc
  | [] => .done
  | c :: rest => .active c rest

/-- The next packet of a compound. -/
def next : List (Nat × Router.Request) → Pc
  | [] => .done
  | q :: rest => .find q rest

/-- The consumer the step dereferences. -/
def uses : Pc → Option ConsumerRef
  | active c _ | subscriber c _ | subscriberSrtp c _ | recvMid c _ | rewrite c _ | protect c _ _
  | send c _ _ _ | packetsSent c _ | octetsSent c _ => some c
  | publisher c _ _ | publisherSrtp c _ _ | copy c _ _ => some c
  | build c _ _ (.seqDelta _) _ | build c _ _ (.publisherSsrc _) _ => some c
  | build _ _ _ (.built _) _ | lookup _ | create _ | find _ _ | done | crashed => none

/-- The consumers the call still has pointers to and has not finished with. -/
def held : Pc → List ConsumerRef
  | active c rest | subscriber c rest | subscriberSrtp c rest | recvMid c rest | rewrite c rest
  | protect c rest _ | send c rest _ _ | packetsSent c rest | octetsSent c rest => c :: rest
  | publisher c _ _ | publisherSrtp c _ _ | copy c _ _ => [c]
  | build c _ _ (.seqDelta _) _ | build c _ _ (.publisherSsrc _) _ => [c]
  | build _ _ _ (.built _) _ | lookup _ | create _ | find _ _ | done | crashed => []

/-- The call has returned, or the process has crashed in it. -/
def Over (pc : Pc) : Prop := pc = .done ∨ pc = .crashed

end Pc

/-- One step of the call: the router after it, the next step, and what was sent. -/
def Call.step (k : Call) (r : Router) : Pc → Router × Pc × List Datagram
  | .lookup hdr =>
    match r.lookupTargets k.fromPeer hdr.ssrc with
    | some targets => (r, .visit targets, [])
    | none => (r, .create hdr, [])
  | .create hdr =>
    let made := r.createTargets k.srtp k.fromPeer hdr.ssrc (hdr.payloadType ∈ k.videoPTs)
    (made.1, .visit made.2.1, made.2.2)
  | .active c rest => (r, if (r.heap c).active then .subscriber c rest else .visit rest, [])
  | .subscriber c rest =>
    (r, if (r.heap c).subscriber.isSome then .subscriberSrtp c rest else .visit rest, [])
  | .subscriberSrtp c rest =>
    match (r.heap c).subscriber with
    | none => (r, .crashed, [])
    | some subscriber =>
      (r, if (r.peers subscriber).srtp.isSome then .recvMid c rest else .visit rest, [])
  | .recvMid c rest =>
    (r, if (r.heap c).recvMid.isEmpty then .visit rest else .rewrite c rest, [])
  | .rewrite c rest =>
    let out := Router.rewriteRtpHeader k.packet (r.heap c)
    (r.modifyConsumer c fun _ => out.2, .protect c rest out.1, [])
  | .protect c rest out =>
    match (r.heap c).subscriber.bind fun subscriber => (r.peers subscriber).srtp with
    | none => (r, .crashed, [])
    | some ctx =>
      match k.srtp.protect c ctx out with
      | none => (r, .visit rest, [])
      | some data => (r, .send c rest out data, [])
  | .send c rest out data =>
    match (r.heap c).subscriber with
    | none => (r, .crashed, [])
    | some subscriber =>
      (r, .packetsSent c rest, [⟨(r.peers subscriber).remoteEp, .rtp, out, data⟩])
  | .packetsSent c rest =>
    (r.modifyConsumer c fun x => { x with packetsSent := x.packetsSent + 1 }, .octetsSent c rest,
      [])
  | .octetsSent c rest =>
    (r.modifyConsumer c fun x =>
      { x with octetsSent := x.octetsSent + UInt32.ofNat k.packet.length }, .visit rest, [])
  | .find q rest =>
    match r.findConsumerByOutSsrc q.2.outSsrc with
    | none => (r, .next rest, [])
    | some c => (r, .publisher c q rest, [])
  | .publisher c q rest =>
    (r, if (r.heap c).publisher.isSome then .publisherSrtp c q rest else .next rest, [])
  | .publisherSrtp c q rest =>
    match (r.heap c).publisher with
    | none => (r, .crashed, [])
    | some publisher =>
      (r, if (r.peers publisher).srtp.isSome then .copy c q rest else .next rest, [])
  | .copy c q rest => (r, .build c (r.heap c).publisher q.1 q.2.reading rest, [])
  | .build c publisher i (.seqDelta read) rest =>
    (r, .build c publisher i (read (r.heap c).seqDelta) rest, [])
  | .build c publisher i (.publisherSsrc read) rest =>
    (r, .build c publisher i (read (r.heap c).publisherSsrc) rest, [])
  | .build _ publisher i (.built plain) rest =>
    match publisher with
    | none => (r, .crashed, [])
    | some publisher =>
      if (r.peers publisher).srtp.isNone then (r, .crashed, [])
      else (r, .next rest, (r.peers publisher).sendRtcp k.srtp i plain)
  | .done => (r, .done, [])
  | .crashed => (r, .crashed, [])

/-- The first step: neither function looks at a consumer before it has parsed the packet. -/
def Call.start (k : Call) : Pc :=
  match k.entry with
  | .onRtpPacket =>
    match RtpHeader.parse k.packet with
    | none => .done
    | some hdr => .lookup hdr
  | .onRtcpPacket => .next (Router.requests k.packet)

/-- The call and the router, with the datagrams the call has sent. -/
structure Race where
  router : Router
  pc : Pc
  sent : List Datagram := []

/-- The call begins. -/
def Race.start (k : Call) (r : Router) : Race := { router := r, pc := k.start }

/-- The next access of the packet thread's call, or a whole `removePeer` of the RPC thread. -/
inductive RaceOp
  | call
  | removePeer (peer : PeerRef)

/-- `removePeer` runs under `_mutex`, so it is one step where the call holds no lock. -/
def Race.step (k : Call) (s : Race) : RaceOp → Race
  | .call =>
    let out := k.step s.router s.pc
    ⟨out.1, out.2.1, s.sent ++ out.2.2⟩
  | .removePeer peer => { s with router := s.router.removePeer peer }

end Namecon
