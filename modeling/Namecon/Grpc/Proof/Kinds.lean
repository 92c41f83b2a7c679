import Namecon.Grpc.Process
import Namecon.Sfu.Proof.Forward

/-!
# The kind of a packet

`onRtpPacket` takes a packet for video when its payload type is in the set of the process. The set
is the union of what the offers of all peers have named (`mem_videoPTs_iff`), so the kind is that of
the publisher's own offers only while the others agree with them (`kind_kept_iff`).
-/

namespace Namecon

open Runs (exec)

namespace SdpParser

open Lines

/-! ## What an offer lists -/

/-- The words of a text. -/
def words : Nat → Text → List Text
  | 0, _ => []
  | fuel + 1, t =>
    match readToken isSpace t with
    | none => []
    | some (word, t) => word :: words fuel t

/-- The m= lines of an offer, whether the parser gets to see them or not. -/
def mediaLines (sdp : Text) : List (Text × Text) :=
  (lines '\n' sdp).filterMap fun raw =>
    (trimLine raw).bind fun line =>
      if starts "m=" line then some (readMedia (line.drop 2)) else none

/-- The m= line names the payload type. -/
def Lists (m : Text × Text) (pt : UInt8) : Prop := decimal pt.toNat ∈ words m.2.length m.2

instance (m : Text × Text) (pt : UInt8) : Decidable (Lists m pt) :=
  inferInstanceAs (Decidable (_ ∈ _))

/-- The offers list the payload type, and under m= lines of the one kind only. -/
def ListsOnly (kind : String) (sdps : List String) (pt : UInt8) : Prop :=
  (∃ m ∈ sdps.flatMap fun sdp => mediaLines sdp.toList, Lists m pt) ∧
    ∀ m ∈ sdps.flatMap fun sdp => mediaLines sdp.toList, Lists m pt → m.1 = kind.toList

instance (kind : String) (sdps : List String) (pt : UInt8) : Decidable (ListsOnly kind sdps pt) :=
  inferInstanceAs (Decidable (_ ∧ _))

/-- One of the offers has a number that is `pt` in eight bits on a video line that is read. -/
def ReadsVideo (sdps : List String) (pt : UInt8) : Prop :=
  ∃ m ∈ sdps.flatMap fun sdp => mediaOf sdp.toList,
    m.1 = "video".toList ∧ ∃ n ∈ readInts m.2.length m.2, toUInt8 n = pt

instance (sdps : List String) (pt : UInt8) : Decidable (ReadsVideo sdps pt) :=
  inferInstanceAs (Decidable (∃ m ∈ _, _))

end SdpParser

namespace Router

/-- The kind that `onRtpPacket` gives a packet, if it has a header. -/
def packetKind (videoPTs : Finset UInt8) (plainRtp : Bytes) : Option Bool :=
  (RtpHeader.parse plainRtp).map fun hdr => hdr.payloadType ∈ videoPTs

/-- The producer that `onRtpPacket` makes for a packet has this kind. -/
theorem onRtpPacket_packetKind {r : Router} (hw : r.Wf) (V : Finset UInt8) (o : SrtpOracle)
    {buf : Bytes} {P : PeerRef} {hdr : RtpHeader} (hp : RtpHeader.parse buf = some hdr)
    (hnew : r.findProducer P hdr.ssrc = none) :
    ((r.onRtpPacket V o buf P).1.findProducer P hdr.ssrc).map (·.isVideo) = packetKind V buf := by
  have hlinked : r.linkTargets o P hdr.ssrc (hdr.payloadType ∈ V) =
      ((r.createProducer o P hdr.ssrc (hdr.payloadType ∈ V)).1,
        (r.createProducer o P hdr.ssrc (hdr.payloadType ∈ V)).2.1.consumers,
        (r.createProducer o P hdr.ssrc (hdr.payloadType ∈ V)).2.2) := by
    simp only [linkTargets, lookupTargets, createTargets, findOrCreateProducer, hnew,
      Option.map_none]
  have hfind : ((r.peers P).producers.find? fun p => p.originalSsrc == hdr.ssrc) = none := hnew
  rw [onRtpPacket_parse hp, hlinked]
  unfold findProducer packetKind
  dsimp only
  rw [forward_peers hp, createProducer_producers hw, if_pos rfl, List.find?_append, hfind, hp]
  simp [newProducer]

end Router

namespace ProcessOp

/-- The peer that makes an offer, and the offer. -/
def offer : ProcessOp → Option (String × String)
  | sendOffer _ peerId sdp _ => some (peerId, sdp)
  | _ => none

end ProcessOp

/-- The offers of all peers. -/
def allOffers (ops : List ProcessOp) : List String := (ops.filterMap ProcessOp.offer).map (·.2)

/-- The offers of one peer. -/
def offersOf (peerId : String) (ops : List ProcessOp) : List String :=
  ((ops.filterMap ProcessOp.offer).filter (·.1 = peerId)).map (·.2)

namespace MediaProcess

open SdpParser Router

variable (m : MediaProcess) {pt : UInt8}

theorem mem_videoPTs_step (op : ProcessOp) : pt ∈ (m.step op).statics.videoPTs ↔
    pt ∈ m.statics.videoPTs ∨ ReadsVideo (op.offer.toList.map (·.2)) pt := by
  have hnone : ¬ ReadsVideo [] pt := fun ⟨_, hm, _⟩ => List.not_mem_nil hm
  cases op with
  | sendOffer info peerId sdp recvMids =>
    rw [step, (m.gains_sendOffer info peerId sdp recvMids).videoPTs, Finset.mem_union,
      mem_payloadTypesOf]
    simp only [ReadsVideo, ProcessOp.offer, Option.toList_some, List.map_cons, List.map_nil,
      List.flatMap_singleton]
  | addPeer | addConsumer | removePeer | packet => exact (or_iff_left hnone).symm

theorem readsVideo_append (sdps sdps' : List String) :
    ReadsVideo (sdps ++ sdps') pt ↔ ReadsVideo sdps pt ∨ ReadsVideo sdps' pt := by
  simp only [ReadsVideo, List.flatMap_append, List.mem_append, or_and_right, exists_or]

/-- The video types of the process are those that the offers of all peers have named. -/
theorem mem_videoPTs_iff (ops : List ProcessOp) : pt ∈ (exec step m ops).statics.videoPTs ↔
    pt ∈ m.statics.videoPTs ∨ ReadsVideo (allOffers ops) pt := by
  induction ops generalizing m with
  | nil => exact (or_iff_left fun ⟨_, hm, _⟩ => List.not_mem_nil hm).symm
  | cons op ops ih =>
    have hsplit : allOffers (op :: ops) = op.offer.toList.map (·.2) ++ allOffers ops := by
      unfold allOffers
      cases h : op.offer <;> simp [h]
    rw [Runs.exec_cons, ih, mem_videoPTs_step, hsplit, readsVideo_append, or_assoc]

/-- A packet of a peer that has made the offers `sdps` has the kind under which they list its
payload type, if it is one kind. -/
def KindKept (m : MediaProcess) (sdps : List String) (plainRtp : Bytes) : Prop :=
  ∀ hdr, RtpHeader.parse plainRtp = some hdr →
    (ListsOnly "video" sdps hdr.payloadType →
      packetKind m.server.videoPTs plainRtp = some true) ∧
    (ListsOnly "audio" sdps hdr.payloadType →
      packetKind m.server.videoPTs plainRtp = some false)

/-- **The kind of a packet.** -/
theorem kind_kept_iff (ops : List ProcessOp) (peerId : String) (plainRtp : Bytes) :
    KindKept (exec step start ops) (offersOf peerId ops) plainRtp ↔
      ∀ hdr, RtpHeader.parse plainRtp = some hdr →
        (ListsOnly "video" (offersOf peerId ops) hdr.payloadType →
          ReadsVideo (allOffers ops) hdr.payloadType) ∧
        (ListsOnly "audio" (offersOf peerId ops) hdr.payloadType →
          ¬ ReadsVideo (allOffers ops) hdr.payloadType) := by
  have hmem : ∀ pt, pt ∈ (exec step start ops).server.videoPTs ↔ ReadsVideo (allOffers ops) pt := by
    intro pt
    rw [← (exec step start ops).shared, mem_videoPTs_iff]
    exact or_iff_right (Finset.notMem_empty pt)
  refine forall_congr' fun hdr => forall_congr' fun hp => ?_
  rw [packetKind, hp, Option.map_some]
  simp only [Option.some.injEq, decide_eq_true_eq, decide_eq_false_iff_not, hmem]

/-- One peer offers its audio under 111, another its video. -/
def offerBoth : List ProcessOp :=
  [.sendOffer {} "a" "m=audio 9 UDP/TLS/RTP/SAVPF 111" [],
    .sendOffer {} "b" "m=video 9 UDP/TLS/RTP/SAVPF 111" []]

/-- A packet of payload type 111 without payload. -/
def packetOf111 : Bytes := [0x80, 0x6F, 0, 0, 0, 0, 0, 0, 0, 0, 0, 1]

theorem audio_taken_for_video : ¬ ∀ ops peerId plainRtp,
    KindKept (exec step start ops) (offersOf peerId ops) plainRtp := by
  intro h
  have hvideo : (111 : UInt8) ∈ (exec step start offerBoth).statics.videoPTs :=
    (mem_videoPTs_iff start offerBoth).2 (.inr (by decide))
  have hkind := (h offerBoth "a" packetOf111 _ rfl).2 (by decide)
  rw [← (exec step start offerBoth).shared] at hkind
  exact of_decide_eq_false (Option.some.inj hkind) hvideo

end MediaProcess

end Namecon
