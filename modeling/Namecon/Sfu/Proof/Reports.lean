import Namecon.Sfu.Proof.Nacks

/-!
# Where receiver reports go

`handleRR` sends a report on as a whole, to one publisher, with the source SSRC of its first block
replaced (the comment there calls it a simplification): `report_relayed`. Reports with several
blocks may be about several publishers, and then each block but the first reaches the wrong one
(`twoReports_misrouted`).
-/

namespace Namecon.Router

open Framing (own)
open Runs (exec)

variable {r : Router} {srtp : SrtpOracle} {p q : Bytes} {i len : Nat} {P : PeerRef} {ssrc : UInt32}

/-- The count of report blocks of the report `q`. -/
def reportCount (q : Bytes) : Nat := (q.getD 0 0 &&& 0x1F).toNat

/-- The report blocks of `q`, of 24 bytes each; a block starts with its source SSRC. -/
def reportBlocks (q : Bytes) : List Bytes :=
  (List.range (reportCount q)).map fun j => (q.drop (8 + 24 * j)).take 24

/-- `q` is a receiver report with one block or more. -/
structure ReceiverReport (q : Bytes) : Prop where
  type : q.getD 1 0 = 201
  blocks : 1 ≤ reportCount q
  length : 8 + 24 * reportCount q ≤ q.length

instance (q : Bytes) : Decidable (ReceiverReport q) :=
  decidable_of_iff
    (q.getD 1 0 = 201 ∧ 1 ≤ reportCount q ∧ 8 + 24 * reportCount q ≤ q.length)
    ⟨fun h => ⟨h.1, h.2.1, h.2.2⟩, fun h => ⟨h.1, h.2, h.3⟩⟩

/-- The block `b` with the source SSRC `ssrc`. -/
def withSource (b : Bytes) (ssrc : UInt32) : Bytes := htonl ssrc ++ b.drop 4

/-- `out` is the report `q` with the source SSRC of its first block set to `ssrc`. -/
structure RelaysWith (ssrc : UInt32) (q out : Bytes) : Prop where
  bytes : out = withSsrc q ssrc
  blocks : ∃ b rest, reportBlocks q = b :: rest ∧ reportBlocks out = withSource b ssrc :: rest

/-! ## The report that is sent -/

/-- What comes behind the source SSRC of the first block is left as it is. -/
theorem withSsrc_drop (hq : 12 ≤ q.length) (ssrc : UInt32) {n : Nat} (hn : 12 ≤ n) :
    (withSsrc q ssrc).drop n = q.drop n := by
  obtain ⟨m, rfl⟩ := Nat.exists_eq_add_of_le hn
  obtain ⟨b0, b1, q0, q1, t0, t1, t2, t3, s0, s1, s2, s3, rest, rfl⟩ := exists_of_length_le hq
  rw [← List.drop_drop, ← List.drop_drop]
  rfl

theorem withSsrc_first (hq : 12 ≤ q.length) (ssrc : UInt32) :
    ((withSsrc q ssrc).drop 8).take 24 = withSource ((q.drop 8).take 24) ssrc := by
  obtain ⟨b0, b1, q0, q1, t0, t1, t2, t3, s0, s1, s2, s3, rest, rfl⟩ := exists_of_length_le hq
  rfl

theorem relaysWith_withSsrc (h : ReceiverReport q) (ssrc : UInt32) :
    RelaysWith ssrc q (withSsrc q ssrc) := by
  have hlen := h.length
  have hblocks := h.blocks
  have h12 : 12 ≤ q.length := by omega
  obtain ⟨n, hn⟩ : ∃ n, reportCount q = n + 1 := ⟨reportCount q - 1, by omega⟩
  have hcount : reportCount (withSsrc q ssrc) = n + 1 := by
    rw [← hn]
    obtain ⟨b0, b1, q0, q1, t0, t1, t2, t3, s0, s1, s2, s3, rest, rfl⟩ := exists_of_length_le h12
    rfl
  have hrest : ∀ j, ((withSsrc q ssrc).drop (8 + 24 * (j + 1))).take 24 =
      (q.drop (8 + 24 * (j + 1))).take 24 := fun j => by
    rw [withSsrc_drop h12 ssrc (by omega)]
  refine ⟨rfl, (q.drop 8).take 24,
    (List.range n).map fun j => (q.drop (8 + 24 * (j + 1))).take 24, ?_, ?_⟩
  · rw [reportBlocks, hn, List.range_succ_eq_map, List.map_cons, List.map_map]
    rfl
  · rw [reportBlocks, hcount, List.range_succ_eq_map, List.map_cons, List.map_map,
      ← withSsrc_first h12]
    exact congrArg _ (List.map_congr_left fun j _ => hrest j)

/-- A report is one whatever follows it. -/
theorem ReceiverReport.request (h : ReceiverReport (p.take len)) (hle : len ≤ p.length) :
    request p len = some (rrRequest p len) ∧
      ∀ k, (rrRequest p len).build k = withSsrc (p.take len) k.publisherSsrc := by
  have hlen := h.length
  have hblocks := h.blocks
  rw [List.length_take] at hlen
  have htype : p.getD 1 0 = 201 := by
    rw [← h.type]
    exact (getD_take (by omega)).symm
  have hpli : ¬ rtcpIsPLI p = true := not_isFeedback htype (by decide)
  have hnack : ¬ rtcpIsNACK p = true := not_isFeedback htype (by decide)
  have hrr : rtcpIsRR p = true := rtcpIsRR_iff.2 ⟨by omega, htype⟩
  constructor
  · unfold Router.request
    rw [if_neg hpli, if_neg hnack, if_pos hrr, if_neg (by omega)]
  · intro k
    exact (rrRequest_build p len k).trans (if_pos (by rw [List.length_take]; omega))

theorem length_sendRtcp (x : Peer) (srtp : SrtpOracle) (i : Nat) (plain : Bytes) :
    (x.sendRtcp srtp i plain).length ≤ 1 := by
  unfold Peer.sendRtcp
  split
  · exact Nat.zero_le 1
  · split
    · exact Nat.zero_le 1
    · exact Nat.le_refl 1

theorem length_translateTo (r : Router) (srtp : SrtpOracle) (i : Nat) (q : Request) :
    (r.translateTo srtp i q).length ≤ 1 := by
  unfold translateTo
  split
  · exact Nat.zero_le 1
  · split
    · exact Nat.zero_le 1
    · rw [List.length_map]
      exact length_sendRtcp _ _ _ _

/-- What becomes of the receiver report `x`, whose sender SSRC is the source SSRC of its first
block. -/
structure Relayed (r : Router) (srtp : SrtpOracle) (x : (Bytes × Nat) × Nat) : Prop where
  once : (r.emitted srtp x.2 x.1.1 x.1.2).length ≤ 1
  /-- It goes to the publisher of the consumer that the first block is about. -/
  translated : ∀ y ∈ r.emitted srtp x.2 x.1.1 x.1.2, ∃ c, r.Owned c ∧
    (r.heap c).rewrittenSsrc = ntohlAt (own x.1) 8 ∧ (r.heap c).publisher = some y.1 ∧
    RelaysWith (r.heap c).publisherSsrc (own x.1) y.2.plain
  delivered : ∀ F c P, WorkingLink r srtp F c P → ntohlAt (own x.1) 8 = (r.heap c).rewrittenSsrc →
    r.findConsumerByOutSsrc (r.heap c).rewrittenSsrc = some c →
      ∃ y ∈ r.emitted srtp x.2 x.1.1 x.1.2, y.1 = P ∧
        RelaysWith (r.heap c).publisherSsrc (own x.1) y.2.plain

/-- **Receiver reports are relayed as a whole**, in every reachable state, with their first block
translated. -/
theorem report_relayed (ids : PeerRef → String) (ops : List RouterOp) (srtp : SrtpOracle)
    (rtcp : Bytes) (x : (Bytes × Nat) × Nat) (hx : x ∈ (rtcpWalk rtcp.length rtcp).zipIdx)
    (hrr : ReceiverReport (own x.1)) (hsender : ntohlAt (own x.1) 4 = ntohlAt (own x.1) 8) :
    Relayed (exec step (start ids) ops) srtp x := by
  have hw := (wf_start ids).exec ops
  generalize exec step (start ids) ops = r at hw
  have hmem := mem_visits_of_mem_zipIdx hx
  obtain ⟨h4, hle⟩ := Framing.bounds_of_mem_visits hmem
  have hlong : 8 ≤ x.1.2 := by
    have hlen := hrr.length
    rw [Framing.length_own hmem] at hlen
    omega
  obtain ⟨hrequest, hbuild⟩ := ReceiverReport.request hrr hle
  have hemitted : r.emitted srtp x.2 x.1.1 x.1.2 =
      r.translateTo srtp x.2 (rrRequest x.1.1 x.1.2) := by
    rw [emitted, hrequest]
    rfl
  have hout : (rrRequest x.1.1 x.1.2).outSsrc = ntohlAt (own x.1) 8 :=
    (ntohlAt_take hlong).symm.trans hsender
  constructor
  · rw [hemitted]
    exact length_translateTo r srtp x.2 _
  · rw [hemitted]
    intro y hy
    obtain ⟨c, hc, hP, hd⟩ := mem_translateTo.1 hy
    obtain ⟨ctx, data, -, -, hd⟩ := Peer.mem_sendRtcp.1 hd
    obtain ⟨hown, hssrc⟩ := hw.reverse _ c hc
    refine ⟨c, hown, hssrc.trans hout, hP, ?_⟩
    rw [hd, hbuild]
    exact relaysWith_withSsrc hrr _
  · rw [hemitted]
    intro F c P hlink hfirst hfound
    obtain ⟨ctx, hctx, hworks⟩ := hlink.works
    obtain ⟨data, hdata⟩ := Option.isSome_iff_exists.1
      (hworks x.2 ((rrRequest x.1.1 x.1.2).build (r.heap c)))
    have hlookup : r.findConsumerByOutSsrc (rrRequest x.1.1 x.1.2).outSsrc = some c := by
      rw [hout, hfirst]
      exact hfound
    refine ⟨(P, ⟨(r.peers P).remoteEp, .rtcp, (rrRequest x.1.1 x.1.2).build (r.heap c), data⟩),
      mem_translateTo.2 ⟨c, hlookup, hlink.publisher,
        Peer.mem_sendRtcp.2 ⟨ctx, data, hctx, hdata, rfl⟩⟩, rfl, ?_⟩
    rw [hbuild]
    exact relaysWith_withSsrc hrr _

/-! ## A report about two publishers -/

/-- Peer 1 receives the streams 7 of peer 2 and 9 of peer 3; all have keys. -/
def twoStreams : List RouterOp :=
  [.setTransport 2 ⟨2, 2⟩ none (some ⟨[]⟩), .setTransport 3 ⟨3, 3⟩ none (some ⟨[]⟩),
    .addConsumer 1 2 false default, .addConsumer 1 3 false ⟨0x40000003, by decide, by decide⟩,
    .onRtpPacket ∅ ⟨fun _ _ b => some b, fun _ _ b => some b⟩
      [0x80, 111, 0, 1, 0, 0, 0, 0, 0, 0, 0, 7] 2,
    .onRtpPacket ∅ ⟨fun _ _ b => some b, fun _ _ b => some b⟩
      [0x80, 111, 0, 1, 0, 0, 0, 0, 0, 0, 0, 9] 3]

/-- A receiver report of peer 1 with a block about each stream. -/
def twoReports : Bytes :=
  [0x82, 201, 0, 13, 0x40, 0, 0, 0] ++ ([0x40, 0, 0, 0] ++ List.replicate 20 0) ++
    ([0x40, 0, 0, 3] ++ List.replicate 20 0)

theorem report_relayed_twoReports : Relayed (exec step (start toString) twoStreams)
    ⟨fun _ _ b => some b, fun _ _ b => some b⟩ ((twoReports, 56), 0) :=
  report_relayed toString twoStreams _ twoReports ((twoReports, 56), 0) (by decide) (by decide)
    (by decide)

/-- The block about the stream of peer 3 does not reach it. -/
theorem twoReports_misrouted : ¬ ∀ ids ops srtp rtcp, ∀ x ∈ (rtcpWalk rtcp.length rtcp).zipIdx,
    ReceiverReport (own x.1) → ∀ F c P, WorkingLink (exec step (start ids) ops) srtp F c P →
      ∀ b ∈ reportBlocks (own x.1),
        ntohlAt b 0 = ((exec step (start ids) ops).heap c).rewrittenSsrc →
          ∃ y ∈ emitted (exec step (start ids) ops) srtp x.2 x.1.1 x.1.2, y.1 = P ∧
            withSource b ((exec step (start ids) ops).heap c).publisherSsrc ∈
              reportBlocks y.2.plain := by
  intro h
  have hlink : WorkingLink (exec step (start toString) twoStreams)
      ⟨fun _ _ b => some b, fun _ _ b => some b⟩ 1 1 3 :=
    ⟨by decide, by decide, by decide, ⟨[]⟩, by decide, fun _ _ => rfl⟩
  obtain ⟨y, hy, hP, -⟩ := h toString twoStreams _ twoReports ((twoReports, 56), 0) (by decide)
    (by decide) 1 1 3 hlink ([0x40, 0, 0, 3] ++ List.replicate 20 0) (by decide) (by decide)
  have hto : (emitted (exec step (start toString) twoStreams)
      ⟨fun _ _ b => some b, fun _ _ b => some b⟩ 0 twoReports 56).map Prod.fst = [2] := by decide
  have hmem := List.mem_map_of_mem (f := Prod.fst) hy
  rw [hto, List.mem_singleton, hP] at hmem
  cases hmem

end Namecon.Router
