import Namecon.Sfu.Proof.Dangling
import Namecon.Sfu.Rtcp

/-!
# Whose streams a peer's feedback reaches

`handlePLI` and `handleNACK` take the consumer that has the outgoing SSRC of the packet, whoever
sent the packet (`fromPeer`) and whether or not the consumer is linked.

* `onRtcpPacket_emissions`: the datagrams of `onRtcpPacket`, each with the packet of the compound
  that caused it and the peer it is sent to.
* `mem_feedback`: what makes the router emit a PLI or a NACK, and what it names.
* `isolated_iff`: the router being what `Wf` says, an emission is the sender's own affair exactly
  when the sender vouches for the consumer that was found.
-/

namespace Namecon

theorem Peer.mem_sendRtcp {x : Peer} {srtp : SrtpOracle} {i : Nat} {plain : Bytes} {d : Datagram} :
    d ∈ x.sendRtcp srtp i plain ↔ ∃ ctx data, x.srtp = some ctx ∧
      srtp.protectRtcp i ctx plain = some data ∧ d = ⟨x.remoteEp, .rtcp, plain, data⟩ := by
  unfold Peer.sendRtcp
  cases x.srtp with
  | none => simp
  | some ctx => cases h : srtp.protectRtcp i ctx plain <;> simp [h]

namespace Router

open Runs (exec)

variable {r : Router} {srtp : SrtpOracle} {rtcp p : Bytes} {F : PeerRef}

/-! ## Emissions -/

/-- A datagram `onRtcpPacket` sends: the packet of the compound that caused it, with what follows
it, and the publisher it goes to. -/
structure Emission where
  cause : Bytes
  recipient : PeerRef
  datagram : Datagram
deriving DecidableEq, Repr

/-- `translate`, with the peer it sends to. -/
def translateTo (r : Router) (srtp : SrtpOracle) (i : Nat) (q : Request) :
    List (PeerRef × Datagram) :=
  match r.findConsumerByOutSsrc q.outSsrc with
  | none => []
  | some c =>
    match (r.heap c).publisher with
    | none => []
    | some publisher =>
      ((r.peers publisher).sendRtcp srtp i (q.build (r.heap c))).map (Prod.mk publisher)

/-- What a compound makes the router emit. -/
def emissions (r : Router) (srtp : SrtpOracle) (rtcp : Bytes) : List Emission :=
  (rtcpWalk rtcp.length rtcp).zipIdx.flatMap fun x =>
    ((request x.1.1 x.1.2).elim [] (r.translateTo srtp x.2)).map fun y => ⟨x.1.1, y.1, y.2⟩

theorem translate_eq (i : Nat) (q : Request) :
    r.translate srtp i q = (r.translateTo srtp i q).map (·.2) := by
  unfold translate translateTo
  cases r.findConsumerByOutSsrc q.outSsrc with
  | none => rfl
  | some c =>
    dsimp only
    cases (r.heap c).publisher with
    | none => rfl
    | some P =>
      dsimp only
      rw [List.map_map]
      exact (List.map_id _).symm

/-- **The emissions are the datagrams of `onRtcpPacket`**, in the order they are sent. -/
theorem onRtcpPacket_emissions (r : Router) (srtp : SrtpOracle) (rtcp : Bytes) :
    r.onRtcpPacket srtp rtcp = (r.emissions srtp rtcp).map (·.datagram) := by
  unfold onRtcpPacket emissions
  rw [List.map_flatMap]
  refine List.flatMap_congr fun x _ => ?_
  rw [handleRtcp_eq, List.map_map]
  cases request x.1.1 x.1.2 with
  | none => rfl
  | some q => exact translate_eq x.2 q

/-! ## PLIs and NACKs -/

/-- A PLI or a NACK. -/
def rtcpIsFeedback (p : Bytes) : Bool := rtcpIsPLI p || rtcpIsNACK p

/-- The media SSRC of a PLI or a NACK. -/
def mediaSsrc (p : Bytes) : UInt32 := ntohlAt p 8

/-- The request of the PLI or NACK `p`. -/
def feedbackRequest (p : Bytes) : Request := if rtcpIsPLI p then pliRequest p else nackRequest p

theorem request_feedback (h : rtcpIsFeedback p = true) (len : Nat) :
    request p len = some (feedbackRequest p) := by
  unfold request feedbackRequest
  split
  · rfl
  · next hpli =>
    have hnack : rtcpIsNACK p = true := by
      rcases Bool.or_eq_true_iff.1 h with h | h
      · exact absurd h hpli
      · exact h
    rw [if_pos hnack]

theorem feedbackRequest_outSsrc (p : Bytes) : (feedbackRequest p).outSsrc = mediaSsrc p := by
  unfold feedbackRequest
  split <;> rfl

theorem mediaSsrc_build (p : Bytes) (k : Consumer) :
    mediaSsrc ((feedbackRequest p).build k) = k.publisherSsrc := by
  unfold feedbackRequest
  split <;> exact ntohl_htonl k.publisherSsrc

theorem rtcpIsFeedback_build (p : Bytes) (k : Consumer) :
    rtcpIsFeedback ((feedbackRequest p).build k) = true := by
  have hfmt : (0x81 : UInt8) &&& 0x1F = 1 := by decide
  unfold feedbackRequest
  split
  · rw [pliRequest_build]
    simp [rtcpIsFeedback, rtcpIsPLI, isFeedback, pliPacket, htons, htonl, hfmt]
  · rw [nackRequest_build]
    simp [rtcpIsFeedback, rtcpIsNACK, isFeedback, htons, htonl, hfmt]

/-- The type of a receiver report is not overwritten. -/
theorem rrRequest_type {len : Nat} (hp : 8 ≤ p.length) (hlen : 8 ≤ len) (k : Consumer) :
    ((rrRequest p len).build k).getD 1 0 = p.getD 1 0 := by
  have htake : (p.take len).getD 1 0 = p.getD 1 0 := getD_take (by omega)
  rw [rrRequest_build]
  split
  · have hlt : 1 < ((p.take len).take 8).length := by
      rw [List.length_take, List.length_take]
      omega
    rw [withSsrc, List.append_assoc, List.getD_eq_getElem?_getD, List.getElem?_append_left hlt,
      List.getElem?_take_of_lt (by omega), ← List.getD_eq_getElem?_getD, htake]
  · exact htake

theorem not_feedback_of_type {p : Bytes} (h : p.getD 1 0 = 201) : rtcpIsFeedback p = false := by
  unfold rtcpIsFeedback rtcpIsPLI rtcpIsNACK isFeedback
  rw [h]
  simp

/-- Only a PLI or a NACK makes the router emit one. -/
theorem feedback_of_build {q : Request} {len : Nat} {k : Consumer} (hq : request p len = some q)
    (hb : rtcpIsFeedback (q.build k) = true) : rtcpIsFeedback p = true := by
  by_contra hno
  obtain ⟨hpli, hnack⟩ : ¬ rtcpIsPLI p = true ∧ ¬ rtcpIsNACK p = true := by
    rw [rtcpIsFeedback, Bool.or_eq_true_iff, not_or] at hno
    exact hno
  unfold request at hq
  rw [if_neg hpli, if_neg hnack] at hq
  by_cases hrr : rtcpIsRR p = true
  · rw [if_pos hrr] at hq
    by_cases hlen : len < 8
    · rw [if_pos hlen] at hq
      cases hq
    · rw [if_neg hlen] at hq
      obtain rfl := Option.some.inj hq
      rw [rtcpIsRR, Bool.and_eq_true, decide_eq_true_eq] at hrr
      have htype : p.getD 1 0 = 201 := eq_of_beq hrr.2
      rw [not_feedback_of_type ((rrRequest_type hrr.1 (by omega) k).trans htype)] at hb
      cases hb
  · rw [if_neg hrr] at hq
    cases hq

/-! ## What is emitted, and for whom -/

/-- The PLIs and NACKs that a compound makes the router emit. -/
def feedback (r : Router) (srtp : SrtpOracle) (rtcp : Bytes) : List Emission :=
  (r.emissions srtp rtcp).filter fun e => rtcpIsFeedback e.datagram.plain

/-- The PLI or NACK `x.1.1`, packet `x.2` of the compound, is answered through the consumer `c`,
whose publisher is `P`: libsrtp protects what goes to `P`. -/
structure Answered (r : Router) (srtp : SrtpOracle) (x : (Bytes × Nat) × Nat) (c : ConsumerRef)
    (P : PeerRef) (data : Bytes) : Prop where
  isFeedback : rtcpIsFeedback x.1.1 = true
  found : r.findConsumerByOutSsrc (mediaSsrc x.1.1) = some c
  publisher : (r.heap c).publisher = some P
  sends : ∃ ctx, (r.peers P).srtp = some ctx ∧
    srtp.protectRtcp x.2 ctx ((feedbackRequest x.1.1).build (r.heap c)) = some data

theorem mem_translateTo {i : Nat} {q : Request} {y : PeerRef × Datagram} :
    y ∈ r.translateTo srtp i q ↔ ∃ c, r.findConsumerByOutSsrc q.outSsrc = some c ∧
      (r.heap c).publisher = some y.1 ∧
      y.2 ∈ (r.peers y.1).sendRtcp srtp i (q.build (r.heap c)) := by
  unfold translateTo
  obtain ⟨P, d⟩ := y
  cases r.findConsumerByOutSsrc q.outSsrc with
  | none => simp
  | some c =>
    cases hP : (r.heap c).publisher with
    | none => simp [hP]
    | some Q =>
      simp only [hP, List.mem_map, Prod.mk.injEq, Option.some.injEq, exists_eq_left']
      constructor
      · intro h
        obtain ⟨d', hd, rfl, rfl⟩ := h
        exact ⟨rfl, hd⟩
      · intro h
        obtain ⟨rfl, hd⟩ := h
        exact ⟨d, hd, rfl, rfl⟩

theorem mem_feedback {e : Emission} : e ∈ r.feedback srtp rtcp ↔
    ∃ x ∈ (rtcpWalk rtcp.length rtcp).zipIdx, ∃ c P data, r.Answered srtp x c P data ∧
      e = ⟨x.1.1, P, (r.peers P).remoteEp, .rtcp, (feedbackRequest x.1.1).build (r.heap c),
        data⟩ := by
  unfold feedback emissions
  simp only [List.mem_filter, List.mem_flatMap, List.mem_map]
  constructor
  · intro h
    obtain ⟨⟨x, hx, y, hy, rfl⟩, hfb⟩ := h
    cases hq : request x.1.1 x.1.2 with
    | none =>
      rw [hq] at hy
      cases hy
    | some q =>
      rw [hq] at hy
      obtain ⟨c, hc, hP, hd⟩ := mem_translateTo.1 hy
      obtain ⟨ctx, data, hctx, hprot, hd⟩ := Peer.mem_sendRtcp.1 hd
      rw [hd] at hfb
      have hcause := feedback_of_build hq hfb
      obtain rfl := Option.some.inj (hq.symm.trans (request_feedback hcause x.1.2))
      rw [feedbackRequest_outSsrc] at hc
      exact ⟨x, hx, c, y.1, data, ⟨hcause, hc, hP, ctx, hctx, hprot⟩, by rw [hd]⟩
  · intro h
    obtain ⟨x, hx, c, P, data, h, rfl⟩ := h
    obtain ⟨ctx, hctx, hprot⟩ := h.sends
    refine ⟨⟨x, hx, (P, _), ?_, rfl⟩, rtcpIsFeedback_build x.1.1 (r.heap c)⟩
    rw [request_feedback h.isFeedback]
    apply mem_translateTo.2
    rw [feedbackRequest_outSsrc]
    exact ⟨c, h.found, h.publisher, Peer.mem_sendRtcp.2 ⟨ctx, data, hctx, hprot, rfl⟩⟩

/-- The emission `e` is the affair of `F`: the packet that caused it names the outgoing SSRC of a
consumer of `F`, `e` goes to the publisher of that consumer, and it names a stream which that
publisher has and which the consumer receives. -/
def Isolated (r : Router) (F : PeerRef) (e : Emission) : Prop :=
  ∃ c ∈ (r.peers F).consumers, (r.heap c).rewrittenSsrc = mediaSsrc e.cause ∧
    (r.heap c).publisher = some e.recipient ∧ mediaSsrc e.datagram.plain ≠ 0 ∧
      ∃ p, r.Listed e.recipient p c ∧ p.originalSsrc = mediaSsrc e.datagram.plain

/-- `c` is linked, and `F` owns it or another consumer that drew its outgoing SSRC and is linked to
the same stream. -/
def Vouches (r : Router) (F : PeerRef) (c : ConsumerRef) : Prop :=
  (r.heap c).publisherSsrc ≠ 0 ∧ ∃ c' ∈ (r.peers F).consumers,
    (r.heap c').rewrittenSsrc = (r.heap c).rewrittenSsrc ∧
      (r.heap c').publisher = (r.heap c).publisher ∧
        (r.heap c').publisherSsrc = (r.heap c).publisherSsrc

theorem Wf.isolated_iff (hw : r.Wf) {x : (Bytes × Nat) × Nat} {c : ConsumerRef} {P : PeerRef}
    {data : Bytes} (h : r.Answered srtp x c P data) :
    r.Isolated F ⟨x.1.1, P, (r.peers P).remoteEp, .rtcp, (feedbackRequest x.1.1).build (r.heap c),
      data⟩ ↔ r.Vouches F c := by
  have hout : (r.heap c).rewrittenSsrc = mediaSsrc x.1.1 := (hw.reverse _ c h.found).2
  unfold Isolated
  dsimp only
  rw [mediaSsrc_build]
  constructor
  · intro h
    obtain ⟨c', hc', hout', hP', h0, p, hl, hp⟩ := h
    -- the SSRC of a consumer in a list is that of the stream, unless the stream has the SSRC 0
    have hs := (hw.listLink P p c' hl).2.2 (by rw [hp]; exact h0)
    exact ⟨h0, c', hc', hout'.trans hout.symm, hP'.trans h.publisher.symm, hs.trans hp⟩
  · intro h
    obtain ⟨h0, c', hc', hout', hP', hs⟩ := h
    have hPc : (r.heap c').publisher = some P := hP'.trans h.publisher
    obtain ⟨p, hl, hp⟩ := hw.linked c' P ⟨F, hc'⟩ hPc (by rw [hs]; exact h0)
    exact ⟨c', hc', hout'.trans hout, hPc, h0, p, hl, hp.trans hs⟩

/-- **When feedback is isolated.** In every reachable state, the PLIs and NACKs that a compound from
`F` makes the router emit are all the affair of `F` exactly when `F` vouches for every consumer
through which a PLI or NACK of the compound is answered. -/
theorem feedback_isolated_iff (ids : PeerRef → String) (ops : List RouterOp) (srtp : SrtpOracle)
    (rtcp : Bytes) (F : PeerRef) :
    (∀ e ∈ (exec step (start ids) ops).feedback srtp rtcp,
        (exec step (start ids) ops).Isolated F e) ↔
      ∀ x ∈ (rtcpWalk rtcp.length rtcp).zipIdx, ∀ c P data,
        (exec step (start ids) ops).Answered srtp x c P data →
          (exec step (start ids) ops).Vouches F c := by
  have hw := (wf_start ids).exec ops
  generalize exec step (start ids) ops = r at hw
  constructor
  · intro h x hx c P data ha
    exact (hw.isolated_iff ha).1 (h _ (mem_feedback.2 ⟨x, hx, c, P, data, ha, rfl⟩))
  · intro h e he
    obtain ⟨x, hx, c, P, data, ha, rfl⟩ := mem_feedback.1 he
    exact (hw.isolated_iff ha).2 (h x hx c P data ha)

/-- Peer 1 subscribes to the audio of peer 2; both have keys. -/
def listenRun : List RouterOp :=
  [.setTransport 1 ⟨1, 1⟩ none (some ⟨[]⟩),
    .setTransport 2 ⟨2, 2⟩ none (some ⟨[]⟩),
    .addConsumer 1 2 false default]

/-- Then peer 2 sends. -/
def talkRun : List RouterOp :=
  listenRun ++ [.onRtpPacket ∅ ⟨fun _ _ b => some b, fun _ _ b => some b⟩
    [0x80, 111, 0, 1, 0, 0, 0, 0, 0, 0, 0, 7] 2]

/-- A PLI for the outgoing SSRC of the consumer of peer 1. -/
def listenPli : Bytes := [0x81, 206, 0, 2, 0, 0, 0, 0, 0x40, 0, 0, 0]

-- A PLI that comes before the stream names the SSRC 0, whoever sends it.
example : ((exec step (start toString) listenRun).feedback
    ⟨fun _ _ b => some b, fun _ _ b => some b⟩ listenPli).map
      (fun e => mediaSsrc e.datagram.plain) = [0] := by decide

/-- Peer 3, which subscribes to nothing, sends the PLI, and the router asks peer 2 for a key frame
of the stream of peer 1. -/
theorem talkRun_foreign : ¬ ∀ e ∈ (exec step (start toString) talkRun).feedback
    ⟨fun _ _ b => some b, fun _ _ b => some b⟩ listenPli,
      (exec step (start toString) talkRun).Isolated 3 e := by
  intro h
  have hno : (((exec step (start toString) talkRun).peers 3).consumers) = [] := by decide
  obtain ⟨c, hc, -⟩ := h ⟨listenPli, 2, ⟨2, 2⟩, .rtcp, pliPacket 7, pliPacket 7⟩ (by decide)
  rw [hno] at hc
  cases hc

end Router
end Namecon
