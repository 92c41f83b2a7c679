import Namecon.Sfu.Proof.Dangling

/-!
# RTP forwarding is exact

Which consumers a packet is forwarded to, stated in the state before the packet (`Recipient`): the
owned ones of the publisher that stand linked to its stream once the first packet of the stream has
linked those that waited (`ssrcAfterLinking`), are active and bound, and whose subscriber has SRTP
that protects the packet. `onRtpPacket_exact` says that these get one datagram each, and what
happens to every consumer. A consumer whose `protect` fails gets nothing but has its rewriting
state moved on (`rewriting_moves_on_failure`).
-/

namespace Namecon.Router

open Runs (exec)
open ListFacts (nodup_keys_flatMap)

variable {r : Router} {o : SrtpOracle} {P S : PeerRef} {s : UInt32} {v : Bool} {buf : Bytes}
  {c : ConsumerRef} {ctx : SrtpContext} {data : Bytes}

/-! ## The linking that the first packet performs -/

/-- `publisherSsrc` of `c` when the loop over the targets of a packet of the stream starts. -/
def ssrcAfterLinking (r : Router) (P : PeerRef) (s : UInt32) (v : Bool) (c : ConsumerRef) :
    UInt32 :=
  if r.findProducer P s = none ∧ Waits P v (r.heap c) then s else (r.heap c).publisherSsrc

theorem linkTargets_heap_owned (hw : r.Wf) (hc : r.Owned c) :
    (r.linkTargets o P s v).1.heap c = linkedTo (r.ssrcAfterLinking P s v c) (r.heap c) := by
  unfold ssrcAfterLinking
  cases hf : r.findProducer P s with
  | some p => rw [linkTargets_known hf]; simp [linkedTo]
  | none =>
    rw [linkTargets_new hf, createProducer_heap]
    by_cases hwt : Waits P v (r.heap c)
    · rw [if_pos (hw.mem_waitingFor.2 ⟨hc, hwt⟩), if_pos ⟨rfl, hwt⟩]
    · rw [if_neg fun h => hwt (hw.mem_waitingFor.1 h).2, if_neg fun h => hwt h.2]
      rfl

theorem linkTargets_heap_unowned (hw : r.Wf) (hc : ¬ r.Owned c) :
    (r.linkTargets o P s v).1.heap c = r.heap c := by
  cases hf : r.findProducer P s with
  | some p => rw [linkTargets_known hf]
  | none =>
    rw [linkTargets_new hf, createProducer_heap, if_neg fun h => hc (hw.mem_waitingFor.1 h).1]

/-- The linking adds a producer at most. -/
theorem linkTargets_peer (hw : r.Wf) (Q : PeerRef) : ∃ ps,
    (r.linkTargets o P s v).1.peers Q = { r.peers Q with producers := ps } := by
  cases hf : r.findProducer P s with
  | some p => rw [linkTargets_known hf]; exact ⟨_, rfl⟩
  | none =>
    rw [linkTargets_new hf, createProducer_peers hw]
    by_cases hQ : Q = P
    · subst hQ; rw [Function.update_self]; exact ⟨_, rfl⟩
    · rw [Function.update_of_ne hQ]; exact ⟨_, rfl⟩

theorem linkTargets_consumers (hw : r.Wf) (Q : PeerRef) :
    ((r.linkTargets o P s v).1.peers Q).consumers = (r.peers Q).consumers := by
  obtain ⟨ps, h⟩ := linkTargets_peer (o := o) (P := P) (s := s) (v := v) hw Q
  rw [h]

theorem owned_linkTargets (hw : r.Wf) : (r.linkTargets o P s v).1.Owned c ↔ r.Owned c := by
  simp only [Owned, linkTargets_consumers hw]

theorem Linked.linkTargets (h : r.Linked) (h0 : s ≠ 0) : (r.linkTargets o P s v).1.Linked := by
  refine ⟨h.wf.linkTargets, fun Q p hp => ?_, h.noDangling.linkTargets h.wf⟩
  cases hf : r.findProducer P s with
  | some p' => rw [linkTargets_known hf] at hp; exact h.noZero Q p hp
  | none =>
    rw [linkTargets_new hf] at hp
    rcases (mem_createProducer_producers (o := o) h.wf).1 hp with hp | ⟨-, rfl⟩
    · exact h.noZero Q p hp
    · exact h0

/-- The PLI for a new video stream is all that is sent before the loop. -/
theorem linkTargets_rtcp {d : Datagram} (hd : d ∈ (r.linkTargets o P s v).2.2) :
    d.channel = .rtcp := by
  cases hf : r.findProducer P s with
  | some p => rw [linkTargets_known hf] at hd; cases hd
  | none =>
    rw [linkTargets_new hf] at hd
    simp only [createProducer] at hd
    split at hd
    · exact Peer.channel_of_mem_sendRtcp hd
    · cases hd

/-! ## Recipients -/

/-- `c`, a consumer of `S`, is to get the packets of the stream `s` of `P`, under `ctx`. -/
structure Eligible (r : Router) (P : PeerRef) (s : UInt32) (v : Bool) (c : ConsumerRef)
    (S : PeerRef) (ctx : SrtpContext) : Prop where
  owned : c ∈ (r.peers S).consumers
  publisher : (r.heap c).publisher = some P
  publisherSsrc : r.ssrcAfterLinking P s v c = s
  active : (r.heap c).active = true
  recvMid : (r.heap c).recvMid ≠ ""
  srtp : (r.peers S).srtp = some ctx

/-- `c` gets the packet `buf` as `data`. -/
structure Recipient (r : Router) (o : SrtpOracle) (buf : Bytes) (P : PeerRef) (s : UInt32)
    (v : Bool) (c : ConsumerRef) (S : PeerRef) (ctx : SrtpContext) (data : Bytes) : Prop
    extends Eligible r P s v c S ctx where
  protect : o.protect c ctx (withSsrc buf (r.heap c).rewrittenSsrc) = some data

/-- The datagram for the consumer `c` of `S`: the packet with the SSRC of `c`. -/
def delivery (r : Router) (buf : Bytes) (c : ConsumerRef) (S : PeerRef) (data : Bytes) : Datagram :=
  ⟨(r.peers S).remoteEp, .rtp, withSsrc buf (r.heap c).rewrittenSsrc, data⟩

theorem eligible_iff (h : r.Linked) (h0 : s ≠ 0) : r.Eligible P s v c S ctx ↔
    c ∈ (r.linkTargets o P s v).2.1 ∧ (r.linkTargets o P s v).1.Receives c S ctx := by
  obtain ⟨p, hp, hps, ht⟩ := linkTargets_spec (o := o) (P := P) (s := s) (v := v) h.wf
  obtain ⟨ps, hS⟩ := linkTargets_peer (o := o) (P := P) (s := s) (v := v) h.wf S
  have hl : c ∈ (r.linkTargets o P s v).2.1 ↔ r.Owned c ∧ (r.heap c).publisher = some P ∧
      r.ssrcAfterLinking P s v c = s := by
    rw [ht, (h.linkTargets h0).mem_list hp, owned_linkTargets h.wf, hps]
    refine and_congr_right fun hc => ?_
    rw [linkTargets_heap_owned h.wf hc]
    rfl
  rw [hl]
  constructor
  · intro h
    obtain ⟨h1, h2, h3, h4, h5, h6⟩ := h
    have hk := linkTargets_heap_owned (o := o) (P := P) (s := s) (v := v) h.wf ⟨S, h1⟩
    exact ⟨⟨⟨S, h1⟩, h2, h3⟩, by rw [hk]; exact h4, by rw [hk]; exact h.wf.subscriber S c h1,
      by rw [hS]; exact h6, by rw [hk]; exact h5⟩
  · intro h
    obtain ⟨⟨⟨S', h1⟩, h2, h3⟩, h4, h5, h6, h7⟩ := h
    rw [linkTargets_heap_owned h.wf ⟨S', h1⟩] at h4 h5 h7
    rw [hS] at h6
    obtain rfl := Option.some.inj ((h.wf.subscriber S' c h1).symm.trans h5)
    exact ⟨h1, h2, h3, h4, h7, h6⟩

theorem nodup_targets (hw : r.Wf) : (r.linkTargets o P s v).2.1.Nodup := by
  obtain ⟨p, hm, -, ht⟩ := linkTargets_spec (o := o) (P := P) (s := s) (v := v) hw
  rw [ht]
  exact hw.linkTargets.listNodup P p hm

theorem delivery_linkTargets (hw : r.Wf) (hc : r.Owned c) :
    (r.linkTargets o P s v).1.delivery buf c S data = r.delivery buf c S data := by
  obtain ⟨ps, hS⟩ := linkTargets_peer (o := o) (P := P) (s := s) (v := v) hw S
  unfold delivery
  rw [hS, linkTargets_heap_owned hw hc]
  rfl

/-! ## The packet -/

/-- What `onRtpPacket` does with a packet of the stream `s` of `P` of kind `v` with the header
`hdr`: `r` is the router before, `out` the router after with the datagrams sent. -/
structure ForwardsExactly (r : Router) (o : SrtpOracle) (buf : Bytes) (hdr : RtpHeader)
    (P : PeerRef) (v : Bool) (out : Router × List Datagram) : Prop where
  /-- One RTP datagram for each recipient, and no other. -/
  datagrams : ∃ sent : List (ConsumerRef × Datagram), (sent.map Prod.fst).Nodup ∧
    out.2.filter (·.channel = .rtp) = sent.map Prod.snd ∧
    ∀ c d, (c, d) ∈ sent ↔ ∃ S ctx data, r.Recipient o buf P hdr.ssrc v c S ctx data ∧
      d = r.delivery buf c S data
  /-- A recipient counts the packet. -/
  recipient : ∀ c S ctx data, r.Recipient o buf P hdr.ssrc v c S ctx data →
    out.1.heap c = countSent buf.length
      (rewritten hdr (linkedTo (r.ssrcAfterLinking P hdr.ssrc v c) (r.heap c)))
  /-- Where `protect` fails, the rewriting state moves on all the same. -/
  failed : ∀ c S ctx, r.Eligible P hdr.ssrc v c S ctx →
    o.protect c ctx (withSsrc buf (r.heap c).rewrittenSsrc) = none →
    out.1.heap c = rewritten hdr (linkedTo (r.ssrcAfterLinking P hdr.ssrc v c) (r.heap c))
  /-- Any other consumer is at most linked to the stream. -/
  other : ∀ c, r.Owned c → (∀ S ctx, ¬ r.Eligible P hdr.ssrc v c S ctx) →
    out.1.heap c = linkedTo (r.ssrcAfterLinking P hdr.ssrc v c) (r.heap c)
  /-- What is left of a destroyed consumer is not touched. -/
  destroyed : ∀ c, ¬ r.Owned c → out.1.heap c = r.heap c

section
variable {hdr : RtpHeader} (hp : RtpHeader.parse buf = some hdr)
include hp

theorem mem_forwardOne {d : Datagram} : d ∈ (r.forwardOne o buf c).2 ↔
    ∃ S ctx data, r.Receives c S ctx ∧
      o.protect c ctx (withSsrc buf (r.heap c).rewrittenSsrc) = some data ∧
      d = r.delivery buf c S data := by
  rcases forwardOne_cases r c with ⟨S, ctx, h⟩ | h
  · have huniq : ∀ S' ctx', r.Receives c S' ctx' → S' = S ∧ ctx' = ctx := fun _ _ h' => h'.unique h
    rw [forwardOne_receives h hp]
    constructor
    · intro hd
      split at hd
      · cases hd
      · rename_i data hdata
        exact ⟨S, ctx, data, h, hdata, List.mem_singleton.1 hd⟩
    · intro h
      obtain ⟨S', ctx', data, h', hdata, rfl⟩ := h
      obtain ⟨rfl, rfl⟩ := huniq S' ctx' h'
      rw [hdata]
      exact List.mem_singleton.2 rfl
  · rw [forwardOne_skip h]
    exact ⟨fun hd => absurd hd List.not_mem_nil, fun ⟨S, ctx, _, hr, _⟩ => absurd hr (h S ctx)⟩

theorem forwardOne_length (r : Router) (c : ConsumerRef) : (r.forwardOne o buf c).2.length ≤ 1 := by
  rcases forwardOne_cases r c with ⟨S, ctx, h⟩ | h
  · rw [forwardOne_receives h hp]
    split
    · exact Nat.zero_le 1
    · exact Nat.le_refl 1
  · rw [forwardOne_skip h]
    exact Nat.zero_le 1

theorem forward_rtp (l : List ConsumerRef) (hl : l.Nodup) (r : Router) {d : Datagram}
    (hd : d ∈ (forward o buf l r).2) : d.channel = .rtp := by
  rw [forward_datagrams hp l hl, List.mem_flatMap] at hd
  obtain ⟨c, -, hd⟩ := hd
  obtain ⟨S, ctx, data, -, -, rfl⟩ := (mem_forwardOne hp).1 hd
  rfl

theorem onRtpPacket_heap (hw : r.Wf) (V : Finset UInt8) (c : ConsumerRef) :
    (r.onRtpPacket V o buf P).1.heap c =
      if c ∈ (r.linkTargets o P hdr.ssrc (hdr.payloadType ∈ V)).2.1 then
        ((r.linkTargets o P hdr.ssrc (hdr.payloadType ∈ V)).1.forwardOne o buf c).1.heap c
      else (r.linkTargets o P hdr.ssrc (hdr.payloadType ∈ V)).1.heap c := by
  rw [onRtpPacket_parse hp]
  exact forward_heap hp _ (nodup_targets hw) _ c

/-- What happens to a consumer the packet is meant for. -/
theorem Eligible.heap (h : r.Linked) (h0 : hdr.ssrc ≠ 0) (V : Finset UInt8)
    (he : r.Eligible P hdr.ssrc (hdr.payloadType ∈ V) c S ctx) :
    (r.onRtpPacket V o buf P).1.heap c =
      let k := linkedTo (r.ssrcAfterLinking P hdr.ssrc (hdr.payloadType ∈ V) c) (r.heap c)
      match o.protect c ctx (withSsrc buf (r.heap c).rewrittenSsrc) with
      | none => rewritten hdr k
      | some _ => countSent buf.length (rewritten hdr k) := by
  obtain ⟨ht, hr⟩ := (eligible_iff (o := o) h h0).1 he
  have hk := linkTargets_heap_owned (o := o) (P := P) (s := hdr.ssrc)
    (v := hdr.payloadType ∈ V) h.wf ⟨S, he.owned⟩
  have hssrc : ((r.linkTargets o P hdr.ssrc (hdr.payloadType ∈ V)).1.heap c).rewrittenSsrc =
      (r.heap c).rewrittenSsrc := by rw [hk]; rfl
  rw [onRtpPacket_heap hp h.wf, if_pos ht, forwardOne_receives hr hp, hssrc]
  cases o.protect c ctx (withSsrc buf (r.heap c).rewrittenSsrc) with
  | none => rw [modifyConsumer_self, hk]
  | some data => rw [modifyConsumer_self, hk]

/-- A consumer the packet is not meant for is at most linked. -/
theorem onRtpPacket_heap_other (h : r.Linked) (h0 : hdr.ssrc ≠ 0) (V : Finset UInt8)
    (hne : ∀ S ctx, ¬ r.Eligible P hdr.ssrc (hdr.payloadType ∈ V) c S ctx) :
    (r.onRtpPacket V o buf P).1.heap c =
      (r.linkTargets o P hdr.ssrc (hdr.payloadType ∈ V)).1.heap c := by
  rw [onRtpPacket_heap hp h.wf]
  split
  · rename_i ht
    rw [forwardOne_skip fun S ctx hr => hne S ctx ((eligible_iff (o := o) h h0).2 ⟨ht, hr⟩)]
  · rfl

theorem Linked.forwardsExactly (h : r.Linked) (h0 : hdr.ssrc ≠ 0) (V : Finset UInt8) :
    r.ForwardsExactly o buf hdr P (hdr.payloadType ∈ V) (r.onRtpPacket V o buf P) where
  datagrams := by
    have hn := nodup_targets (o := o) (P := P) (s := hdr.ssrc) (v := hdr.payloadType ∈ V) h.wf
    refine ⟨_, nodup_keys_flatMap hn fun c _ => forwardOne_length (o := o) hp
      (r.linkTargets o P hdr.ssrc (hdr.payloadType ∈ V)).1 c, ?_, fun c d => ?_⟩
    · have hpli : (r.linkTargets o P hdr.ssrc (hdr.payloadType ∈ V)).2.2.filter
          (·.channel = .rtp) = [] :=
        List.filter_eq_nil_iff.2 fun d hd => by rw [linkTargets_rtcp hd]; decide
      have hrtp := List.filter_eq_self.2 fun d hd => decide_eq_true
        (forward_rtp (o := o) hp _ hn (r.linkTargets o P hdr.ssrc (hdr.payloadType ∈ V)).1
          (d := d) hd)
      rw [onRtpPacket_parse hp]
      simp only [List.filter_append, hpli, hrtp, List.nil_append]
      rw [forward_datagrams hp _ hn, List.map_flatMap]
      exact List.flatMap_congr fun c _ => by simp
    · simp only [List.mem_flatMap, List.mem_map, Prod.mk.injEq]
      constructor
      · intro h
        obtain ⟨c', ht, d', hd, rfl, rfl⟩ := h
        obtain ⟨S, ctx, data, hr, hdata, rfl⟩ := (mem_forwardOne hp).1 hd
        have he := (eligible_iff (o := o) h h0).2 ⟨ht, hr⟩
        have hk := linkTargets_heap_owned (o := o) (P := P) (s := hdr.ssrc)
          (v := hdr.payloadType ∈ V) h.wf ⟨S, he.owned⟩
        rw [hk] at hdata
        exact ⟨S, ctx, data, ⟨he, hdata⟩, delivery_linkTargets h.wf ⟨S, he.owned⟩⟩
      · intro h
        obtain ⟨S, ctx, data, hr, rfl⟩ := h
        obtain ⟨ht, hrec⟩ := (eligible_iff (o := o) h h0).1 hr.toEligible
        have hk := linkTargets_heap_owned (o := o) (P := P) (s := hdr.ssrc)
          (v := hdr.payloadType ∈ V) h.wf ⟨S, hr.owned⟩
        refine ⟨c, ht, _, (mem_forwardOne hp).2 ⟨S, ctx, data, hrec, ?_, rfl⟩, rfl,
          delivery_linkTargets h.wf ⟨S, hr.owned⟩⟩
        rw [hk]
        exact hr.protect
  recipient c S ctx data hr := by
    rw [hr.toEligible.heap hp h h0, hr.protect]
  failed c S ctx he hf := by
    rw [he.heap hp h h0, hf]
  other c hc hne := by
    rw [onRtpPacket_heap_other hp h h0 V hne, linkTargets_heap_owned h.wf hc]
  destroyed c hc := by
    rw [onRtpPacket_heap_other hp h h0 V fun S ctx he => hc ⟨S, he.owned⟩,
      linkTargets_heap_unowned h.wf hc]

end

/-- **RTP forwarding is exact** in every reachable state, for every packet the receive buffer can
yield. -/
theorem onRtpPacket_exact (ids : PeerRef → String) (ops : List RouterOp)
    (hops : ∀ op ∈ ops, op.NoZeroPacket) (V : Finset UInt8) (o : SrtpOracle) (buf : Bytes)
    (P : PeerRef) (hlen : 12 ≤ buf.length ∧ buf.length ≤ 65526) (h0 : ntohlAt buf 8 ≠ 0) :
    ∃ hdr, RtpHeader.parse buf = some hdr ∧ hdr.ssrc = ntohlAt buf 8 ∧
      (exec step (start ids) ops).ForwardsExactly o buf hdr P (hdr.payloadType ∈ V)
        ((exec step (start ids) ops).onRtpPacket V o buf P) := by
  obtain ⟨hdr, hp, hs⟩ := RtpHeader.exists_parse hlen.1
  exact ⟨hdr, hp, hs, ((linked_start ids).exec hops).forwardsExactly hp (hs ▸ h0) V⟩

/-- Peer 1 subscribes to the audio of peer 2 and has SRTP; peer 2 has sent one packet. -/
def flowingRun : List RouterOp :=
  [.addConsumer 1 2 false default,
    .bindConsumerByMid 1 "2" false "0",
    .setTransport 1 ⟨1, 1⟩ (some ⟨⟨1, 1⟩, true⟩) (some ⟨[]⟩),
    .onRtpPacket ∅ ⟨fun _ _ b => some b, fun _ _ b => some b⟩
      [0x80, 111, 0, 1, 0, 0, 0, 0, 0, 0, 0, 7] 2]

theorem onRtpPacket_exact_flowing :
    (∀ op ∈ flowingRun, op.NoZeroPacket) ∧
    ∃ hdr, RtpHeader.parse [0x80, 111, 0, 2, 0, 0, 0, 0, 0, 0, 0, 7] = some hdr ∧
      hdr.ssrc = ntohlAt [0x80, 111, 0, 2, 0, 0, 0, 0, 0, 0, 0, 7] 8 ∧
      (exec step (start toString) flowingRun).ForwardsExactly
        ⟨fun _ _ b => some b, fun _ _ b => some b⟩ [0x80, 111, 0, 2, 0, 0, 0, 0, 0, 0, 0, 7] hdr 2
        (hdr.payloadType ∈ (∅ : Finset UInt8))
        ((exec step (start toString) flowingRun).onRtpPacket ∅
          ⟨fun _ _ b => some b, fun _ _ b => some b⟩ [0x80, 111, 0, 2, 0, 0, 0, 0, 0, 0, 0, 7] 2) :=
  ⟨by decide, onRtpPacket_exact toString flowingRun (by decide) ∅ _ _ 2 (by decide) (by decide)⟩

/-- The next packet of the stream, with `protect` failing: the consumer gets nothing, and its fields
change. -/
theorem rewriting_moves_on_failure :
    let r := exec step (start toString) flowingRun
    let o : SrtpOracle := ⟨fun _ _ _ => none, fun _ _ _ => none⟩
    let buf : Bytes := [0x80, 111, 0, 2, 0, 0, 0, 0, 0, 0, 0, 7]
    ¬ ∀ c, (∀ S ctx data, ¬ r.Recipient o buf 2 7 false c S ctx data) →
      (r.onRtpPacket ∅ o buf 2).1.heap c = r.heap c := by
  intro r o buf h
  have hsame := h 0 fun S ctx data hr => by cases hr.protect
  exact absurd (congrArg Consumer.lastSentSeq hsame) (by decide)

end Namecon.Router
