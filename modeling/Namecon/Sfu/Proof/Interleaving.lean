import Namecon.Sfu.Proof.Dangling
import Namecon.Sfu.Proof.Subscriptions

/-!
# Subscriptions before and after the first packet

A publisher sends one stream of each kind, and others subscribe to it meanwhile. Whichever comes
first makes the link: `addConsumer` where the producer is there, `findOrCreateProducer` where the
consumer is. `linking_iff_sent`: after any interleaving the links are given by the calls and by the
kinds that were sent. The two streams have to differ in their SSRC, by which a producer is found
(`one_ssrc_for_both`).
-/

namespace Namecon.Router

open Runs (exec)

variable {r : Router} {P : PeerRef} {ssrcOf : Bool → UInt32} {ops : List RouterOp} {v : Bool}

/-- A subscription to `P`, or a packet of `P` in the stream of its kind. -/
def Streams (P : PeerRef) (ssrcOf : Bool → UInt32) : RouterOp → Prop
  | .addConsumer _ publisher _ _ => publisher = P
  | .onRtpPacket videoPTs _ plainRtp fromPeer => fromPeer = P ∧
    ∀ hdr ∈ RtpHeader.parse plainRtp, hdr.ssrc = ssrcOf (decide (hdr.payloadType ∈ videoPTs))
  | .removePeer _ | .bindConsumerByMid .. | .setTransport .. => False

/-- An RTP packet that is classified as of kind `v`. -/
def SendsKind (v : Bool) : RouterOp → Prop
  | .onRtpPacket videoPTs _ plainRtp _ =>
    ∃ hdr ∈ RtpHeader.parse plainRtp, decide (hdr.payloadType ∈ videoPTs) = v
  | _ => False

/-- The run holds a packet of the kind. -/
def Sent (ops : List RouterOp) (v : Bool) : Prop := ∃ op ∈ ops, SendsKind v op

/-- The subscriber and the kind of each `addConsumer` call, in order. -/
def calls (ops : List RouterOp) : List (PeerRef × Bool) :=
  ops.filterMap fun
    | .addConsumer subscriber _ isVideo _ => some (subscriber, isVideo)
    | _ => none

/-- `c` is linked to the stream `s` of kind `v` of `P`: set to it, and once in its list. -/
def LinkedOnce (r : Router) (P : PeerRef) (v : Bool) (s : UInt32) (c : ConsumerRef) : Prop :=
  (r.heap c).publisherSsrc = s ∧ ∃ p ∈ (r.peers P).producers, p.isVideo = v ∧ p.originalSsrc = s ∧
    p.consumers.count c = 1

/-- Nothing of `P` is there yet. -/
structure Unused (r : Router) (P : PeerRef) : Prop where
  producers : (r.peers P).producers = []
  consumers : ∀ c, r.Owned c → (r.heap c).publisher ≠ some P

/-- What the run `ops` from `r₀` has made: the consumer of the `i`-th call, and a producer for each
kind sent. -/
structure Made (r₀ : Router) (P : PeerRef) (ssrcOf : Bool → UInt32) (ops : List RouterOp)
    (r : Router) : Prop where
  wf : r.Wf
  next : r.nextConsumer = r₀.nextConsumer + (calls ops).length
  consumer : ∀ i S v, (calls ops)[i]? = some (S, v) →
    r₀.nextConsumer + i ∈ (r.peers S).consumers ∧
      Follows P v (r.heap (r₀.nextConsumer + i))
  only : ∀ S, ∀ c ∈ (r.peers S).consumers, (r.heap c).publisher = some P →
    ∃ i, c = r₀.nextConsumer + i ∧ (calls ops)[i]? = some (S, (r.heap c).isVideo)
  owned : ∀ p c, r.Listed P p c → r.Owned c
  ssrc : ∀ p ∈ (r.peers P).producers, p.originalSsrc = ssrcOf p.isVideo
  kinds : ∀ v, (∃ p ∈ (r.peers P).producers, p.isVideo = v) ↔ Sent ops v

theorem made_nil (hw : r.Wf) (h : r.Unused P) : Made r P ssrcOf [] r where
  wf := hw
  next := rfl
  consumer i S v hi := by cases hi
  only S c hc hP := absurd hP (h.consumers c ⟨S, hc⟩)
  owned p c hl := by
    obtain ⟨hp, -⟩ := hl
    rw [h.producers] at hp
    exact absurd hp List.not_mem_nil
  ssrc p hp := by
    rw [h.producers] at hp
    exact absurd hp List.not_mem_nil
  kinds v := by
    rw [h.producers]
    simp [Sent]

theorem sent_append {op : RouterOp} : Sent (ops ++ [op]) v ↔ Sent ops v ∨ SendsKind v op := by
  simp [Sent, or_and_right, exists_or]

variable {r₀ : Router}

theorem Made.addConsumer (h : Made r₀ P ssrcOf ops r) (S : PeerRef) (v : Bool) (d : SsrcDraw) :
    Made r₀ P ssrcOf (ops ++ [.addConsumer S P v d]) (r.addConsumer S P v d).1 := by
  have hcalls : calls (ops ++ [.addConsumer S P v d]) = calls ops ++ [(S, v)] := by simp [calls]
  have hlen : r.nextConsumer = r₀.nextConsumer + (calls ops).length := h.next
  refine ⟨h.wf.addConsumer, ?_, fun i Q w hi => ?_, fun Q c hc hP => ?_, fun p' c hl => ?_,
    fun p' hp' => ?_, fun w => ?_⟩
  · rw [addConsumer_next, hcalls, List.length_append, List.length_singleton, hlen, Nat.add_assoc]
  · rw [hcalls, List.getElem?_append] at hi
    split at hi
    · obtain ⟨hmem, hf⟩ := h.consumer i Q w hi
      refine ⟨mem_addConsumer_consumers.2 (.inl hmem), ?_⟩
      rw [addConsumer_heap_old (h.wf.fresh _ ⟨Q, hmem⟩)]
      exact hf
    · rename_i hge
      have hi0 : i = (calls ops).length := by
        obtain ⟨hlt, -⟩ := List.getElem?_eq_some_iff.1 hi
        rw [List.length_singleton] at hlt
        exact Nat.le_antisymm (Nat.le_of_sub_eq_zero (Nat.lt_one_iff.1 hlt)) (Nat.not_lt.1 hge)
      subst hi0
      rw [Nat.sub_self] at hi
      obtain ⟨rfl, rfl⟩ := Prod.mk.inj (Option.some.inj hi)
      rw [← hlen]
      refine ⟨mem_addConsumer_consumers.2 (.inr ⟨rfl, rfl⟩), ?_⟩
      rw [addConsumer_heap_new]
      exact ⟨rfl, rfl⟩
  · rw [hcalls]
    rcases mem_addConsumer_consumers.1 hc with hc | ⟨rfl, rfl⟩
    · rw [addConsumer_heap_old (h.wf.fresh _ ⟨Q, hc⟩)] at hP ⊢
      obtain ⟨i, rfl, hi⟩ := h.only Q c hc hP
      exact ⟨i, rfl, by rw [List.getElem?_append_left (List.getElem?_eq_some_iff.1 hi).1, hi]⟩
    · refine ⟨(calls ops).length, hlen, ?_⟩
      rw [List.getElem?_concat_length, addConsumer_heap_new]
      rfl
  · obtain ⟨p, hp, -, hc | ⟨rfl, -⟩⟩ := (listed_addConsumer h.wf).1 hl
    · exact owned_addConsumer.2 (.inl (h.owned p c ⟨hp, hc⟩))
    · exact owned_addConsumer.2 (.inr rfl)
  · rw [addConsumer_producers h.wf.ssrcNodup, if_pos rfl] at hp'
    obtain ⟨p, hp, rfl⟩ := List.mem_map.1 hp'
    rw [relink_ssrc, relink_isVideo]
    exact h.ssrc p hp
  · rw [addConsumer_producers h.wf.ssrcNodup, if_pos rfl, sent_append, ← h.kinds]
    simp [SendsKind]

theorem nextConsumer_onRtpPacket (V : Finset UInt8) (o : SrtpOracle) (buf : Bytes) :
    (r.onRtpPacket V o buf P).1.nextConsumer = r.nextConsumer := by
  cases hb : RtpHeader.parse buf with
  | none => rw [onRtpPacket_short hb]
  | some hdr =>
    rw [onRtpPacket_parse hb]
    dsimp only
    rw [(sameLinks_forward hb _ _).nextConsumer]
    cases hf : r.findProducer P hdr.ssrc with
    | some p => rw [linkTargets_known hf]
    | none => rw [linkTargets_new hf, createProducer_rest.1]

/-- The kinds of `P`'s streams after a packet: its stream is found by the SSRC, or made. -/
theorem kinds_onRtpPacket (hw : r.Wf) {V : Finset UInt8} {o : SrtpOracle} {buf : Bytes}
    {hdr : RtpHeader} (hb : RtpHeader.parse buf = some hdr) :
    (∃ p ∈ ((r.onRtpPacket V o buf P).1.peers P).producers, p.isVideo = v) ↔
      (∃ p ∈ (r.peers P).producers, p.isVideo = v) ∨
        r.findProducer P hdr.ssrc = none ∧ decide (hdr.payloadType ∈ V) = v := by
  rw [onRtpPacket_parse hb]
  dsimp only
  rw [(sameLinks_forward hb _ _).producers]
  cases hf : r.findProducer P hdr.ssrc with
  | some p =>
    rw [linkTargets_known hf]
    simp
  | none =>
    rw [linkTargets_new hf, createProducer_producers hw, if_pos rfl]
    simp [or_and_right, exists_or, newProducer]

/-- A list of `P` has what it had, or what waited for it. -/
theorem listed_onRtpPacket (hw : r.Wf) {V : Finset UInt8} {o : SrtpOracle} {buf : Bytes}
    {p : Producer} {c : ConsumerRef} (hl : (r.onRtpPacket V o buf P).1.Listed P p c) :
    r.Listed P p c ∨ r.Owned c := by
  cases hb : RtpHeader.parse buf with
  | none =>
    rw [onRtpPacket_short hb] at hl
    exact .inl hl
  | some hdr =>
    rw [onRtpPacket_parse hb] at hl
    replace hl := ((sameLinks_forward hb _ _).listed P p c).1 hl
    cases hf : r.findProducer P hdr.ssrc with
    | some q =>
      rw [linkTargets_known hf] at hl
      exact .inl hl
    | none =>
      rw [linkTargets_new hf] at hl
      rcases (listed_createProducer (o := o) hw).1 hl with hl | ⟨-, -, hc⟩
      · exact .inl hl
      · exact .inr (hw.mem_waitingFor.1 hc).1

theorem Made.onRtpPacket (h : Made r₀ P ssrcOf ops r) (hne : ssrcOf true ≠ ssrcOf false)
    {V : Finset UInt8} {o : SrtpOracle} {buf : Bytes}
    (hbuf : ∀ hdr ∈ RtpHeader.parse buf, hdr.ssrc = ssrcOf (decide (hdr.payloadType ∈ V))) :
    Made r₀ P ssrcOf (ops ++ [.onRtpPacket V o buf P]) (r.onRtpPacket V o buf P).1 := by
  have hcalls : calls (ops ++ [.onRtpPacket V o buf P]) = calls ops := by simp [calls]
  have hsame := sameSubscribers_onRtpPacket (P := P) (o := o) h.wf V buf
  refine ⟨h.wf.onRtpPacket, ?_, fun i S w hi => ?_, fun S c hc hP => ?_, fun p' c hl => ?_,
    fun p' hp' => ?_, fun w => ?_⟩
  · rw [nextConsumer_onRtpPacket, hcalls, h.next]
  · rw [hcalls] at hi
    rw [hsame.consumers, Follows, hsame.publisher, hsame.isVideo]
    exact h.consumer i S w hi
  · rw [hsame.consumers] at hc
    rw [hsame.publisher] at hP
    rw [hcalls, hsame.isVideo]
    exact h.only S c hc hP
  · rw [hsame.owned]
    rcases listed_onRtpPacket h.wf hl with hl | hc
    · exact h.owned p' c hl
    · exact hc
  · rcases producer_step h.wf (.onRtpPacket V o buf P) hp' with
      ⟨p, hp, hs, hv⟩ | ⟨V', o', buf', hdr, heq, hb, hs, hv⟩
    · rw [← hs, ← hv]
      exact h.ssrc p hp
    · obtain ⟨rfl, rfl, rfl, -⟩ := RouterOp.onRtpPacket.inj heq
      rw [hs, hv]
      exact hbuf hdr hb
  · rw [sent_append, ← h.kinds]
    cases hb : RtpHeader.parse buf with
    | none =>
      rw [onRtpPacket_short hb]
      simp [SendsKind, hb]
    | some hdr =>
      rw [kinds_onRtpPacket h.wf hb]
      have hsends : SendsKind w (.onRtpPacket V o buf P) ↔ decide (hdr.payloadType ∈ V) = w := by
        simp [SendsKind, hb]
      rw [hsends]
      cases hf : r.findProducer P hdr.ssrc with
      | none => simp
      | some p =>
        -- the stream that is found is of the kind of the packet
        obtain ⟨hp, hs⟩ := findProducer_some hf
        have hkind : p.isVideo = decide (hdr.payloadType ∈ V) := by
          rw [h.ssrc p hp, hbuf hdr hb] at hs
          by_contra hdiff
          cases hv : p.isVideo <;> cases hd : decide (hdr.payloadType ∈ V) <;> rw [hv, hd] at hs
          all_goals first | exact hdiff (hv.trans hd.symm) | exact hne hs | exact hne hs.symm
        constructor
        · intro hor
          rcases hor with hold | ⟨hnone, -⟩
          · exact .inl hold
          · cases hnone
        · intro hor
          rcases hor with hold | rfl
          · exact .inl hold
          · exact .inl ⟨p, hp, hkind⟩

theorem Made.exec (hw : r₀.Wf) (h : r₀.Unused P) (hne : ssrcOf true ≠ ssrcOf false)
    (hops : ∀ op ∈ ops, Streams P ssrcOf op) : Made r₀ P ssrcOf ops (Runs.exec step r₀ ops) := by
  induction ops using List.reverseRecOn with
  | nil => exact made_nil hw h
  | append_singleton ops op ih =>
    have ih := ih fun op' hop' => hops op' (List.mem_append_left _ hop')
    rw [Runs.exec_append]
    have hop := hops op (List.mem_append_right _ (List.mem_singleton_self op))
    cases op with
    | addConsumer S Q v d =>
      obtain rfl : Q = P := hop
      exact ih.addConsumer S v d
    | onRtpPacket V o buf Q =>
      obtain ⟨rfl, hbuf⟩ := hop
      exact ih.onRtpPacket hne hbuf
    | removePeer X => exact hop.elim
    | bindConsumerByMid S pid v mid => exact hop.elim
    | setTransport p ep d x => exact hop.elim

/-! ## The links -/

/-- The links to the streams of `P`, where the calls `subs` have made consumers from the reference
`first` on and the kinds `sent` have been sent. -/
structure LinksOf (r : Router) (P : PeerRef) (ssrcOf : Bool → UInt32) (first : ConsumerRef)
    (subs : List (PeerRef × Bool)) (sent : Bool → Prop) : Prop where
  consumer : ∀ i S v, subs[i]? = some (S, v) →
    first + i ∈ (r.peers S).consumers ∧ Follows P v (r.heap (first + i)) ∧
      (r.LinkedOnce P v (ssrcOf v) (first + i) ↔ sent v) ∧
      (¬ sent v → (r.heap (first + i)).publisherSsrc = 0)
  producer : ∀ v, sent v → ∃! p, p ∈ (r.peers P).producers ∧ p.isVideo = v
  /-- A list holds the consumers of its kind and no others. -/
  list : ∀ p ∈ (r.peers P).producers, p.originalSsrc = ssrcOf p.isVideo ∧ sent p.isVideo ∧
    ∀ c, c ∈ p.consumers → ∃ i S, c = first + i ∧ subs[i]? = some (S, p.isVideo)
  /-- No consumer waits while its producer exists. -/
  waiting : ∀ c, r.Owned c → (r.heap c).publisher = some P → (r.heap c).publisherSsrc = 0 →
    ∀ p ∈ (r.peers P).producers, p.isVideo ≠ (r.heap c).isVideo

theorem Made.linkedOnce_iff (h : Made r₀ P ssrcOf ops r) (h0 : ∀ v, ssrcOf v ≠ 0)
    {c : ConsumerRef} (hc : r.Owned c) (hf : Follows P v (r.heap c)) :
    r.LinkedOnce P v (ssrcOf v) c ↔ Sent ops v := by
  obtain ⟨hP, hv⟩ := hf
  rw [← h.kinds]
  constructor
  · intro hl
    obtain ⟨-, p, hp, hpv, -⟩ := hl
    exact ⟨p, hp, hpv⟩
  · intro hsent
    obtain ⟨p, hp, hpv⟩ := hsent
    have hps : p.originalSsrc = ssrcOf v := by rw [h.ssrc p hp, hpv]
    have hlinked : (r.heap c).publisherSsrc ≠ 0 := by
      intro hwait
      have hzero := h.wf.waiting c P hc hP hwait p hp (hpv.trans hv.symm)
      exact h0 v (hps.symm.trans hzero)
    obtain ⟨q, hl, hq⟩ := h.wf.linked c P hc hP hlinked
    -- the stream it is linked to is of its kind, so it is the one with the SSRC of the kind
    have hqv : q.isVideo = v := ((h.wf.listLink P q c hl).2.1).symm.trans hv
    have hqs : q.originalSsrc = ssrcOf v := by rw [h.ssrc q hl.1, hqv]
    exact ⟨hq.symm.trans hqs, q, hl.1, hqv, hqs,
      List.count_eq_one_of_mem (h.wf.listNodup P q hl.1) hl.2⟩

theorem Made.linksOf (h : Made r₀ P ssrcOf ops r) (h0 : ∀ v, ssrcOf v ≠ 0) :
    r.LinksOf P ssrcOf r₀.nextConsumer (calls ops) (Sent ops) where
  consumer i S v hi := by
    obtain ⟨hc, hf⟩ := h.consumer i S v hi
    refine ⟨hc, hf, h.linkedOnce_iff h0 ⟨S, hc⟩ hf, fun hnot => ?_⟩
    by_contra hlinked
    obtain ⟨q, hl, -⟩ := h.wf.linked _ P ⟨S, hc⟩ hf.1 hlinked
    have hqv : q.isVideo = v := ((h.wf.listLink P q _ hl).2.1).symm.trans hf.2
    exact hnot ((h.kinds v).1 ⟨q, hl.1, hqv⟩)
  producer v hsent := by
    obtain ⟨p, hp, hpv⟩ := (h.kinds v).2 hsent
    refine ⟨p, ⟨hp, hpv⟩, fun q hq => h.wf.producer_ext hq.1 hp ?_⟩
    rw [h.ssrc q hq.1, h.ssrc p hp, hq.2, hpv]
  list p hp := by
    refine ⟨h.ssrc p hp, (h.kinds _).1 ⟨p, hp, rfl⟩, fun c hc => ?_⟩
    obtain ⟨hP, hv, -⟩ := h.wf.listLink P p c ⟨hp, hc⟩
    obtain ⟨S, hcS⟩ := h.owned p c ⟨hp, hc⟩
    obtain ⟨i, hci, hi⟩ := h.only S c hcS hP
    exact ⟨i, S, hci, by rw [hi, hv]⟩
  waiting c hc hP hwait p hp hv :=
    h0 p.isVideo ((h.ssrc p hp).symm.trans (h.wf.waiting c P hc hP hwait p hp hv))

/-- **Subscribe-then-publish is publish-then-subscribe**: from any reachable state in which nothing
of `P` is there, the links after a run are given by its `addConsumer` calls and the kinds sent. -/
theorem linking_iff_sent (ids : PeerRef → String) (before : List RouterOp) (P : PeerRef)
    (ssrcOf : Bool → UInt32) (ops : List RouterOp)
    (hunused : (exec step (start ids) before).Unused P) (h0 : ∀ v, ssrcOf v ≠ 0)
    (hne : ssrcOf true ≠ ssrcOf false) (hops : ∀ op ∈ ops, Streams P ssrcOf op) :
    (exec step (exec step (start ids) before) ops).LinksOf P ssrcOf
      (exec step (start ids) before).nextConsumer (calls ops) (Sent ops) :=
  (Made.exec ((wf_start ids).exec before) hunused hne hops).linksOf h0

/-- A packet of the stream `s` of payload type `pt` from peer 2, where 96 is video. -/
def packetOf (pt s : UInt8) : RouterOp :=
  .onRtpPacket {96} ⟨fun _ _ b => some b, fun _ _ b => some b⟩
    [0x80, pt, 0, 1, 0, 0, 0, 0, 0, 0, 0, s] 2

/-- Peer 1 subscribes to the video of peer 2 before, and peer 3 after the first packet. -/
theorem linking_iff_sent_early_and_late :
    (exec step (start toString)
      [.addConsumer 1 2 true default, packetOf 96 7, .addConsumer 3 2 true default]).LinksOf 2
      (fun v => if v then 7 else 8) 0 [(1, true), (3, true)]
      (Sent [.addConsumer 1 2 true default, packetOf 96 7, .addConsumer 3 2 true default]) := by
  refine linking_iff_sent toString [] 2 (fun v => if v then 7 else 8)
    [.addConsumer 1 2 true default, packetOf 96 7, .addConsumer 3 2 true default]
    ⟨rfl, fun c hc => ?_⟩ (by decide) (by decide) ?_
  · obtain ⟨S, hc⟩ := hc
    cases hc
  · simp only [List.forall_mem_cons]
    exact ⟨rfl, ⟨rfl, by decide⟩, rfl, fun _ hop => absurd hop List.not_mem_nil⟩

/-- Audio and video of peer 2 have one SSRC: the video packet finds the producer of the audio, and
the subscriber to the video waits on. -/
theorem one_ssrc_for_both :
    ¬ ∀ (ids : PeerRef → String) (P : PeerRef) (ssrcOf : Bool → UInt32) (ops : List RouterOp),
      (∀ v, ssrcOf v ≠ 0) → (∀ op ∈ ops, Streams P ssrcOf op) →
      ∀ i S v, (calls ops)[i]? = some (S, v) →
        ((exec step (start ids) ops).LinkedOnce P v (ssrcOf v) i ↔ Sent ops v) := by
  intro h
  have hops : ∀ op ∈ [.addConsumer 1 2 true default, packetOf 111 7, packetOf 96 7],
      Streams 2 (fun _ => 7) op := by
    simp only [List.forall_mem_cons]
    exact ⟨rfl, ⟨rfl, by decide⟩, ⟨rfl, by decide⟩, fun _ hop => absurd hop List.not_mem_nil⟩
  have hsent : Sent [.addConsumer 1 2 true default, packetOf 111 7, packetOf 96 7] true :=
    ⟨packetOf 96 7, by simp, _, rfl, by decide⟩
  have hlinked := (h toString 2 (fun _ => 7) _ (by decide) hops 0 1 true rfl).2 hsent
  exact absurd hlinked.1 (by decide)

end Namecon.Router
