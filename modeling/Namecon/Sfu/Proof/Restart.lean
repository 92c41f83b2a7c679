import Namecon.Sfu.Proof.Exact

/-!
# A stream that restarts under a new SSRC

A consumer is linked once, to the first stream of its kind; nothing moves it to another one.

* `restart_flows_iff`: a packet reaches all the consumers of its publisher and kind exactly when
  each is linked to its SSRC already, or waits for it.
* `restart_stalls`: once the publisher sends the kind, no consumer is ever linked to a stream that
  starts later, for as long as the publisher stays.
-/

namespace Namecon.Router

open Runs (exec)

variable {r : Router} {o : SrtpOracle} {P S : PeerRef} {s : UInt32} {v : Bool} {buf : Bytes}
  {c : ConsumerRef} {ctx : SrtpContext} {data : Bytes} {hdr : RtpHeader}

/-- `c`, a consumer of `S` for the kind `v` of `P`, is active and bound, and SRTP works. -/
structure Subscribes (r : Router) (o : SrtpOracle) (buf : Bytes) (P : PeerRef) (v : Bool)
    (c : ConsumerRef) (S : PeerRef) (ctx : SrtpContext) (data : Bytes) : Prop where
  owned : c ∈ (r.peers S).consumers
  publisher : (r.heap c).publisher = some P
  isVideo : (r.heap c).isVideo = v
  active : (r.heap c).active = true
  recvMid : (r.heap c).recvMid ≠ ""
  srtp : (r.peers S).srtp = some ctx
  protect : o.protect c ctx (withSsrc buf (r.heap c).rewrittenSsrc) = some data

/-- The packet goes out for the consumer `c` of `S`, and is counted. -/
def ForwardedTo (r : Router) (buf : Bytes) (c : ConsumerRef) (S : PeerRef) (data : Bytes)
    (out : Router × List Datagram) : Prop :=
  r.delivery buf c S data ∈ out.2 ∧
    (out.1.heap c).packetsSent = (r.heap c).packetsSent + 1

/-- The packet `buf` of kind `v` from `P` goes out for every consumer of the kind. -/
def Flows (r : Router) (o : SrtpOracle) (buf : Bytes) (P : PeerRef) (v : Bool)
    (out : Router × List Datagram) : Prop :=
  ∀ c S ctx data, r.Subscribes o buf P v c S ctx data → r.ForwardedTo buf c S data out

/-- Every consumer of the kind is linked to the SSRC `s`, or waits for it. -/
def AllLinkable (r : Router) (o : SrtpOracle) (buf : Bytes) (P : PeerRef) (s : UInt32)
    (v : Bool) : Prop :=
  ∀ c S ctx data, r.Subscribes o buf P v c S ctx data → (r.heap c).publisherSsrc = s ∨
    ((r.heap c).publisherSsrc = 0 ∧ r.findProducer P s = none)

/-! ## One packet -/

theorem mem_targets (hw : r.Wf) (h0 : s ≠ 0) (hc : r.Owned c)
    (hP : (r.heap c).publisher = some P) :
    c ∈ (r.linkTargets o P s v).2.1 ↔ r.ssrcAfterLinking P s v c = s := by
  obtain ⟨p, hp, hps, ht⟩ := linkTargets_spec (o := o) (P := P) (s := s) (v := v) hw
  rw [ht, hw.linkTargets.mem_list hp (hps ▸ h0) ((owned_linkTargets hw).2 hc),
    linkTargets_heap_owned hw hc, hps]
  exact and_iff_right hP

theorem Subscribes.linkable_iff (hs : r.Subscribes o buf P v c S ctx data) :
    r.ssrcAfterLinking P s v c = s ↔ (r.heap c).publisherSsrc = s ∨
      ((r.heap c).publisherSsrc = 0 ∧ r.findProducer P s = none) := by
  unfold ssrcAfterLinking Waits
  split
  · rename_i h; exact iff_of_true rfl (.inr ⟨h.2.2.2, h.1⟩)
  · rename_i h
    exact ⟨.inl, fun h' => h'.elim id fun ⟨h1, h2⟩ =>
      absurd ⟨h2, hs.publisher, hs.isVideo, h1⟩ h⟩

theorem Subscribes.receives (hw : r.Wf) (hs : r.Subscribes o buf P v c S ctx data) :
    (r.linkTargets o P s v).1.Receives c S ctx := by
  obtain ⟨ps, hS⟩ := linkTargets_peer (o := o) (P := P) (s := s) (v := v) hw S
  have hk := linkTargets_heap_owned (o := o) (P := P) (s := s) (v := v) hw ⟨S, hs.owned⟩
  exact ⟨by rw [hk]; exact hs.active, by rw [hk]; exact hw.subscriber S c hs.owned,
    by rw [hS]; exact hs.srtp, by rw [hk]; exact hs.recvMid⟩

/-- A consumer gets the packet exactly when it is one of the targets. -/
theorem Subscribes.forwardedTo_iff (hw : r.Wf) (hp : RtpHeader.parse buf = some hdr)
    {V : Finset UInt8} (hs : r.Subscribes o buf P (hdr.payloadType ∈ V) c S ctx data) :
    r.ForwardedTo buf c S data (r.onRtpPacket V o buf P) ↔
      c ∈ (r.linkTargets o P hdr.ssrc (hdr.payloadType ∈ V)).2.1 := by
  have hk := linkTargets_heap_owned (o := o) (P := P) (s := hdr.ssrc)
    (v := hdr.payloadType ∈ V) hw ⟨S, hs.owned⟩
  have hsent : ((r.linkTargets o P hdr.ssrc (hdr.payloadType ∈ V)).1.heap c).packetsSent =
      (r.heap c).packetsSent := by rw [hk]; rfl
  have hssrc : ((r.linkTargets o P hdr.ssrc (hdr.payloadType ∈ V)).1.heap c).rewrittenSsrc =
      (r.heap c).rewrittenSsrc := by rw [hk]; rfl
  have hprot := hs.protect
  rw [← hssrc] at hprot
  unfold ForwardedTo
  rw [onRtpPacket_heap hp hw]
  constructor
  · intro h
    obtain ⟨-, hcount⟩ := h
    by_contra ht
    rw [if_neg ht, hsent] at hcount
    simp at hcount
  · intro ht
    rw [if_pos ht, forwardOne_receives (hs.receives hw) hp, hprot]
    refine ⟨?_, ?_⟩
    · rw [onRtpPacket_parse hp]
      refine List.mem_append_right _ ?_
      rw [forward_datagrams hp _ (nodup_targets hw), List.mem_flatMap]
      exact ⟨c, ht, (mem_forwardOne hp).2 ⟨S, ctx, data, hs.receives hw, hprot,
        (delivery_linkTargets hw ⟨S, hs.owned⟩).symm⟩⟩
    · rw [modifyConsumer_self]
      exact congrArg (· + 1) hsent

theorem Wf.flows_iff (hw : r.Wf) (hp : RtpHeader.parse buf = some hdr) (h0 : hdr.ssrc ≠ 0)
    (V : Finset UInt8) : r.Flows o buf P (hdr.payloadType ∈ V) (r.onRtpPacket V o buf P) ↔
      r.AllLinkable o buf P hdr.ssrc (hdr.payloadType ∈ V) := by
  refine forall₅_congr fun c S ctx data hs => ?_
  rw [hs.forwardedTo_iff hw hp, mem_targets hw h0 ⟨S, hs.owned⟩ hs.publisher, hs.linkable_iff]

/-- **When the packets of a stream reach everyone**, in every reachable state. -/
theorem restart_flows_iff (ids : PeerRef → String) (ops : List RouterOp) (V : Finset UInt8)
    (o : SrtpOracle) (buf : Bytes) (P : PeerRef) :
    ∀ hdr ∈ RtpHeader.parse buf, hdr.ssrc ≠ 0 →
      ((exec step (start ids) ops).Flows o buf P (hdr.payloadType ∈ V)
        ((exec step (start ids) ops).onRtpPacket V o buf P) ↔
      (exec step (start ids) ops).AllLinkable o buf P hdr.ssrc (hdr.payloadType ∈ V)) :=
  fun _ hp h0 => ((wf_start ids).exec ops).flows_iff hp h0 V

/-- Peer 1 is bound to the video of peer 2, which has sent it under the SSRC 7. -/
def cameraRun : List RouterOp :=
  [.addConsumer 1 2 true default,
    .bindConsumerByMid 1 "2" true "0",
    .setTransport 1 ⟨1, 1⟩ (some ⟨⟨1, 1⟩, true⟩) (some ⟨[]⟩),
    .onRtpPacket {96} ⟨fun _ _ b => some b, fun _ _ b => some b⟩
      [0x80, 96, 0, 1, 0, 0, 0, 0, 0, 0, 0, 7] 2]

theorem restart_flows_iff_cameraRun :
    let r := exec step (start toString) cameraRun
    let o : SrtpOracle := ⟨fun _ _ b => some b, fun _ _ b => some b⟩
    let buf : Bytes := [0x80, 96, 0, 2, 0, 0, 0, 0, 0, 0, 0, 7]
    ∃ hdr ∈ RtpHeader.parse buf, hdr.ssrc ≠ 0 ∧
      (r.Flows o buf 2 (hdr.payloadType ∈ ({96} : Finset UInt8)) (r.onRtpPacket {96} o buf 2) ↔
        r.AllLinkable o buf 2 hdr.ssrc (hdr.payloadType ∈ ({96} : Finset UInt8))) :=
  ⟨_, rfl, by decide, restart_flows_iff toString cameraRun {96} _ _ 2 _ rfl (by decide)⟩

/-- The camera restarts under the SSRC 8. -/
theorem cameraRun_stalls :
    let r := exec step (start toString) cameraRun
    let o : SrtpOracle := ⟨fun _ _ b => some b, fun _ _ b => some b⟩
    let buf : Bytes := [0x80, 96, 0, 2, 0, 0, 0, 0, 0, 0, 0, 8]
    ¬ r.Flows o buf 2 true (r.onRtpPacket {96} o buf 2) := by
  intro r o buf h
  have hs : r.Subscribes o buf 2 true 0 1 ⟨[]⟩ (withSsrc buf 0x40000000) :=
    ⟨by decide, by decide, by decide, by decide, by decide, by decide, by decide⟩
  exact absurd (h 0 1 ⟨[]⟩ _ hs).2 (by decide)

/-! ## After a restart -/

/-- `P` sends the kind `v` under another SSRC than `s`, and no consumer of the kind is linked to
`s`. -/
structure Stalled (r : Router) (P : PeerRef) (v : Bool) (s : UInt32) : Prop where
  started : r.firstSsrc P v ≠ 0
  other : r.firstSsrc P v ≠ s
  unlinked : ∀ c, r.Owned c → (r.heap c).publisher = some P → (r.heap c).isVideo = v →
    (r.heap c).publisherSsrc ≠ s

theorem Stalled.of_started (hw : r.Wf) {p : Producer} (hp : p ∈ (r.peers P).producers)
    (hv : p.isVideo = v) (h0 : p.originalSsrc ≠ 0) (hs0 : s ≠ 0)
    (hs : r.findProducer P s = none) : r.Stalled P v s := by
  have hstart : r.firstSsrc P v ≠ 0 := fun h => h0 (firstSsrc_eq_zero h p hp hv)
  refine ⟨hstart, fun h => ?_, fun c hc hP _ hcs => ?_⟩
  · obtain ⟨q, hq, -, hqs⟩ := firstSsrc_ne_zero hstart
    exact findProducer_none.1 hs q hq (hqs.trans h)
  · obtain ⟨q, hl, hqs⟩ := hw.linked c P hc hP (hcs ▸ hs0)
    exact findProducer_none.1 hs q hl.1 (hqs.trans hcs)

/-- No consumer of a kind that is sent waits. -/
theorem Stalled.not_waiting (hw : r.Wf) (h : r.Stalled P v s) (hc : r.Owned c) :
    ¬ Waits P v (r.heap c) := by
  intro h
  obtain ⟨hP, hv, h0⟩ := h
  obtain ⟨p, hp, hpv, hps⟩ := firstSsrc_ne_zero h.started
  exact h.started (hps ▸ hw.waiting c P hc hP h0 p hp (hpv.trans hv.symm))

/-- The first stream of the kind stays the first. -/
theorem firstSsrc_map {r' : Router} {g : Producer → Producer}
    (hg : ∀ p, (g p).originalSsrc = p.originalSsrc ∧ (g p).isVideo = p.isVideo)
    (h : (r'.peers P).producers = (r.peers P).producers.map g) :
    r'.firstSsrc P v = r.firstSsrc P v := by
  have hlinks : linksTo v ∘ g = linksTo v := by
    funext p
    simp [linksTo, hg p]
  unfold firstSsrc
  rw [h, List.find?_map, hlinks]
  cases (r.peers P).producers.find? (linksTo v) with
  | none => rfl
  | some p => exact (hg p).1

theorem firstSsrc_append {r' : Router} {ps : List Producer} (hr : r.firstSsrc P v ≠ 0)
    (h : (r'.peers P).producers = (r.peers P).producers ++ ps) :
    r'.firstSsrc P v = r.firstSsrc P v := by
  unfold firstSsrc at hr ⊢
  rw [h, List.find?_append]
  cases hf : (r.peers P).producers.find? (linksTo v) with
  | none => rw [hf] at hr; exact absurd rfl hr
  | some p => rfl

theorem Stalled.frame {r' : Router} (h : r.Stalled P v s)
    (hfirst : r'.firstSsrc P v = r.firstSsrc P v)
    (hc : ∀ c, r'.Owned c → (r'.heap c).publisher = some P → (r'.heap c).isVideo = v →
      r.Owned c ∧ (r.heap c).publisher = some P ∧ (r.heap c).isVideo = v ∧
        (r'.heap c).publisherSsrc = (r.heap c).publisherSsrc) : r'.Stalled P v s := by
  refine ⟨hfirst ▸ h.started, hfirst ▸ h.other, fun c ho hP hv => ?_⟩
  obtain ⟨ho, hP, hv, hs⟩ := hc c ho hP hv
  rw [hs]
  exact h.unlinked c ho hP hv

theorem Stalled.sameLinks {r' : Router} (h : r.Stalled P v s) (hl : SameLinks r r') :
    r'.Stalled P v s := by
  refine h.frame (firstSsrc_map (g := id) (fun _ => ⟨rfl, rfl⟩) ?_) fun c ho hP hv => ?_
  · rw [hl.producers, List.map_id]
  · rw [(hl.heap c).publisher] at hP
    rw [(hl.heap c).isVideo] at hv
    exact ⟨(hl.owned c).1 ho, hP, hv, (hl.heap c).publisherSsrc⟩

theorem Stalled.linkTargets (hw : r.Wf) (h : r.Stalled P v s) (Q : PeerRef) (t : UInt32)
    (w : Bool) : (r.linkTargets o Q t w).1.Stalled P v s := by
  cases hf : r.findProducer Q t with
  | some p => rw [linkTargets_known hf]; exact h
  | none =>
    rw [linkTargets_new hf]
    refine h.frame ?_ fun c ho hP hv => ?_
    · by_cases hQ : P = Q
      · subst hQ
        exact firstSsrc_append h.started
          ((createProducer_producers (o := o) hw).trans (if_pos rfl))
      · refine firstSsrc_map (g := id) (fun _ => ⟨rfl, rfl⟩) ?_
        rw [createProducer_producers hw, if_neg hQ, List.map_id]
    · have ho' := (owned_createProducer (o := o) hw).1 ho
      rw [createProducer_field Consumer.publisher fun _ => rfl] at hP
      rw [createProducer_field Consumer.isVideo fun _ => rfl] at hv
      refine ⟨ho', hP, hv, ?_⟩
      -- a consumer that is linked now would have waited for the stream
      rw [createProducer_heap, if_neg]
      intro hm
      obtain ⟨-, hQ, -, h0⟩ := hw.mem_waitingFor.1 hm
      exact h.not_waiting hw ho' ⟨hP, hv, h0⟩

theorem Stalled.step (hw : r.Wf) (h : r.Stalled P v s) {op : RouterOp}
    (hop : op ≠ .removePeer P) : (r.step op).Stalled P v s := by
  cases op with
  | addConsumer S Q w d =>
    have hfirst : (r.addConsumer S Q w d).1.firstSsrc P v = r.firstSsrc P v := by
      refine firstSsrc_map (g := fun p => if P = Q then r.relink Q w p else p) (fun p => ?_) ?_
      · split
        · exact ⟨relink_ssrc p, relink_isVideo p⟩
        · exact ⟨rfl, rfl⟩
      · rw [addConsumer_producers hw.ssrcNodup]
        split
        · rename_i hQ; subst hQ; rfl
        · rw [List.map_id']
    refine ⟨hfirst ▸ h.started, hfirst ▸ h.other, fun c ho hP hv => ?_⟩
    rcases owned_addConsumer.1 ho with ho | rfl
    · simp only [Router.step, addConsumer_heap_old (hw.fresh c ho)] at hP hv ⊢
      exact h.unlinked c ho hP hv
    · simp only [Router.step, addConsumer_heap_new] at hP hv ⊢
      obtain rfl : Q = P := Option.some.inj hP
      obtain rfl : w = v := hv
      exact h.other
  | removePeer X =>
    have hX : P ≠ X := fun hX => hop (hX ▸ rfl)
    refine h.frame (firstSsrc_map (g := r.afterRemove X P) (fun _ => ⟨rfl, rfl⟩) ?_)
      fun c ho hP hv => ?_
    · simp only [Router.step]
      rw [removePeer_producers (hw.ssrcNodup P), if_neg hX]
    · simp only [Router.step, removePeer_heap, heapAfter_isVideo,
        heapAfter_publisherSsrc] at hP hv ⊢
      exact ⟨((owned_removePeer hw).1 ho).1, (heapAfter_publisher.1 hP).2, hv, trivial⟩
  | bindConsumerByMid S pid w mid => exact h.sameLinks (sameLinks_bind r S pid w mid)
  | onRtpPacket V o buf Q =>
    simp only [Router.step]
    cases hp : RtpHeader.parse buf with
    | none => rw [onRtpPacket_short hp]; exact h
    | some hdr =>
      rw [onRtpPacket_parse hp]
      exact (h.linkTargets hw Q _ _).sameLinks (sameLinks_forward hp _ _)
  | setTransport p ep d x => exact h.sameLinks (sameLinks_setTransport r p ep d x)

/-- **A stream that starts later stalls.** From a state in which `P` sends the kind `v` and no
stream `s`, for as long as `P` is not removed no consumer of the kind gets a packet of `s`. -/
theorem restart_stalls (hw : r.Wf) {p : Producer} (hp : p ∈ (r.peers P).producers)
    (hv : p.isVideo = v) (h0 : p.originalSsrc ≠ 0) (hs0 : s ≠ 0) (hs : r.findProducer P s = none)
    (ops : List RouterOp) (hops : ∀ op ∈ ops, op ≠ .removePeer P) (V : Finset UInt8)
    (hb : RtpHeader.parse buf = some hdr) (hbs : hdr.ssrc = s)
    (hbv : decide (hdr.payloadType ∈ V) = v)
    (hsub : (exec step r ops).Subscribes o buf P v c S ctx data) :
    ¬ (exec step r ops).ForwardedTo buf c S data ((exec step r ops).onRtpPacket V o buf P) := by
  subst hbs hbv
  have hinv : (exec step r ops).Wf ∧ (exec step r ops).Stalled P (hdr.payloadType ∈ V) hdr.ssrc :=
    Runs.exec_inv (I := fun x : Router => x.Wf ∧ x.Stalled P (hdr.payloadType ∈ V) hdr.ssrc)
      (G := fun _ op => op ≠ RouterOp.removePeer P)
      (fun _ op h hop => ⟨h.1.step op, h.2.step h.1 hop⟩)
      ⟨hw, .of_started hw hp hv h0 hs0 hs⟩ (Runs.meets_of_forall hops)
  obtain ⟨hw', hst⟩ := hinv
  have ho : (exec step r ops).Owned c := ⟨S, hsub.owned⟩
  rw [hsub.forwardedTo_iff hw' hb, mem_targets hw' hs0 ho hsub.publisher, hsub.linkable_iff]
  intro h
  rcases h with h | ⟨h, -⟩
  · exact hst.unlinked c ho hsub.publisher hsub.isVideo h
  · exact hst.not_waiting hw' ho ⟨hsub.publisher, hsub.isVideo, h⟩

end Namecon.Router
