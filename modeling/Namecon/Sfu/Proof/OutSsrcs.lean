import Namecon.Sfu.Proof.Feedback
import Namecon.Sfu.Proof.Subscriptions

/-!
# Outgoing SSRCs

`_outSsrcToConsumer` has one entry for each outgoing SSRC. `allocateSsrc` draws at random and looks
at no SSRC in use, so a second consumer can draw the SSRC of a live one: `addConsumer` then
overwrites the entry, and the `removePeer` of either owner erases it.

* `OutSsrcs`: distinct SSRCs, an entry for every live consumer, and feedback that reaches its
  publisher.
* `always_outSsrcs_iff`: it holds along a run exactly when no consumer draws an SSRC in use
  (`FreshDraw`).
-/

namespace Namecon.Router

open Function (update)
open Runs (exec Always Meets)

variable {r r' : Router} {S P X : PeerRef} {v : Bool} {d : SsrcDraw}

/-- What the map from outgoing SSRCs to consumers is for. -/
structure OutSsrcs (r : Router) : Prop where
  distinct : ∀ c c', r.Owned c → r.Owned c' →
    (r.heap c).rewrittenSsrc = (r.heap c').rewrittenSsrc → c = c'
  found : ∀ c, r.Owned c → (r.heap c).active = true →
    r.findConsumerByOutSsrc (r.heap c).rewrittenSsrc = some c
  /-- Whatever names the outgoing SSRC of a consumer goes to the publisher of that consumer. -/
  reaches : ∀ c P, r.Owned c → (r.heap c).publisher = some P →
    ∀ srtp i (q : Request), q.outSsrc = (r.heap c).rewrittenSsrc →
      r.translateTo srtp i q =
        ((r.peers P).sendRtcp srtp i (q.build (r.heap c))).map (Prod.mk P)

/-- The step makes no consumer with the outgoing SSRC of another. -/
def FreshDraw (r : Router) : RouterOp → Prop
  | .addConsumer _ _ _ d => ∀ c, r.Owned c → (r.heap c).rewrittenSsrc ≠ allocateSsrc d
  | _ => True

/-- A consumer with a publisher is live, so `found` gives the rest. -/
theorem Wf.outSsrcs (hw : r.Wf)
    (distinct : ∀ c c', r.Owned c → r.Owned c' →
      (r.heap c).rewrittenSsrc = (r.heap c').rewrittenSsrc → c = c')
    (found : ∀ c, r.Owned c → (r.heap c).active = true →
      r.findConsumerByOutSsrc (r.heap c).rewrittenSsrc = some c) : r.OutSsrcs where
  distinct := distinct
  found := found
  reaches c P hc hP srtp i q hq := by
    have hactive : (r.heap c).active = true := hw.active c hc (by rw [hP]; simp)
    unfold translateTo
    rw [hq, found c hc hactive]
    dsimp only
    rw [hP]

/-! ## The steps -/

theorem outSsrcs_addConsumer (hw : r.Wf) (h : r.OutSsrcs) :
    (r.addConsumer S P v d).1.OutSsrcs ↔ r.FreshDraw (.addConsumer S P v d) := by
  have hold : ∀ c, r.Owned c → (r.addConsumer S P v d).1.heap c = r.heap c :=
    fun c hc => addConsumer_heap_old (hw.fresh c hc)
  have hnew : ((r.addConsumer S P v d).1.heap r.nextConsumer).rewrittenSsrc = d.val := by
    rw [addConsumer_heap_new]
    rfl
  constructor
  · intro h' c hc heq
    have hsame : ((r.addConsumer S P v d).1.heap c).rewrittenSsrc =
        ((r.addConsumer S P v d).1.heap r.nextConsumer).rewrittenSsrc := by
      rw [hold c hc, hnew]
      exact heq
    have hcn := h'.distinct c r.nextConsumer (owned_addConsumer.2 (.inl hc))
      (owned_addConsumer.2 (.inr rfl)) hsame
    exact Nat.ne_of_lt (hw.fresh c hc) hcn
  · intro hd
    have hd : ∀ c, r.Owned c → (r.heap c).rewrittenSsrc ≠ d.val := hd
    refine hw.addConsumer.outSsrcs ?_ ?_
    · intro c c' hc hc' heq
      rcases owned_addConsumer.1 hc with hc | rfl <;>
        rcases owned_addConsumer.1 hc' with hc' | rfl
      · rw [hold c hc, hold c' hc'] at heq
        exact h.distinct c c' hc hc' heq
      · rw [hold c hc, hnew] at heq
        exact absurd heq (hd c hc)
      · rw [hold c' hc', hnew] at heq
        exact absurd heq.symm (hd c' hc')
      · rfl
    · intro c hc hactive
      unfold findConsumerByOutSsrc
      rw [addConsumer_out]
      rcases owned_addConsumer.1 hc with hc | rfl
      · rw [hold c hc] at hactive ⊢
        rw [Function.update_of_ne (hd c hc)]
        exact h.found c hc hactive
      · rw [hnew, Function.update_self]

/-- The entries that `removePeer` erases are those of the consumers it retires or destroys, since
those SSRCs are theirs alone. -/
theorem OutSsrcs.removePeer (hw : r.Wf) (hn : r.NoDangling) (h : r.OutSsrcs) :
    (r.removePeer X).OutSsrcs := by
  refine (hw.removePeer X).outSsrcs ?_ ?_
  · intro c c' hc hc' heq
    rw [removePeer_heap, heapAfter_rewrittenSsrc, heapAfter_rewrittenSsrc] at heq
    exact h.distinct c c' ((owned_removePeer hw).1 hc).1 ((owned_removePeer hw).1 hc').1 heq
  · intro c hc hactive
    obtain ⟨hc, hX⟩ := (owned_removePeer hw).1 hc
    rw [removePeer_heap] at hactive ⊢
    rw [heapAfter_rewrittenSsrc]
    have haud : c ∉ r.audience X := by
      intro haud
      rw [heapAfter, if_pos haud] at hactive
      cases hactive
    rw [heapAfter, if_neg haud] at hactive
    apply (removePeer_out _ c).2
    refine ⟨h.found c hc hactive, fun x hx heq => ?_, fun x hx heq => ?_⟩
    · obtain ⟨p, hl⟩ := mem_audience.1 hx
      have hxc := h.distinct x c (hn X p x hl) hc heq
      exact haud (hxc ▸ hx)
    · have hxc := h.distinct x c ⟨X, hx⟩ hc heq
      exact hX (hxc ▸ hx)

/-- `r'` has the consumers and the map of `r`. -/
structure SameOut (r r' : Router) : Prop where
  subscribers : SameSubscribers r r'
  active : ∀ c, (r'.heap c).active = (r.heap c).active
  outSsrcToConsumer : r'.outSsrcToConsumer = r.outSsrcToConsumer

theorem SameLinks.sameOut (h : SameLinks r r') : SameOut r r' :=
  ⟨h.sameSubscribers, fun c => (h.heap c).active, h.outSsrcToConsumer⟩

theorem OutSsrcs.frame (hw : r'.Wf) (h : r.OutSsrcs) (hs : SameOut r r') : r'.OutSsrcs := by
  refine hw.outSsrcs ?_ ?_
  · intro c c' hc hc' heq
    rw [hs.subscribers.rewrittenSsrc, hs.subscribers.rewrittenSsrc] at heq
    exact h.distinct c c' (hs.subscribers.owned.1 hc) (hs.subscribers.owned.1 hc') heq
  · intro c hc hactive
    rw [hs.active] at hactive
    unfold findConsumerByOutSsrc
    rw [hs.subscribers.rewrittenSsrc, hs.outSsrcToConsumer]
    exact h.found c (hs.subscribers.owned.1 hc) hactive

theorem sameOut_onRtpPacket (hw : r.Wf) (V : Finset UInt8) (o : SrtpOracle) (buf : Bytes) :
    SameOut r (r.onRtpPacket V o buf P).1 := by
  have hsub := sameSubscribers_onRtpPacket (o := o) (P := P) hw V buf
  cases hp : RtpHeader.parse buf with
  | none => rw [onRtpPacket_short hp]; exact (SameLinks.refl r).sameOut
  | some hdr =>
    rw [onRtpPacket_parse hp] at hsub ⊢
    cases hf : r.findProducer P hdr.ssrc with
    | some p => rw [linkTargets_known hf]; exact (sameLinks_forward hp _ _).sameOut
    | none =>
      rw [linkTargets_new hf] at hsub ⊢
      have hmade : (r.createProducer o P hdr.ssrc (hdr.payloadType ∈ V)).1.outSsrcToConsumer =
          r.outSsrcToConsumer := createProducer_rest.2.2
      have hloop := sameLinks_forward (o := o) hp
        (r.createProducer o P hdr.ssrc (hdr.payloadType ∈ V)).2.1.consumers
        (r.createProducer o P hdr.ssrc (hdr.payloadType ∈ V)).1
      exact ⟨hsub, fun c => (hloop.heap c).active.trans
          (createProducer_field (o := o) Consumer.active (fun _ => rfl) c),
        hloop.outSsrcToConsumer.trans hmade⟩

theorem outSsrcs_step (hl : r.Linked) (h : r.OutSsrcs) (op : RouterOp) :
    (r.step op).OutSsrcs ↔ r.FreshDraw op := by
  have hw : (r.step op).Wf := hl.wf.step op
  cases op with
  | addConsumer S P v d => exact outSsrcs_addConsumer hl.wf h
  | removePeer X => exact iff_of_true (h.removePeer hl.wf hl.noDangling) trivial
  | bindConsumerByMid S pid v mid =>
    exact iff_of_true (h.frame hw (sameLinks_bind r S pid v mid).sameOut) trivial
  | onRtpPacket V o buf P =>
    exact iff_of_true (h.frame hw (sameOut_onRtpPacket hl.wf V o buf)) trivial
  | setTransport p ep d x =>
    exact iff_of_true (h.frame hw (sameLinks_setTransport r p ep d x).sameOut) trivial

/-! ## Runs -/

theorem outSsrcs_start (ids : PeerRef → String) : (start ids).OutSsrcs := by
  have hno : ∀ c, ¬ (start ids).Owned c := fun c hc => by
    obtain ⟨S, hc⟩ := hc
    cases hc
  exact (wf_start ids).outSsrcs (fun c _ hc => absurd hc (hno c)) fun c hc => absurd hc (hno c)

/-- **When the outgoing SSRCs stay unique.** Along every run of `addConsumer` and `removePeer`, with
binds, transport changes and packets of other SSRCs than 0 between them, the map serves every live
consumer exactly when no `addConsumer` draws the SSRC of a consumer that is owned. -/
theorem always_outSsrcs_iff (ids : PeerRef → String) (ops : List RouterOp)
    (hops : ∀ op ∈ ops, op.NoZeroPacket) :
    Always step OutSsrcs (start ids) ops ↔ Meets step FreshDraw (start ids) ops :=
  Runs.always_iff_meets_of (I := Linked) (D := fun _ => RouterOp.NoZeroPacket)
    (fun _ _ h hop => h.step hop) (fun _ op hl _ h => outSsrcs_step hl h op)
    (Runs.meets_of_forall hops) (linked_start ids) (outSsrcs_start ids)

/-- Peers 1 and 3 subscribe to peer 2 and draw the same SSRC. -/
def doubleDraw : List RouterOp := [.addConsumer 1 2 false default, .addConsumer 3 2 false default]

theorem always_outSsrcs_iff_doubleDraw : Always step OutSsrcs (start toString) doubleDraw ↔
    Meets step FreshDraw (start toString) doubleDraw :=
  always_outSsrcs_iff toString doubleDraw (by decide)

theorem doubleDraw_collides : ¬ Always step OutSsrcs (start toString) doubleDraw := by
  intro h
  have hlast : (exec step (start toString) doubleDraw).OutSsrcs := h.last
  have h01 := hlast.distinct 0 1 ⟨1, by decide⟩ ⟨3, by decide⟩ (by decide)
  cases h01

end Namecon.Router
