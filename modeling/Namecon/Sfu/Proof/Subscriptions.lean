import Namecon.Sfu.Proof.RemovePeer
import Namecon.Sfu.Proof.Forward

/-!
# Counting the consumers of a subscription

`subscriptions S P v` is the number of consumers of kind `v` that `S` owns with the publisher `P`.
`addConsumer` adds one to the count it is called for (`subscriptions_addConsumer`), `removePeer`
keeps those of the other peers (`subscriptions_removePeer`), and no other operation changes one
(`SameSubscribers`).
-/

namespace Namecon.Router

variable {r r' r'' : Router} {S P Q X : PeerRef} {v w : Bool} {d : SsrcDraw} {o : SrtpOracle}

/-- `k` is a consumer of the stream of kind `v` of `P`. -/
def Follows (P : PeerRef) (v : Bool) (k : Consumer) : Prop := k.publisher = some P ∧ k.isVideo = v

instance (P : PeerRef) (v : Bool) (k : Consumer) : Decidable (Follows P v k) :=
  inferInstanceAs (Decidable (_ ∧ _))

/-- How many consumers `S` owns for the kind `v` of `P`. -/
def subscriptions (r : Router) (S P : PeerRef) (v : Bool) : Nat :=
  (r.peers S).consumers.countP fun c => Follows P v (r.heap c)

theorem subscriptions_pos :
    0 < r.subscriptions S P v ↔ ∃ c ∈ (r.peers S).consumers, Follows P v (r.heap c) := by
  simp [subscriptions, List.countP_pos_iff]

theorem subscriptions_addConsumer (hw : r.Wf) : (r.addConsumer S P v d).1.subscriptions Q X w =
    r.subscriptions Q X w + if (S, P, v) = (Q, X, w) then 1 else 0 := by
  have hold : (r.peers Q).consumers.countP
      (fun c => Follows X w ((r.addConsumer S P v d).1.heap c)) = r.subscriptions Q X w :=
    List.countP_congr fun c hc => by rw [addConsumer_heap_old (hw.fresh c ⟨Q, hc⟩)]
  unfold subscriptions at hold ⊢
  rw [addConsumer_consumers]
  by_cases hQ : Q = S
  · subst hQ
    have hnew : Follows X w ((r.addConsumer Q P v d).1.heap r.nextConsumer) ↔ P = X ∧ v = w := by
      rw [addConsumer_heap_new]
      exact and_congr_left' Option.some_inj
    rw [if_pos rfl, List.countP_append, hold, List.countP_singleton]
    simp only [decide_eq_true_eq, hnew, Prod.mk.injEq, true_and]
  · rw [if_neg hQ, if_neg fun h => hQ (congrArg Prod.fst h).symm, hold, Nat.add_zero]

theorem follows_heapAfter (hw : r.Wf) (hP : P ≠ X) {c : ConsumerRef} :
    Follows P v (r.heapAfter X c) ↔ Follows P v (r.heap c) := by
  rw [Follows, Follows, heapAfter_publisher, heapAfter_isVideo]
  refine and_congr_left' (and_iff_right_of_imp fun hc haud => ?_)
  -- what is retired has the publisher `X`
  obtain ⟨p, hl⟩ := mem_audience.1 haud
  exact hP (Option.some.inj (hc.symm.trans (hw.listLink X p c hl).1))

theorem subscriptions_removePeer (hw : r.Wf) (hS : S ≠ X) (hP : P ≠ X) :
    (r.removePeer X).subscriptions S P v = r.subscriptions S P v := by
  unfold subscriptions
  rw [removePeer_consumers, if_neg hS]
  exact List.countP_congr fun c _ => by
    simp only [decide_eq_true_eq, removePeer_heap, follows_heapAfter hw hP]

/-! ## Operations that keep every count -/

/-- `r'` has the consumers of `r`, each of the same stream and with the same SSRC. -/
structure SameSubscribers (r r' : Router) : Prop where
  consumers : ∀ p, (r'.peers p).consumers = (r.peers p).consumers
  publisher : ∀ c, (r'.heap c).publisher = (r.heap c).publisher
  isVideo : ∀ c, (r'.heap c).isVideo = (r.heap c).isVideo
  rewrittenSsrc : ∀ c, (r'.heap c).rewrittenSsrc = (r.heap c).rewrittenSsrc

theorem SameSubscribers.trans (h : SameSubscribers r r') (h' : SameSubscribers r' r'') :
    SameSubscribers r r'' :=
  ⟨fun p => (h'.consumers p).trans (h.consumers p), fun c => (h'.publisher c).trans (h.publisher c),
    fun c => (h'.isVideo c).trans (h.isVideo c),
    fun c => (h'.rewrittenSsrc c).trans (h.rewrittenSsrc c)⟩

theorem SameSubscribers.owned (h : SameSubscribers r r') {c : ConsumerRef} :
    r'.Owned c ↔ r.Owned c := by
  simp only [Owned, h.consumers]

theorem SameSubscribers.subscriptions (h : SameSubscribers r r') :
    r'.subscriptions S P v = r.subscriptions S P v := by
  unfold Router.subscriptions
  rw [h.consumers]
  refine List.countP_congr fun c _ => ?_
  rw [decide_eq_true_eq, decide_eq_true_eq, Follows, Follows, h.publisher, h.isVideo]

theorem SameLinks.sameSubscribers (h : SameLinks r r') : SameSubscribers r r' :=
  ⟨h.consumers, fun c => (h.heap c).publisher, fun c => (h.heap c).isVideo,
    fun c => (h.heap c).rewrittenSsrc⟩

theorem sameSubscribers_onRtpPacket (hw : r.Wf) (V : Finset UInt8) (buf : Bytes) :
    SameSubscribers r (r.onRtpPacket V o buf P).1 := by
  cases hp : RtpHeader.parse buf with
  | none => rw [onRtpPacket_short hp]; exact (SameLinks.refl r).sameSubscribers
  | some hdr =>
    rw [onRtpPacket_parse hp]
    refine .trans ?_ (sameLinks_forward hp _ _).sameSubscribers
    cases hf : r.findProducer P hdr.ssrc with
    | some p => rw [linkTargets_known hf]; exact (SameLinks.refl r).sameSubscribers
    | none =>
      rw [linkTargets_new hf]
      exact ⟨fun _ => createProducer_consumers (o := o) hw,
        createProducer_field (o := o) Consumer.publisher fun _ => rfl,
        createProducer_field (o := o) Consumer.isVideo fun _ => rfl,
        createProducer_field (o := o) Consumer.rewrittenSsrc fun _ => rfl⟩

/-- A packet makes a producer for its sender alone. -/
theorem onRtpPacket_producers (hw : r.Wf) (V : Finset UInt8) (buf : Bytes) (hQ : Q ≠ P) :
    ((r.onRtpPacket V o buf P).1.peers Q).producers = (r.peers Q).producers := by
  cases hp : RtpHeader.parse buf with
  | none => rw [onRtpPacket_short hp]
  | some hdr =>
    rw [onRtpPacket_parse hp]
    dsimp only
    rw [forward_peers hp]
    cases hf : r.findProducer P hdr.ssrc with
    | some p => rw [linkTargets_known hf]
    | none => rw [linkTargets_new hf, createProducer_producers hw, if_neg hQ]

end Namecon.Router
