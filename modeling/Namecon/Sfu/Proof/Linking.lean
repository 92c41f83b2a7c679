import Namecon.Sfu.Proof.Wf

/-!
# The first packet of a stream

`findOrCreateProducer` links every consumer that waits for the stream and for no other reason
(`linkWaiting_heap`, `linkWaiting_list`). Under the invariant those are the owned consumers of the
publisher and kind with `publisherSsrc = 0` (`Wf.mem_waitingFor`), each taken once;
`Wf.createProducer` follows. `linkTargets_spec` is what the forwarding loop may rely on.
-/

namespace Namecon.Router

open Function (update)

variable {r : Router} {P Q : PeerRef} {s : UInt32} {v : Bool}

/-! ## The linking loop -/

/-- A consumer linked to the stream `s`. -/
def linkedTo (s : UInt32) (k : Consumer) : Consumer := { k with publisherSsrc := s }

theorem linkWaiting_heap (l : List ConsumerRef) (r : Router) (c : ConsumerRef) :
    (linkWaiting P s v l r).1.heap c =
      if c ∈ l ∧ Waits P v (r.heap c) then linkedTo s (r.heap c) else r.heap c := by
  induction l generalizing r with
  | nil => simp [linkWaiting]
  | cons x l ih =>
    unfold linkWaiting
    by_cases hx : Waits P v (r.heap x)
    · rw [if_pos hx, ih]
      by_cases hc : c = x
      · subst hc
        rw [modifyConsumer_self, if_pos (⟨.head _, hx⟩ : c ∈ c :: l ∧ _)]
        split <;> rfl
      · rw [modifyConsumer_ne _ _ _ hc]
        simp [hc]
    · rw [if_neg hx, ih]
      by_cases hc : c = x
      · subst hc; simp [hx]
      · simp [hc]

theorem linkWaiting_list (l : List ConsumerRef) (r : Router) (hl : l.Nodup) :
    (linkWaiting P s v l r).2 = l.filter fun c => Waits P v (r.heap c) := by
  induction l generalizing r with
  | nil => rfl
  | cons x l ih =>
    obtain ⟨hx, hl⟩ := List.nodup_cons.1 hl
    unfold linkWaiting
    by_cases hw : Waits P v (r.heap x)
    · rw [if_pos hw, List.filter_cons_of_pos (by simpa using hw)]
      refine congrArg (x :: ·) ((ih _ hl).trans (List.filter_congr fun c hc => ?_))
      have hne : c ≠ x := fun h => hx (h ▸ hc)
      rw [modifyConsumer_ne _ _ _ hne]
    · rw [if_neg hw, List.filter_cons_of_neg (by simpa using hw)]
      exact ih r hl

theorem linkWaiting_rest (l : List ConsumerRef) (r : Router) :
    (linkWaiting P s v l r).1.peers = r.peers ∧
      (linkWaiting P s v l r).1.nextConsumer = r.nextConsumer ∧
      (linkWaiting P s v l r).1.allPeers = r.allPeers ∧
      (linkWaiting P s v l r).1.outSsrcToConsumer = r.outSsrcToConsumer := by
  induction l generalizing r with
  | nil => exact ⟨rfl, rfl, rfl, rfl⟩
  | cons x l ih =>
    unfold linkWaiting
    split
    · exact ih _
    · exact ih r

/-! ## The consumers it visits -/

theorem Wf.mem_allConsumers (hw : r.Wf) {c : ConsumerRef} : c ∈ r.allConsumers ↔ r.Owned c := by
  rw [allConsumers, List.mem_flatMap]
  exact ⟨fun ⟨S, _, hc⟩ => ⟨S, hc⟩, fun ⟨S, hc⟩ => ⟨S, hw.registered S c hc, hc⟩⟩

theorem Wf.nodup_allConsumers (hw : r.Wf) : r.allConsumers.Nodup := by
  rw [allConsumers, List.nodup_flatMap]
  refine ⟨fun S _ => hw.ownNodup S, hw.peersNodup.imp fun {S S'} hne => ?_⟩
  exact fun c hc hc' => hne (hw.owner_unique hc hc')

/-- The consumers that the first packet of a stream of `P` of kind `v` is linked to. -/
def waitingFor (r : Router) (P : PeerRef) (v : Bool) : List ConsumerRef :=
  r.allConsumers.filter fun c => Waits P v (r.heap c)

theorem Wf.mem_waitingFor (hw : r.Wf) {c : ConsumerRef} :
    c ∈ r.waitingFor P v ↔ r.Owned c ∧ Waits P v (r.heap c) := by
  rw [waitingFor, List.mem_filter, hw.mem_allConsumers, decide_eq_true_eq]

/-! ## `createProducer` -/

section
variable {o : SrtpOracle}

/-- The producer of a stream that starts. -/
def newProducer (r : Router) (P : PeerRef) (s : UInt32) (v : Bool) : Producer :=
  { publisher := P, originalSsrc := s, isVideo := v, consumers := r.waitingFor P v }

theorem createProducer_producer (hw : r.Wf) :
    (r.createProducer o P s v).2.1 = r.newProducer P s v := by
  simp only [createProducer, newProducer]
  rw [linkWaiting_list _ _ hw.nodup_allConsumers]
  rfl

theorem createProducer_heap (c : ConsumerRef) : (r.createProducer o P s v).1.heap c =
    if c ∈ r.waitingFor P v then linkedTo s (r.heap c) else r.heap c := by
  simp only [createProducer, modifyPeer_heap, linkWaiting_heap, waitingFor, List.mem_filter,
    decide_eq_true_eq]

theorem createProducer_peers (hw : r.Wf) : (r.createProducer o P s v).1.peers =
    update r.peers P { r.peers P with
      producers := (r.peers P).producers ++ [r.newProducer P s v] } := by
  have hp := createProducer_producer (s := s) (P := P) (v := v) (o := o) hw
  simp only [createProducer] at hp
  simp only [createProducer, hp]
  simp only [modifyPeer, (linkWaiting_rest _ _).1]

theorem createProducer_rest : (r.createProducer o P s v).1.nextConsumer = r.nextConsumer ∧
    (r.createProducer o P s v).1.allPeers = r.allPeers ∧
    (r.createProducer o P s v).1.outSsrcToConsumer = r.outSsrcToConsumer :=
  ⟨(linkWaiting_rest _ _).2.1, (linkWaiting_rest _ _).2.2.1, (linkWaiting_rest _ _).2.2.2⟩

theorem createProducer_consumers (hw : r.Wf) :
    ((r.createProducer o P s v).1.peers Q).consumers = (r.peers Q).consumers := by
  rw [createProducer_peers hw]
  by_cases hQ : Q = P
  · subst hQ; rw [Function.update_self]
  · rw [Function.update_of_ne hQ]

theorem createProducer_producers (hw : r.Wf) :
    ((r.createProducer o P s v).1.peers Q).producers =
      if Q = P then (r.peers P).producers ++ [r.newProducer P s v] else (r.peers Q).producers := by
  rw [createProducer_peers hw]
  by_cases hQ : Q = P
  · subst hQ; rw [Function.update_self, if_pos rfl]
  · rw [Function.update_of_ne hQ, if_neg hQ]

theorem owned_createProducer (hw : r.Wf) {c : ConsumerRef} :
    (r.createProducer o P s v).1.Owned c ↔ r.Owned c := by
  simp only [Owned, createProducer_consumers hw]

theorem mem_createProducer_producers (hw : r.Wf) {p : Producer} :
    p ∈ ((r.createProducer o P s v).1.peers Q).producers ↔
      p ∈ (r.peers Q).producers ∨ (Q = P ∧ p = r.newProducer P s v) := by
  rw [createProducer_producers hw]
  split
  · rename_i h; subst h; simp
  · rename_i h; simp [h]

theorem listed_createProducer (hw : r.Wf) {p : Producer} {c : ConsumerRef} :
    (r.createProducer o P s v).1.Listed Q p c ↔ r.Listed Q p c ∨
      (Q = P ∧ p = r.newProducer P s v ∧ c ∈ r.waitingFor P v) := by
  rw [Listed, Listed, mem_createProducer_producers hw, or_and_right]
  refine or_congr_right ?_
  constructor
  · rintro ⟨⟨rfl, rfl⟩, hc⟩; exact ⟨rfl, rfl, hc⟩
  · rintro ⟨rfl, rfl, hc⟩; exact ⟨⟨rfl, rfl⟩, hc⟩

theorem findProducer_none :
    r.findProducer P s = none ↔ ∀ p ∈ (r.peers P).producers, p.originalSsrc ≠ s := by
  simp [findProducer, List.find?_eq_none]

/-- A producer found is one of the peer, and the SSRC is its own. -/
theorem findProducer_some {p : Producer} (h : r.findProducer P s = some p) :
    p ∈ (r.peers P).producers ∧ p.originalSsrc = s :=
  ⟨List.mem_of_find?_eq_some h, by simpa using List.find?_some h⟩

/-! ## The fields a link changes -/

@[simp] theorem linkedTo_publisher (k : Consumer) : (linkedTo s k).publisher = k.publisher := rfl
@[simp] theorem linkedTo_isVideo (k : Consumer) : (linkedTo s k).isVideo = k.isVideo := rfl
@[simp] theorem linkedTo_publisherSsrc (k : Consumer) : (linkedTo s k).publisherSsrc = s := rfl

/-- Linking changes `publisherSsrc` and no other field. -/
theorem createProducer_field {α : Type} (f : Consumer → α) (hf : ∀ k, f (linkedTo s k) = f k)
    (c : ConsumerRef) : f ((r.createProducer o P s v).1.heap c) = f (r.heap c) := by
  rw [createProducer_heap]
  split
  · exact hf _
  · rfl

theorem Wf.createProducer (hw : r.Wf) (hs : r.findProducer P s = none) :
    (r.createProducer o P s v).1.Wf where
  fresh c hc := by
    rw [createProducer_rest.1]
    exact hw.fresh c ((owned_createProducer hw).1 hc)
  ownNodup S := by rw [createProducer_consumers hw]; exact hw.ownNodup S
  subscriber S c hc := by
    rw [createProducer_consumers hw] at hc
    rw [createProducer_field Consumer.subscriber fun _ => rfl]
    exact hw.subscriber S c hc
  registered S c hc := by
    rw [createProducer_consumers hw] at hc
    rw [createProducer_rest.2.1]
    exact hw.registered S c hc
  peersNodup := by rw [createProducer_rest.2.1]; exact hw.peersNodup
  ssrcNodup Q := by
    rw [createProducer_producers hw]
    split
    · rw [List.map_append]
      refine List.Nodup.append (hw.ssrcNodup P) (List.nodup_singleton _) fun t ht ht' => ?_
      obtain ⟨p, hp, rfl⟩ := List.mem_map.1 ht
      exact findProducer_none.1 hs p hp (List.mem_singleton.1 ht')
    · exact hw.ssrcNodup Q
  publisher Q p hp := by
    rcases (mem_createProducer_producers hw).1 hp with hp | ⟨rfl, rfl⟩
    · exact hw.publisher Q p hp
    · rfl
  listFresh Q p c hl := by
    rw [createProducer_rest.1]
    rcases (listed_createProducer hw).1 hl with hl | ⟨-, -, hc⟩
    · exact hw.listFresh Q p c hl
    · exact hw.fresh c (hw.mem_waitingFor.1 hc).1
  listNodup Q p hp := by
    rcases (mem_createProducer_producers hw).1 hp with hp | ⟨-, rfl⟩
    · exact hw.listNodup Q p hp
    · exact hw.nodup_allConsumers.filter _
  listLink Q p c hl := by
    rw [createProducer_field Consumer.publisher fun _ => rfl,
      createProducer_field Consumer.isVideo fun _ => rfl, createProducer_heap]
    rcases (listed_createProducer hw).1 hl with hl | ⟨rfl, rfl, hc⟩
    · obtain ⟨h1, h2, h3⟩ := hw.listLink Q p c hl
      refine ⟨h1, h2, fun h0 => ?_⟩
      -- a listed consumer of a stream other than 0 does not wait
      rw [if_neg fun hc => h0 ((h3 h0).symm.trans (hw.mem_waitingFor.1 hc).2.2.2)]
      exact h3 h0
    · obtain ⟨-, h1, h2, -⟩ := hw.mem_waitingFor.1 hc
      exact ⟨h1, h2, fun _ => by rw [if_pos hc]; rfl⟩
  linked c Q hc hQ h0 := by
    rw [owned_createProducer hw] at hc
    rw [createProducer_field Consumer.publisher fun _ => rfl] at hQ
    rw [createProducer_heap] at h0 ⊢
    by_cases hcw : c ∈ r.waitingFor P v
    · obtain ⟨-, hP, -⟩ := hw.mem_waitingFor.1 hcw
      rw [if_pos hcw]
      exact ⟨_, (listed_createProducer hw).2
        (.inr ⟨Option.some.inj (hQ.symm.trans hP), rfl, hcw⟩), rfl⟩
    · rw [if_neg hcw] at h0 ⊢
      obtain ⟨p, hl, hp⟩ := hw.linked c Q hc hQ h0
      exact ⟨p, (listed_createProducer hw).2 (.inl hl), hp⟩
  waiting c Q hc hQ h0 p hp hv := by
    rw [owned_createProducer hw] at hc
    rw [createProducer_field Consumer.publisher fun _ => rfl] at hQ
    rw [createProducer_field Consumer.isVideo fun _ => rfl] at hv
    rw [createProducer_heap] at h0
    rcases (mem_createProducer_producers hw).1 hp with hp | ⟨rfl, rfl⟩
    · split at h0
      · rename_i hcw
        exact hw.waiting c Q hc hQ (hw.mem_waitingFor.1 hcw).2.2.2 p hp hv
      · exact hw.waiting c Q hc hQ h0 p hp hv
    · split at h0
      · exact h0
      · -- a consumer of the stream that was not linked did not wait
        rename_i hcw
        exact absurd (hw.mem_waitingFor.2 ⟨hc, hQ, hv.symm, h0⟩) hcw
  active c hc hQ := by
    rw [owned_createProducer hw] at hc
    rw [createProducer_field Consumer.publisher fun _ => rfl] at hQ
    rw [createProducer_field Consumer.active fun _ => rfl]
    exact hw.active c hc hQ
  reverse ssrc c hc := by
    rw [createProducer_rest.2.2] at hc
    rw [owned_createProducer hw, createProducer_field Consumer.rewrittenSsrc fun _ => rfl]
    exact hw.reverse ssrc c hc

/-! ## `linkTargets` -/

/-- A stream that is already known: nothing changes. -/
theorem linkTargets_known {p : Producer} (h : r.findProducer P s = some p) :
    r.linkTargets o P s v = (r, p.consumers, []) := by
  simp only [linkTargets, lookupTargets, h, Option.map_some]

theorem linkTargets_new (h : r.findProducer P s = none) : r.linkTargets o P s v =
    ((r.createProducer o P s v).1, (r.createProducer o P s v).2.1.consumers,
      (r.createProducer o P s v).2.2) := by
  simp only [linkTargets, lookupTargets, createTargets, findOrCreateProducer, h, Option.map_none]

theorem Wf.linkTargets (hw : r.Wf) : (r.linkTargets o P s v).1.Wf := by
  cases h : r.findProducer P s with
  | some p => rw [linkTargets_known h]; exact hw
  | none => rw [linkTargets_new h]; exact hw.createProducer (o := o) h

/-- The snapshot is the list of the stream's producer. -/
theorem linkTargets_spec (hw : r.Wf) :
    ∃ p ∈ ((r.linkTargets o P s v).1.peers P).producers, p.originalSsrc = s ∧
      (r.linkTargets o P s v).2.1 = p.consumers := by
  cases h : r.findProducer P s with
  | some p =>
    rw [linkTargets_known h]
    exact ⟨p, (findProducer_some h).1, (findProducer_some h).2, rfl⟩
  | none =>
    rw [linkTargets_new h]
    exact ⟨_, (mem_createProducer_producers (o := o) hw).2 (.inr ⟨rfl, rfl⟩), rfl,
      congrArg Producer.consumers (createProducer_producer hw)⟩

end

end Namecon.Router
