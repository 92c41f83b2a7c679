import Namecon.Sfu.Proof.Wf

/-!
# `removePeer` keeps the invariant

`removePeer X` is two loops: ① retires the consumers listed by the producers of `X`, ② takes the
consumers of `X` out of the lists of their publishers. Both are folds with closed forms
(`heap_foldl_retire`, `producers_foldl_unsubscribe`), and under the invariant they say what the
call does: the other peers keep their vectors, and their lists lose the consumers of `X` wherever
the SSRC is not 0 (`removePeer_producers`). `Wf.removePeer` follows.
-/

namespace Namecon.Router

open Function (update)
open ListFacts

variable {r : Router} {X Q : PeerRef}

/-! ## ① -/

/-- A consumer whose publisher has left. -/
def retired (k : Consumer) : Consumer := { k with publisher := none, active := false }

theorem heap_foldl_retire (l : List ConsumerRef) (r : Router) (c : ConsumerRef) :
    (l.foldl retire r).heap c = if c ∈ l then retired (r.heap c) else r.heap c := by
  induction l generalizing r with
  | nil => rfl
  | cons x l ih =>
    have hx : (r.retire x).heap c = if c = x then retired (r.heap c) else r.heap c := by
      by_cases h : c = x
      · subst h; simp [retire, retired]
      · simp [retire, modifyConsumer_ne _ _ _ h, h]
    rw [List.foldl_cons, ih, hx]
    by_cases h : c = x <;> by_cases h' : c ∈ l <;> simp [h, h', retired]

theorem out_foldl_retire (l : List ConsumerRef) (r : Router) (ssrc : UInt32) (c : ConsumerRef) :
    (l.foldl retire r).outSsrcToConsumer ssrc = some c ↔
      r.outSsrcToConsumer ssrc = some c ∧ ∀ x ∈ l, (r.heap x).rewrittenSsrc ≠ ssrc := by
  induction l generalizing r with
  | nil => simp
  | cons x l ih =>
    have hs : ∀ y, ((r.retire x).heap y).rewrittenSsrc = (r.heap y).rewrittenSsrc := fun y => by
      by_cases h : y = x
      · subst h; simp [retire]
      · simp [retire, modifyConsumer_ne _ _ _ h]
    have ho : (r.retire x).outSsrcToConsumer =
        update r.outSsrcToConsumer (r.heap x).rewrittenSsrc none := rfl
    rw [List.foldl_cons, ih, List.forall_mem_cons, ho]
    simp only [hs]
    by_cases h : ssrc = (r.heap x).rewrittenSsrc
    · subst h; simp
    · rw [Function.update_of_ne h]
      simp [Ne.symm h]

theorem foldl_retire_rest (l : List ConsumerRef) (r : Router) :
    (l.foldl retire r).peers = r.peers ∧ (l.foldl retire r).nextConsumer = r.nextConsumer ∧
      (l.foldl retire r).allPeers = r.allPeers := by
  induction l generalizing r with
  | nil => exact ⟨rfl, rfl, rfl⟩
  | cons x l ih => exact ih (r.retire x)

/-! ## ② -/

/-- The unlinking loop for the consumer `c` stops at the producer of `Q` with the SSRC `s`. -/
def Drops (heap : ConsumerRef → Consumer) (Q : PeerRef) (s : UInt32) (c : ConsumerRef) : Prop :=
  (heap c).publisher = some Q ∧ (heap c).publisherSsrc = s ∧ s ≠ 0

instance (heap : ConsumerRef → Consumer) (Q : PeerRef) (s : UInt32) (c : ConsumerRef) :
    Decidable (Drops heap Q s c) := inferInstanceAs (Decidable (_ ∧ _ ∧ _))

/-- `p` without the consumers of `l` that the unlinking loop finds in it. -/
def dropAll (heap : ConsumerRef → Consumer) (l : List ConsumerRef) (Q : PeerRef) (p : Producer) :
    Producer :=
  { p with consumers := p.consumers.filter fun c => ¬ (c ∈ l ∧ Drops heap Q p.originalSsrc c) }

theorem mem_dropAll {heap : ConsumerRef → Consumer} {l : List ConsumerRef} {p : Producer}
    {c : ConsumerRef} : c ∈ (dropAll heap l Q p).consumers ↔
      c ∈ p.consumers ∧ ¬ (c ∈ l ∧ Drops heap Q p.originalSsrc c) := by
  simp only [dropAll, List.mem_filter, decide_eq_true_eq]

theorem dropAll_eq_self {heap : ConsumerRef → Consumer} {l : List ConsumerRef} {p : Producer}
    (h : ∀ c ∈ l, ¬ Drops heap Q p.originalSsrc c) : dropAll heap l Q p = p := by
  have hf : p.consumers.filter (fun c => ¬ (c ∈ l ∧ Drops heap Q p.originalSsrc c)) = p.consumers :=
    List.filter_eq_self.2 fun c _ => decide_eq_true fun hc => h c hc.1 hc.2
  unfold dropAll
  rw [hf]

theorem dropAll_cons (heap : ConsumerRef → Consumer) (x : ConsumerRef) (l : List ConsumerRef) :
    dropAll heap (x :: l) Q = dropAll heap l Q ∘ dropAll heap [x] Q := by
  funext p
  have hc : p.consumers.filter (fun c => ¬ (c ∈ x :: l ∧ Drops heap Q p.originalSsrc c)) =
      (p.consumers.filter fun c => ¬ (c ∈ [x] ∧ Drops heap Q p.originalSsrc c)).filter
        fun c => ¬ (c ∈ l ∧ Drops heap Q p.originalSsrc c) := by
    rw [List.filter_filter]
    apply List.filter_congr
    intro c _
    rw [← Bool.decide_and]
    apply decide_eq_decide.2
    rw [List.mem_cons, List.mem_singleton]
    tauto
  exact congrArg (fun cs => { p with consumers := cs }) hc

theorem dropAll_singleton (heap : ConsumerRef → Consumer) (x : ConsumerRef) (p : Producer) :
    dropAll heap [x] Q p = if Drops heap Q p.originalSsrc x then eraseConsumer x p else p := by
  split
  · rename_i h
    unfold dropAll eraseConsumer
    congr 1
    apply List.filter_congr
    intro c _
    by_cases hc : c = x
    · subst hc; simp [h]
    · simp [hc]
  · rename_i h
    exact dropAll_eq_self fun c hc => by rwa [List.mem_singleton.1 hc]

theorem updateFirst_unlinksFrom {ps : List Producer} (hn : (ps.map (·.originalSsrc)).Nodup)
    (heap : ConsumerRef → Consumer) {x : ConsumerRef} (hx : (heap x).publisher = some Q) :
    updateFirst (unlinksFrom (heap x).publisherSsrc) (eraseConsumer x) ps =
      ps.map (dropAll heap [x] Q) := by
  have hd : ∀ p : Producer, unlinksFrom (heap x).publisherSsrc p = true ↔
      Drops heap Q p.originalSsrc x :=
    fun p => by
      simp only [unlinksFrom, Bool.and_eq_true, beq_iff_eq, bne_iff_ne]
      exact ⟨fun h => ⟨hx, h.1.symm, h.2⟩, fun h => ⟨h.2.1.symm, h.2.2⟩⟩
  cases hf : ps.find? (unlinksFrom (heap x).publisherSsrc) with
  | none =>
    rw [updateFirst_of_none hf]
    conv_lhs => rw [← List.map_id ps]
    apply List.map_congr_left
    intro p hp
    rw [dropAll_singleton, if_neg fun h => List.find?_eq_none.1 hf p hp ((hd p).2 h)]
    rfl
  | some q =>
    obtain ⟨-, hqs, hq0⟩ := (hd q).1 (List.find?_some hf)
    rw [updateFirst_eq_map hn hf]
    apply List.map_congr_left
    intro p _
    rw [dropAll_singleton]
    by_cases h : p.originalSsrc = q.originalSsrc
    · rw [if_pos h, if_pos ⟨hx, hqs.trans h.symm, h ▸ hq0⟩]
    · rw [if_neg h, if_neg fun h' => h (h'.2.1.symm.trans hqs)]

theorem unlink_heap (c : ConsumerRef) : (r.unlink c).heap = r.heap := by
  unfold unlink
  split <;> rfl

theorem unlink_rest (c : ConsumerRef) :
    (r.unlink c).nextConsumer = r.nextConsumer ∧ (r.unlink c).allPeers = r.allPeers := by
  unfold unlink
  split <;> exact ⟨rfl, rfl⟩

theorem unlink_consumers (c : ConsumerRef) (Q : PeerRef) :
    ((r.unlink c).peers Q).consumers = (r.peers Q).consumers := by
  unfold unlink
  split
  · rfl
  · rename_i P _
    by_cases hQ : Q = P
    · subst hQ; simp
    · rw [modifyPeer_ne _ _ _ hQ]

theorem unlink_producers (c : ConsumerRef)
    (hn : ((r.peers Q).producers.map (·.originalSsrc)).Nodup) :
    ((r.unlink c).peers Q).producers = (r.peers Q).producers.map (dropAll r.heap [c] Q) := by
  by_cases hQ : (r.heap c).publisher = some Q
  · rw [← updateFirst_unlinksFrom hn r.heap hQ]
    simp [unlink, hQ]
  · have hid : dropAll r.heap [c] Q = id := by
      funext p
      exact dropAll_eq_self fun x hx hd => hQ (List.mem_singleton.1 hx ▸ hd.1)
    rw [hid, List.map_id]
    unfold unlink
    split
    · rfl
    · rename_i P hP
      rw [hP, Option.some.injEq] at hQ
      rw [modifyPeer_ne _ _ _ (Ne.symm hQ)]

@[simp] theorem dropAll_ssrc (heap : ConsumerRef → Consumer) (l : List ConsumerRef) (p : Producer) :
    (dropAll heap l Q p).originalSsrc = p.originalSsrc := rfl

theorem map_ssrc_dropAll (heap : ConsumerRef → Consumer) (l : List ConsumerRef)
    (ps : List Producer) :
    (ps.map (dropAll heap l Q)).map (·.originalSsrc) = ps.map (·.originalSsrc) := by
  rw [List.map_map]; rfl

theorem producers_foldl_unsubscribe (l : List ConsumerRef) (r : Router)
    (hn : ((r.peers Q).producers.map (·.originalSsrc)).Nodup) :
    ((l.foldl unsubscribe r).peers Q).producers =
      (r.peers Q).producers.map (dropAll r.heap l Q) := by
  induction l generalizing r with
  | nil =>
    have : dropAll r.heap [] Q = id := by
      funext p
      exact dropAll_eq_self fun c hc => absurd hc List.not_mem_nil
    rw [this, List.map_id]; rfl
  | cons c l ih =>
    have hp : ((r.unsubscribe c).peers Q).producers =
        (r.peers Q).producers.map (dropAll r.heap [c] Q) :=
      unlink_producers c hn
    have hh : (r.unsubscribe c).heap = r.heap := unlink_heap c
    rw [List.foldl_cons, ih _ (by rw [hp, map_ssrc_dropAll]; exact hn), hh, hp, List.map_map,
      ← dropAll_cons]

theorem foldl_unsubscribe_rest (l : List ConsumerRef) (r : Router) :
    (l.foldl unsubscribe r).heap = r.heap ∧
      (l.foldl unsubscribe r).nextConsumer = r.nextConsumer ∧
      (l.foldl unsubscribe r).allPeers = r.allPeers ∧
      ∀ Q, ((l.foldl unsubscribe r).peers Q).consumers = (r.peers Q).consumers := by
  induction l generalizing r with
  | nil => exact ⟨rfl, rfl, rfl, fun _ => rfl⟩
  | cons c l ih =>
    obtain ⟨h1, h2, h3, h4⟩ := ih (r.unsubscribe c)
    obtain ⟨g1, g2⟩ := unlink_rest (r := r) c
    exact ⟨h1.trans (unlink_heap c), h2.trans g1, h3.trans g2,
      fun Q => (h4 Q).trans (unlink_consumers c Q)⟩

theorem out_foldl_unsubscribe (l : List ConsumerRef) (r : Router) (ssrc : UInt32)
    (c : ConsumerRef) : (l.foldl unsubscribe r).outSsrcToConsumer ssrc = some c ↔
      r.outSsrcToConsumer ssrc = some c ∧ ∀ x ∈ l, (r.heap x).rewrittenSsrc ≠ ssrc := by
  induction l generalizing r with
  | nil => simp
  | cons x l ih =>
    have ho : (r.unsubscribe x).outSsrcToConsumer =
        update r.outSsrcToConsumer (r.heap x).rewrittenSsrc none := rfl
    have hh : (r.unsubscribe x).heap = r.heap := unlink_heap x
    rw [List.foldl_cons, ih, hh, ho, List.forall_mem_cons]
    by_cases h : ssrc = (r.heap x).rewrittenSsrc
    · subst h; simp
    · rw [Function.update_of_ne h]
      simp [Ne.symm h]

/-! ## The call -/

/-- The consumers ① retires. -/
def audience (r : Router) (X : PeerRef) : List ConsumerRef :=
  (r.peers X).producers.flatMap (·.consumers)

theorem mem_audience {c : ConsumerRef} : c ∈ r.audience X ↔ ∃ p, r.Listed X p c := by
  simp [audience, Listed]

/-- What ① leaves of the consumers. -/
def heapAfter (r : Router) (X : PeerRef) (c : ConsumerRef) : Consumer :=
  if c ∈ r.audience X then retired (r.heap c) else r.heap c

@[simp] theorem heapAfter_subscriber (c : ConsumerRef) :
    (r.heapAfter X c).subscriber = (r.heap c).subscriber := by
  unfold heapAfter; split <;> rfl

@[simp] theorem heapAfter_isVideo (c : ConsumerRef) :
    (r.heapAfter X c).isVideo = (r.heap c).isVideo := by
  unfold heapAfter; split <;> rfl

@[simp] theorem heapAfter_rewrittenSsrc (c : ConsumerRef) :
    (r.heapAfter X c).rewrittenSsrc = (r.heap c).rewrittenSsrc := by
  unfold heapAfter; split <;> rfl

@[simp] theorem heapAfter_publisherSsrc (c : ConsumerRef) :
    (r.heapAfter X c).publisherSsrc = (r.heap c).publisherSsrc := by
  unfold heapAfter; split <;> rfl

theorem heapAfter_publisher {c : ConsumerRef} :
    (r.heapAfter X c).publisher = some Q ↔ c ∉ r.audience X ∧ (r.heap c).publisher = some Q := by
  unfold heapAfter
  split
  · rename_i h; simp [retired, h]
  · rename_i h; simp [h]

/-- The router between ① and ②. -/
def afterRetire (r : Router) (X : PeerRef) : Router :=
  ((r.audience X).foldl retire r).modifyPeer X fun x => { x with producers := [] }

theorem afterRetire_heap : (r.afterRetire X).heap = r.heapAfter X := by
  funext c
  exact heap_foldl_retire _ r c

theorem afterRetire_consumers : ((r.afterRetire X).peers Q).consumers = (r.peers Q).consumers := by
  unfold afterRetire
  by_cases hQ : Q = X
  · subst hQ; rw [modifyPeer_self, (foldl_retire_rest _ r).1]
  · rw [modifyPeer_ne _ _ _ hQ, (foldl_retire_rest _ r).1]

theorem afterRetire_producers : ((r.afterRetire X).peers Q).producers =
    if Q = X then [] else (r.peers Q).producers := by
  unfold afterRetire
  by_cases hQ : Q = X
  · subst hQ; rw [modifyPeer_self, if_pos rfl]
  · rw [modifyPeer_ne _ _ _ hQ, (foldl_retire_rest _ r).1, if_neg hQ]

/-- The router after ②, before the vector of the peer is cleared. -/
def afterUnsubscribe (r : Router) (X : PeerRef) : Router :=
  ((r.afterRetire X).peers X).consumers.foldl unsubscribe (r.afterRetire X)

theorem afterUnsubscribe_consumers :
    ((r.afterUnsubscribe X).peers Q).consumers = (r.peers Q).consumers := by
  rw [afterUnsubscribe, (foldl_unsubscribe_rest _ (r.afterRetire X)).2.2.2, afterRetire_consumers]

theorem removePeer_peers : (r.removePeer X).peers =
    ((r.afterUnsubscribe X).modifyPeer X fun x => { x with consumers := [] }).peers := rfl

theorem removePeer_heap : (r.removePeer X).heap = r.heapAfter X :=
  (foldl_unsubscribe_rest _ (r.afterRetire X)).1.trans afterRetire_heap

theorem removePeer_next : (r.removePeer X).nextConsumer = r.nextConsumer :=
  (foldl_unsubscribe_rest _ (r.afterRetire X)).2.1.trans (foldl_retire_rest _ r).2.1

theorem removePeer_allPeers : (r.removePeer X).allPeers = r.allPeers.filter (· ≠ X) :=
  congrArg (List.filter (· ≠ X)) <|
    (foldl_unsubscribe_rest _ (r.afterRetire X)).2.2.1.trans (foldl_retire_rest _ r).2.2

theorem removePeer_out (ssrc : UInt32) (c : ConsumerRef) :
    (r.removePeer X).outSsrcToConsumer ssrc = some c ↔ r.outSsrcToConsumer ssrc = some c ∧
      (∀ x ∈ r.audience X, (r.heap x).rewrittenSsrc ≠ ssrc) ∧
      ∀ x ∈ (r.peers X).consumers, (r.heap x).rewrittenSsrc ≠ ssrc := by
  change (r.afterUnsubscribe X).outSsrcToConsumer ssrc = some c ↔ _
  rw [afterUnsubscribe, out_foldl_unsubscribe, afterRetire_consumers, afterRetire_heap, ← and_assoc]
  simp only [heapAfter_rewrittenSsrc]
  exact and_congr_left' (out_foldl_retire _ r ssrc c)

theorem removePeer_consumers : ((r.removePeer X).peers Q).consumers =
    if Q = X then [] else (r.peers Q).consumers := by
  rw [removePeer_peers]
  by_cases hQ : Q = X
  · subst hQ; rw [modifyPeer_self, if_pos rfl]
  · rw [modifyPeer_ne _ _ _ hQ, if_neg hQ, afterUnsubscribe_consumers]

/-- `p`, a producer of `Q`, after `removePeer X`. -/
def afterRemove (r : Router) (X Q : PeerRef) : Producer → Producer :=
  dropAll (r.heapAfter X) (r.peers X).consumers Q

theorem removePeer_producers (hn : ((r.peers Q).producers.map (·.originalSsrc)).Nodup) :
    ((r.removePeer X).peers Q).producers =
      if Q = X then [] else (r.peers Q).producers.map (r.afterRemove X Q) := by
  have hp : ((r.removePeer X).peers Q).producers = ((r.afterUnsubscribe X).peers Q).producers := by
    rw [removePeer_peers]
    by_cases hQ : Q = X
    · subst hQ; rw [modifyPeer_self]
    · rw [modifyPeer_ne _ _ _ hQ]
  rw [hp, afterUnsubscribe, producers_foldl_unsubscribe, afterRetire_producers,
    afterRetire_consumers, afterRetire_heap, afterRemove]
  · split <;> rfl
  · rw [afterRetire_producers]
    split
    · exact .nil
    · exact hn

/-! ## The invariant -/

theorem mem_removePeer_consumers {c : ConsumerRef} :
    c ∈ ((r.removePeer X).peers Q).consumers ↔ Q ≠ X ∧ c ∈ (r.peers Q).consumers := by
  rw [removePeer_consumers]
  split
  · rename_i h; simp [h]
  · rename_i h; simp [h]

/-- `removePeer X` destroys the consumers of `X`. -/
theorem owned_removePeer (hw : r.Wf) {c : ConsumerRef} :
    (r.removePeer X).Owned c ↔ r.Owned c ∧ c ∉ (r.peers X).consumers := by
  simp only [Owned, mem_removePeer_consumers]
  constructor
  · intro h
    obtain ⟨S, hS, hc⟩ := h
    exact ⟨⟨S, hc⟩, fun hX => hS (hw.owner_unique hc hX)⟩
  · intro h
    obtain ⟨⟨S, hc⟩, hX⟩ := h
    exact ⟨S, fun hS => hX (hS ▸ hc), hc⟩

theorem mem_removePeer_producers (hw : r.Wf) {p' : Producer} :
    p' ∈ ((r.removePeer X).peers Q).producers ↔
      Q ≠ X ∧ ∃ p ∈ (r.peers Q).producers, r.afterRemove X Q p = p' := by
  rw [removePeer_producers (hw.ssrcNodup Q)]
  split
  · rename_i h; simp [h]
  · rename_i h; simp [h]

theorem listed_removePeer (hw : r.Wf) {p' : Producer} {c : ConsumerRef} :
    (r.removePeer X).Listed Q p' c ↔ Q ≠ X ∧ ∃ p, r.Listed Q p c ∧ r.afterRemove X Q p = p' ∧
      ¬ (c ∈ (r.peers X).consumers ∧ Drops (r.heapAfter X) Q p.originalSsrc c) := by
  unfold Listed
  rw [mem_removePeer_producers hw]
  constructor
  · intro h
    obtain ⟨⟨hQ, p, hp, rfl⟩, hc⟩ := h
    obtain ⟨hc, hd⟩ := mem_dropAll.1 hc
    exact ⟨hQ, p, ⟨hp, hc⟩, rfl, hd⟩
  · intro h
    obtain ⟨hQ, p, ⟨hp, hc⟩, rfl, hd⟩ := h
    exact ⟨⟨hQ, p, hp, rfl⟩, mem_dropAll.2 ⟨hc, hd⟩⟩

/-- A consumer listed by another peer is not retired. -/
theorem Wf.not_mem_audience (hw : r.Wf) (hQ : Q ≠ X) {p : Producer} {c : ConsumerRef}
    (hl : r.Listed Q p c) : c ∉ r.audience X := by
  intro hc
  obtain ⟨q, hq⟩ := mem_audience.1 hc
  exact hQ (Option.some.inj ((hw.listLink Q p c hl).1.symm.trans (hw.listLink X q c hq).1))

theorem Wf.heapAfter_eq (hw : r.Wf) (hQ : Q ≠ X) {p : Producer} {c : ConsumerRef}
    (hl : r.Listed Q p c) : r.heapAfter X c = r.heap c :=
  if_neg (hw.not_mem_audience hQ hl)

theorem Wf.removePeer (hw : r.Wf) (X : PeerRef) : (r.removePeer X).Wf where
  fresh c hc := by
    rw [removePeer_next]
    exact hw.fresh c ((owned_removePeer hw).1 hc).1
  ownNodup S := by
    rw [removePeer_consumers]
    split
    · exact .nil
    · exact hw.ownNodup S
  subscriber S c hc := by
    rw [removePeer_heap, heapAfter_subscriber]
    exact hw.subscriber S c (mem_removePeer_consumers.1 hc).2
  registered S c hc := by
    obtain ⟨hS, hc⟩ := mem_removePeer_consumers.1 hc
    rw [removePeer_allPeers, List.mem_filter, decide_eq_true_eq]
    exact ⟨hw.registered S c hc, hS⟩
  peersNodup := by
    rw [removePeer_allPeers]
    exact hw.peersNodup.filter _
  ssrcNodup P := by
    rw [removePeer_producers (hw.ssrcNodup P)]
    split
    · exact .nil
    · rw [afterRemove, map_ssrc_dropAll]; exact hw.ssrcNodup P
  publisher P p' hp' := by
    obtain ⟨-, p, hp, rfl⟩ := (mem_removePeer_producers hw).1 hp'
    exact hw.publisher P p hp
  listFresh P p c hl := by
    obtain ⟨-, p, hl, -⟩ := (listed_removePeer hw).1 hl
    rw [removePeer_next]
    exact hw.listFresh P p c hl
  listNodup P p' hp' := by
    obtain ⟨-, p, hp, rfl⟩ := (mem_removePeer_producers hw).1 hp'
    exact (hw.listNodup P p hp).filter _
  listLink P p' c hl' := by
    obtain ⟨hP, p, hl, rfl, -⟩ := (listed_removePeer hw).1 hl'
    rw [removePeer_heap, hw.heapAfter_eq hP hl]
    exact hw.listLink P p c hl
  linked c P hc hP h0 := by
    obtain ⟨hc, hX⟩ := (owned_removePeer hw).1 hc
    rw [removePeer_heap] at hP h0 ⊢
    obtain ⟨ha, hP⟩ := heapAfter_publisher.1 hP
    rw [heapAfter_publisherSsrc] at h0 ⊢
    obtain ⟨p, hl, hs⟩ := hw.linked c P hc hP h0
    have hne : P ≠ X := fun h => ha (mem_audience.2 ⟨p, h ▸ hl⟩)
    exact ⟨_, (listed_removePeer hw).2 ⟨hne, p, hl, rfl, fun h => hX h.1⟩, hs⟩
  waiting c P hc hP h0 p' hp' hv := by
    obtain ⟨hc, -⟩ := (owned_removePeer hw).1 hc
    obtain ⟨-, p, hp, rfl⟩ := (mem_removePeer_producers hw).1 hp'
    rw [removePeer_heap] at hP h0 hv
    rw [heapAfter_publisherSsrc] at h0
    rw [heapAfter_isVideo] at hv
    exact hw.waiting c P hc (heapAfter_publisher.1 hP).2 h0 p hp hv
  active c hc hP := by
    obtain ⟨hc, -⟩ := (owned_removePeer hw).1 hc
    rw [removePeer_heap] at hP ⊢
    unfold heapAfter at hP ⊢
    split at hP
    · exact absurd rfl hP
    · rename_i h
      rw [if_neg h]
      exact hw.active c hc hP
  reverse ssrc c hc := by
    obtain ⟨hc, -, hX⟩ := (removePeer_out ssrc c).1 hc
    obtain ⟨ho, hr⟩ := hw.reverse ssrc c hc
    rw [owned_removePeer hw, removePeer_heap, heapAfter_rewrittenSsrc]
    exact ⟨⟨ho, fun h => hX c h hr⟩, hr⟩

end Namecon.Router
