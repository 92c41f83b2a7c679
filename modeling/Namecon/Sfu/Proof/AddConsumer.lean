import Namecon.Sfu.Proof.Wf

/-!
# `addConsumer` keeps the invariant

`addConsumer` makes one consumer, under the next reference, and touches nothing else but the vector
of the subscriber and, where the publisher already sends the kind, the list of one producer
(`addConsumer_heap`, `addConsumer_consumers`, `addConsumer_producers`). `Wf.addConsumer` and
`owned_addConsumer`, `listed_addConsumer` follow.
-/

namespace Namecon.Router

open Function (update)
open ListFacts

variable {r : Router} {S P : PeerRef} {v : Bool} {d : SsrcDraw}

/-! ## What the call does -/

/-- The SSRC `addConsumer` links the new consumer to, 0 where it leaves it waiting. -/
def firstSsrc (r : Router) (P : PeerRef) (v : Bool) : UInt32 :=
  ((r.peers P).producers.find? (linksTo v)).elim 0 (·.originalSsrc)

/-- What `addConsumer` does to a producer of the publisher. -/
def relink (r : Router) (P : PeerRef) (v : Bool) (p : Producer) : Producer :=
  if r.firstSsrc P v ≠ 0 ∧ p.originalSsrc = r.firstSsrc P v then pushConsumer r.nextConsumer p
  else p

/-- The consumer `addConsumer` makes. -/
def newConsumer (r : Router) (S P : PeerRef) (v : Bool) (d : SsrcDraw) : Consumer :=
  { subscriber := some S, publisher := some P, isVideo := v, rewrittenSsrc := d.val,
    publisherSsrc := r.firstSsrc P v }

theorem linksTo_iff {p : Producer} : linksTo v p = true ↔ p.isVideo = v ∧ p.originalSsrc ≠ 0 := by
  simp [linksTo]

@[simp] theorem pushConsumer_ssrc (c : ConsumerRef) (p : Producer) :
    (pushConsumer c p).originalSsrc = p.originalSsrc := rfl

@[simp] theorem relink_ssrc (p : Producer) : (r.relink P v p).originalSsrc = p.originalSsrc := by
  unfold relink; split <;> rfl

@[simp] theorem relink_isVideo (p : Producer) : (r.relink P v p).isVideo = p.isVideo := by
  unfold relink; split <;> rfl

@[simp] theorem relink_publisher (p : Producer) : (r.relink P v p).publisher = p.publisher := by
  unfold relink; split <;> rfl

theorem mem_relink {p : Producer} {c : ConsumerRef} : c ∈ (r.relink P v p).consumers ↔
    c ∈ p.consumers ∨
      (c = r.nextConsumer ∧ r.firstSsrc P v ≠ 0 ∧ p.originalSsrc = r.firstSsrc P v) := by
  unfold relink
  split
  · rename_i h; simp [pushConsumer, h]
  · rename_i h; simp [h]

/-- A link found is to a producer of the publisher of the kind. -/
theorem firstSsrc_ne_zero (h : r.firstSsrc P v ≠ 0) :
    ∃ p ∈ (r.peers P).producers, p.isVideo = v ∧ p.originalSsrc = r.firstSsrc P v := by
  unfold firstSsrc at h ⊢
  cases hf : (r.peers P).producers.find? (linksTo v) with
  | none => rw [hf] at h; exact absurd rfl h
  | some p => exact ⟨p, List.mem_of_find?_eq_some hf, (linksTo_iff.1 (List.find?_some hf)).1, rfl⟩

theorem firstSsrc_eq_zero (h : r.firstSsrc P v = 0) :
    ∀ p ∈ (r.peers P).producers, p.isVideo = v → p.originalSsrc = 0 := by
  intro p hp hv
  unfold firstSsrc at h
  cases hf : (r.peers P).producers.find? (linksTo v) with
  | none =>
    have := List.find?_eq_none.1 hf p hp
    rw [linksTo_iff, not_and, not_not] at this
    exact this hv
  | some q =>
    rw [hf] at h
    exact absurd h (linksTo_iff.1 (List.find?_some hf)).2

theorem updateFirst_linksTo (hn : ((r.peers P).producers.map (·.originalSsrc)).Nodup) :
    updateFirst (linksTo v) (pushConsumer r.nextConsumer) (r.peers P).producers =
      (r.peers P).producers.map (r.relink P v) := by
  cases hf : (r.peers P).producers.find? (linksTo v) with
  | none =>
    have h0 : r.firstSsrc P v = 0 := by simp [firstSsrc, hf]
    have : r.relink P v = id := by funext p; simp [relink, h0]
    rw [updateFirst_of_none hf, this, List.map_id]
  | some q =>
    have hq : r.firstSsrc P v = q.originalSsrc := by simp [firstSsrc, hf]
    have h0 : q.originalSsrc ≠ 0 := (linksTo_iff.1 (List.find?_some hf)).2
    rw [updateFirst_eq_map hn hf]
    exact List.map_congr_left fun p _ => by simp [relink, hq, h0]

theorem linkNew_consumers (raw : ConsumerRef) (Q : PeerRef) :
    ((r.linkNew P raw v).peers Q).consumers = (r.peers Q).consumers := by
  unfold linkNew
  split
  · rfl
  · by_cases hQ : Q = P
    · subst hQ; simp
    · rw [modifyPeer_ne _ _ _ hQ]; rfl

theorem linkNew_producers (raw : ConsumerRef) (Q : PeerRef) :
    ((r.linkNew P raw v).peers Q).producers =
      if Q = P then updateFirst (linksTo v) (pushConsumer raw) (r.peers P).producers
      else (r.peers Q).producers := by
  unfold linkNew
  split
  · rename_i h
    split
    · rename_i hQ; rw [updateFirst_of_none h, hQ]
    · rfl
  · by_cases hQ : Q = P
    · subst hQ; simp
    · rw [modifyPeer_ne _ _ _ hQ, if_neg hQ]; rfl

theorem linkNew_heap (raw : ConsumerRef) (h0 : (r.heap raw).publisherSsrc = 0) :
    (r.linkNew P raw v).heap =
      update r.heap raw { r.heap raw with publisherSsrc := r.firstSsrc P v } := by
  unfold linkNew firstSsrc
  split
  · rename_i h
    simp only [h, Option.elim_none, ← h0]
    exact (Function.update_eq_self _ _).symm
  · rename_i p h
    simp only [h, Option.elim_some, modifyPeer_heap]
    rfl

theorem linkNew_rest (raw : ConsumerRef) :
    (r.linkNew P raw v).nextConsumer = r.nextConsumer ∧ (r.linkNew P raw v).allPeers = r.allPeers ∧
      (r.linkNew P raw v).outSsrcToConsumer = r.outSsrcToConsumer := by
  unfold linkNew
  split <;> exact ⟨rfl, rfl, rfl⟩

theorem addConsumer_heap : (r.addConsumer S P v d).1.heap =
    update r.heap r.nextConsumer (r.newConsumer S P v d) := by
  unfold addConsumer
  simp only [modifyPeer_heap]
  rw [linkNew_heap]
  · simp [registerPeer, newConsumer, firstSsrc, allocateSsrc]
  · simp [registerPeer]

theorem addConsumer_consumers (Q : PeerRef) : ((r.addConsumer S P v d).1.peers Q).consumers =
    if Q = S then (r.peers S).consumers ++ [r.nextConsumer] else (r.peers Q).consumers := by
  unfold addConsumer
  by_cases hQ : Q = S
  · subst hQ; simp [linkNew_consumers, registerPeer]
  · rw [modifyPeer_ne _ _ _ hQ, linkNew_consumers, if_neg hQ]; rfl

theorem addConsumer_producers (hn : ∀ Q, ((r.peers Q).producers.map (·.originalSsrc)).Nodup)
    (Q : PeerRef) : ((r.addConsumer S P v d).1.peers Q).producers =
      if Q = P then (r.peers P).producers.map (r.relink P v) else (r.peers Q).producers := by
  rw [← updateFirst_linksTo (hn P)]
  unfold addConsumer
  by_cases hQ : Q = S
  · subst hQ; simp [linkNew_producers, registerPeer]
  · rw [modifyPeer_ne _ _ _ hQ, linkNew_producers]; rfl

theorem addConsumer_next : (r.addConsumer S P v d).1.nextConsumer = r.nextConsumer + 1 := by
  simp [addConsumer, (linkNew_rest _).1, registerPeer]

theorem addConsumer_out : (r.addConsumer S P v d).1.outSsrcToConsumer =
    update r.outSsrcToConsumer d.val (some r.nextConsumer) := by
  simp [addConsumer, (linkNew_rest _).2.2, registerPeer, allocateSsrc]

theorem mem_registerPeer {p q : PeerRef} :
    q ∈ (r.registerPeer p).allPeers ↔ q ∈ r.allPeers ∨ q = p := by
  unfold registerPeer
  split
  · rename_i h
    exact ⟨.inl, fun hq => hq.elim id fun he => he ▸ h⟩
  · simp

theorem nodup_registerPeer {p : PeerRef} (h : r.allPeers.Nodup) :
    (r.registerPeer p).allPeers.Nodup := by
  unfold registerPeer
  split
  · exact h
  · rename_i hp
    exact List.Nodup.append h (List.nodup_singleton p) (by simpa using hp)

theorem addConsumer_allPeers : (r.addConsumer S P v d).1.allPeers =
    ((r.registerPeer S).registerPeer P).allPeers := by
  simp only [addConsumer, modifyPeer_allPeers, (linkNew_rest _).2.1]
  rfl

/-! ## The invariant -/

theorem addConsumer_heap_new :
    (r.addConsumer S P v d).1.heap r.nextConsumer = r.newConsumer S P v d := by
  rw [addConsumer_heap, Function.update_self]

theorem addConsumer_heap_old {c : ConsumerRef} (h : c < r.nextConsumer) :
    (r.addConsumer S P v d).1.heap c = r.heap c := by
  rw [addConsumer_heap, Function.update_of_ne (Nat.ne_of_lt h)]

theorem mem_addConsumer_consumers {Q : PeerRef} {c : ConsumerRef} :
    c ∈ ((r.addConsumer S P v d).1.peers Q).consumers ↔
      c ∈ (r.peers Q).consumers ∨ (Q = S ∧ c = r.nextConsumer) := by
  rw [addConsumer_consumers]
  split
  · rename_i h; subst h; simp
  · rename_i h; simp [h]

theorem owned_addConsumer {c : ConsumerRef} :
    (r.addConsumer S P v d).1.Owned c ↔ r.Owned c ∨ c = r.nextConsumer := by
  simp only [Owned, mem_addConsumer_consumers, exists_or]
  simp

theorem listed_addConsumer (hw : r.Wf) {Q : PeerRef} {p' : Producer} {c : ConsumerRef} :
    (r.addConsumer S P v d).1.Listed Q p' c ↔
      ∃ p, p ∈ (r.peers Q).producers ∧ p' = (if Q = P then r.relink P v p else p) ∧
        (c ∈ p.consumers ∨ (c = r.nextConsumer ∧ Q = P ∧ r.firstSsrc P v ≠ 0 ∧
          p.originalSsrc = r.firstSsrc P v)) := by
  unfold Listed
  rw [addConsumer_producers hw.ssrcNodup]
  by_cases hQ : Q = P
  · subst hQ
    rw [if_pos rfl, List.mem_map]
    constructor
    · intro h
      obtain ⟨⟨p, hp, rfl⟩, hc⟩ := h
      exact ⟨p, hp, (if_pos rfl).symm, (mem_relink.1 hc).imp id fun h => ⟨h.1, rfl, h.2⟩⟩
    · intro h
      obtain ⟨p, hp, rfl, hc⟩ := h
      rw [if_pos rfl]
      exact ⟨⟨p, hp, rfl⟩, mem_relink.2 (hc.imp id fun h => ⟨h.1, h.2.2⟩)⟩
  · simp [hQ]

theorem Wf.addConsumer (hw : r.Wf) : (r.addConsumer S P v d).1.Wf where
  fresh c hc := by
    rw [addConsumer_next]
    rcases owned_addConsumer.1 hc with hc | rfl
    · exact Nat.lt_succ_of_lt (hw.fresh c hc)
    · exact Nat.lt_succ_self _
  ownNodup Q := by
    rw [addConsumer_consumers]
    split
    · refine List.Nodup.append (hw.ownNodup S) (List.nodup_singleton _) ?_
      intro c hc hn
      rw [List.mem_singleton] at hn
      exact Nat.ne_of_lt (hw.fresh c ⟨S, hc⟩) hn
    · exact hw.ownNodup Q
  subscriber Q c hc := by
    rcases mem_addConsumer_consumers.1 hc with hc | ⟨rfl, rfl⟩
    · rw [addConsumer_heap_old (hw.fresh c ⟨Q, hc⟩)]; exact hw.subscriber Q c hc
    · rw [addConsumer_heap_new]; rfl
  registered Q c hc := by
    rw [addConsumer_allPeers, mem_registerPeer, mem_registerPeer]
    rcases mem_addConsumer_consumers.1 hc with hc | ⟨rfl, -⟩
    · exact .inl (.inl (hw.registered Q c hc))
    · exact .inl (.inr rfl)
  peersNodup := by
    rw [addConsumer_allPeers]
    exact nodup_registerPeer (nodup_registerPeer hw.peersNodup)
  ssrcNodup Q := by
    rw [addConsumer_producers hw.ssrcNodup]
    split
    · rw [List.map_map, show (Producer.originalSsrc ∘ r.relink P v) = Producer.originalSsrc from
        funext fun p => relink_ssrc p]
      exact hw.ssrcNodup P
    · exact hw.ssrcNodup Q
  publisher Q p hp := by
    rw [addConsumer_producers hw.ssrcNodup] at hp
    split at hp
    · rename_i hQ
      obtain ⟨p0, hp0, rfl⟩ := List.mem_map.1 hp
      rw [relink_publisher, hQ]
      exact hw.publisher P p0 hp0
    · exact hw.publisher Q p hp
  listFresh Q p c hl := by
    rw [addConsumer_next]
    obtain ⟨p, hp, -, hc | ⟨rfl, -⟩⟩ := (listed_addConsumer hw).1 hl
    · exact Nat.lt_succ_of_lt (hw.listFresh Q p c ⟨hp, hc⟩)
    · exact Nat.lt_succ_self _
  listNodup Q p hp := by
    rw [addConsumer_producers hw.ssrcNodup] at hp
    split at hp
    · obtain ⟨p0, hp0, rfl⟩ := List.mem_map.1 hp
      have hn := hw.listNodup P p0 hp0
      unfold relink
      split
      · refine List.Nodup.append hn (List.nodup_singleton _) ?_
        intro c hc hc'
        rw [List.mem_singleton] at hc'
        exact Nat.ne_of_lt (hw.listFresh P p0 c ⟨hp0, hc⟩) hc'
      · exact hn
    · exact hw.listNodup Q p hp
  listLink Q p' c hl := by
    obtain ⟨p, hp, rfl, hc | ⟨rfl, rfl, h0, he⟩⟩ := (listed_addConsumer hw).1 hl
    · rw [addConsumer_heap_old (hw.listFresh Q p c ⟨hp, hc⟩)]
      split
      · rw [relink_isVideo, relink_ssrc]; exact hw.listLink Q p c ⟨hp, hc⟩
      · exact hw.listLink Q p c ⟨hp, hc⟩
    · obtain ⟨q, hq, hqv, hqs⟩ := firstSsrc_ne_zero h0
      obtain rfl := hw.producer_ext hp hq (he.trans hqs.symm)
      rw [addConsumer_heap_new, if_pos rfl, relink_isVideo, relink_ssrc]
      exact ⟨rfl, hqv.symm, fun _ => he.symm⟩
  linked c Q hc hQ h0 := by
    rcases owned_addConsumer.1 hc with hc | rfl
    · rw [addConsumer_heap_old (hw.fresh c hc)] at hQ h0 ⊢
      obtain ⟨p, ⟨hp, hcp⟩, hps⟩ := hw.linked c Q hc hQ h0
      refine ⟨_, (listed_addConsumer hw).2 ⟨p, hp, rfl, .inl hcp⟩, ?_⟩
      split
      · rw [relink_ssrc]; exact hps
      · exact hps
    · rw [addConsumer_heap_new] at hQ h0 ⊢
      obtain rfl : P = Q := Option.some.inj hQ
      obtain ⟨p, hp, -, hps⟩ := firstSsrc_ne_zero h0
      exact ⟨_, (listed_addConsumer hw).2 ⟨p, hp, rfl, .inr ⟨rfl, rfl, h0, hps⟩⟩, by
        rw [if_pos rfl, relink_ssrc]; exact hps⟩
  waiting c Q hc hQ h0 p hp hv := by
    have hold : ∃ p0 ∈ (r.peers Q).producers,
        p0.isVideo = p.isVideo ∧ p0.originalSsrc = p.originalSsrc := by
      rw [addConsumer_producers hw.ssrcNodup] at hp
      split at hp
      · rename_i hQP
        obtain ⟨p0, hp0, rfl⟩ := List.mem_map.1 hp
        exact ⟨p0, hQP ▸ hp0, (relink_isVideo p0).symm, (relink_ssrc p0).symm⟩
      · exact ⟨p, hp, rfl, rfl⟩
    obtain ⟨p0, hp0, hv0, hs0⟩ := hold
    rw [← hs0]
    rw [← hv0] at hv
    rcases owned_addConsumer.1 hc with hc | rfl
    · rw [addConsumer_heap_old (hw.fresh c hc)] at hQ h0 hv
      exact hw.waiting c Q hc hQ h0 p0 hp0 hv
    · rw [addConsumer_heap_new] at hQ h0 hv
      obtain rfl : P = Q := Option.some.inj hQ
      exact firstSsrc_eq_zero h0 p0 hp0 hv
  active c hc hQ := by
    rcases owned_addConsumer.1 hc with hc | rfl
    · rw [addConsumer_heap_old (hw.fresh c hc)] at hQ ⊢
      exact hw.active c hc hQ
    · rw [addConsumer_heap_new]; rfl
  reverse ssrc c hc := by
    rw [addConsumer_out] at hc
    rw [owned_addConsumer]
    by_cases hs : ssrc = d.val
    · rw [hs, Function.update_self] at hc
      obtain rfl := Option.some.inj hc
      exact ⟨.inr rfl, by rw [addConsumer_heap_new]; exact hs.symm⟩
    · rw [Function.update_of_ne hs] at hc
      obtain ⟨ho, hr⟩ := hw.reverse ssrc c hc
      exact ⟨.inl ho, by rw [addConsumer_heap_old (hw.fresh c ho)]; exact hr⟩

end Namecon.Router
