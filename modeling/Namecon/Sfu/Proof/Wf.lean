import Namecon.Sfu.Run

/-!
# The invariant of the router

`Router.Wf` holds in every state of every run, whatever SSRCs the packets carry: who owns a
consumer, how a consumer's fields agree with the lists it stands in, and what `_outSsrcToConsumer`
points to. It does not say that a listed consumer is still owned: that needs a condition on the run
(`Sfu/Proof/Dangling.lean`). `Wf.frame`: writes to other fields keep it.
-/

namespace Namecon.Router

variable {r r' : Router}

/-- `c` is owned: it has not been destroyed. -/
def Owned (r : Router) (c : ConsumerRef) : Prop := ∃ S, c ∈ (r.peers S).consumers

/-- `c` stands in the list of the producer `p` of `P`. -/
def Listed (r : Router) (P : PeerRef) (p : Producer) (c : ConsumerRef) : Prop :=
  p ∈ (r.peers P).producers ∧ c ∈ p.consumers

/-- The lists of the router agree with the heap, and none holds an entry twice. -/
structure Wf (r : Router) : Prop where
  fresh : ∀ c, r.Owned c → c < r.nextConsumer
  ownNodup : ∀ S, (r.peers S).consumers.Nodup
  subscriber : ∀ S, ∀ c ∈ (r.peers S).consumers, (r.heap c).subscriber = some S
  registered : ∀ S, ∀ c ∈ (r.peers S).consumers, S ∈ r.allPeers
  peersNodup : r.allPeers.Nodup
  ssrcNodup : ∀ P, ((r.peers P).producers.map (·.originalSsrc)).Nodup
  publisher : ∀ P, ∀ p ∈ (r.peers P).producers, p.publisher = P
  listFresh : ∀ P p c, r.Listed P p c → c < r.nextConsumer
  listNodup : ∀ P, ∀ p ∈ (r.peers P).producers, p.consumers.Nodup
  /-- A list holds consumers of its stream, linked to it unless the stream has the SSRC 0. -/
  listLink : ∀ P p c, r.Listed P p c → (r.heap c).publisher = some P ∧
    (r.heap c).isVideo = p.isVideo ∧
    (p.originalSsrc ≠ 0 → (r.heap c).publisherSsrc = p.originalSsrc)
  /-- A linked consumer stands in the list of its stream. -/
  linked : ∀ c P, r.Owned c → (r.heap c).publisher = some P → (r.heap c).publisherSsrc ≠ 0 →
    ∃ p, r.Listed P p c ∧ p.originalSsrc = (r.heap c).publisherSsrc
  /-- No consumer waits for a stream of a kind its publisher already sends. -/
  waiting : ∀ c P, r.Owned c → (r.heap c).publisher = some P → (r.heap c).publisherSsrc = 0 →
    ∀ p ∈ (r.peers P).producers, p.isVideo = (r.heap c).isVideo → p.originalSsrc = 0
  active : ∀ c, r.Owned c → (r.heap c).publisher ≠ none → (r.heap c).active = true
  reverse : ∀ ssrc c, r.outSsrcToConsumer ssrc = some c →
    r.Owned c ∧ (r.heap c).rewrittenSsrc = ssrc

theorem Wf.of_fresh (h : r.Fresh) : r.Wf := by
  have hno : ∀ c, ¬ r.Owned c := fun c ⟨S, hc⟩ => by rw [h.consumers] at hc; cases hc
  have hnl : ∀ P p c, ¬ r.Listed P p c := fun P p c ⟨hp, _⟩ => by rw [h.producers] at hp; cases hp
  exact
    { fresh := fun c hc => absurd hc (hno c)
      ownNodup := fun S => by rw [h.consumers]; exact .nil
      subscriber := fun S c hc => absurd ⟨S, hc⟩ (hno c)
      registered := fun S c hc => absurd ⟨S, hc⟩ (hno c)
      peersNodup := by rw [h.allPeers]; exact .nil
      ssrcNodup := fun P => by rw [h.producers]; exact .nil
      publisher := fun P p hp => by rw [h.producers] at hp; cases hp
      listFresh := fun P p c hl => absurd hl (hnl P p c)
      listNodup := fun P p hp => by rw [h.producers] at hp; cases hp
      listLink := fun P p c hl => absurd hl (hnl P p c)
      linked := fun c P hc => absurd hc (hno c)
      waiting := fun c P hc => absurd hc (hno c)
      active := fun c hc => absurd hc (hno c)
      reverse := fun ssrc c hc => by rw [h.outSsrcToConsumer] at hc; cases hc }

/-- A consumer has one owner. -/
theorem Wf.owner_unique (h : r.Wf) {S S' : PeerRef} {c : ConsumerRef}
    (hc : c ∈ (r.peers S).consumers) (hc' : c ∈ (r.peers S').consumers) : S = S' :=
  Option.some.inj ((h.subscriber S c hc).symm.trans (h.subscriber S' c hc'))

/-- Producers of one peer are told apart by their SSRC. -/
theorem Wf.producer_ext (h : r.Wf) {P : PeerRef} {p q : Producer}
    (hp : p ∈ (r.peers P).producers) (hq : q ∈ (r.peers P).producers)
    (he : p.originalSsrc = q.originalSsrc) : p = q :=
  List.inj_on_of_nodup_map (h.ssrcNodup P) hp hq he

/-- The list of a stream with an SSRC holds exactly the consumers linked to it, of those that are
still owned. -/
theorem Wf.mem_list (h : r.Wf) {P : PeerRef} {p : Producer} (hp : p ∈ (r.peers P).producers)
    (h0 : p.originalSsrc ≠ 0) {c : ConsumerRef} (hc : r.Owned c) :
    c ∈ p.consumers ↔
      (r.heap c).publisher = some P ∧ (r.heap c).publisherSsrc = p.originalSsrc := by
  constructor
  · intro hcp
    obtain ⟨hP, -, hs⟩ := h.listLink P p c ⟨hp, hcp⟩
    exact ⟨hP, hs h0⟩
  · intro h
    obtain ⟨hP, hs⟩ := h
    obtain ⟨q, hl, hq⟩ := h.linked c P hc hP (by rw [hs]; exact h0)
    obtain rfl := h.producer_ext hl.1 hp (hq.trans hs)
    exact hl.2

/-! ## Frames -/

/-- `k'` differs from `k` in nothing the links of the router depend on. -/
structure SameLink (k k' : Consumer) : Prop where
  subscriber : k'.subscriber = k.subscriber
  publisher : k'.publisher = k.publisher
  isVideo : k'.isVideo = k.isVideo
  rewrittenSsrc : k'.rewrittenSsrc = k.rewrittenSsrc
  publisherSsrc : k'.publisherSsrc = k.publisherSsrc
  active : k'.active = k.active

theorem SameLink.refl (k : Consumer) : SameLink k k := ⟨rfl, rfl, rfl, rfl, rfl, rfl⟩

theorem SameLink.trans {k k' k'' : Consumer} (h : SameLink k k') (h' : SameLink k' k'') :
    SameLink k k'' :=
  ⟨h'.1.trans h.1, h'.2.trans h.2, h'.3.trans h.3, h'.4.trans h.4, h'.5.trans h.5,
    h'.6.trans h.6⟩

/-- `r'` differs from `r` in nothing the links of the router depend on. -/
structure SameLinks (r r' : Router) : Prop where
  producers : ∀ p, (r'.peers p).producers = (r.peers p).producers
  consumers : ∀ p, (r'.peers p).consumers = (r.peers p).consumers
  allPeers : r'.allPeers = r.allPeers
  nextConsumer : r'.nextConsumer = r.nextConsumer
  outSsrcToConsumer : r'.outSsrcToConsumer = r.outSsrcToConsumer
  heap : ∀ c, SameLink (r.heap c) (r'.heap c)

theorem SameLinks.refl (r : Router) : SameLinks r r :=
  ⟨fun _ => rfl, fun _ => rfl, rfl, rfl, rfl, fun _ => .refl _⟩

theorem SameLinks.trans {r'' : Router} (h : SameLinks r r') (h' : SameLinks r' r'') :
    SameLinks r r'' :=
  ⟨fun p => (h'.producers p).trans (h.producers p), fun p => (h'.consumers p).trans (h.consumers p),
    h'.allPeers.trans h.allPeers, h'.nextConsumer.trans h.nextConsumer,
    h'.outSsrcToConsumer.trans h.outSsrcToConsumer, fun c => (h.heap c).trans (h'.heap c)⟩

theorem SameLinks.owned (h : SameLinks r r') (c : ConsumerRef) : r'.Owned c ↔ r.Owned c := by
  simp only [Owned, h.consumers]

theorem SameLinks.listed (h : SameLinks r r') (P : PeerRef) (p : Producer) (c : ConsumerRef) :
    r'.Listed P p c ↔ r.Listed P p c := by
  simp only [Listed, h.producers]

theorem Wf.frame (hw : r.Wf) (h : SameLinks r r') : r'.Wf where
  fresh c hc := by rw [h.nextConsumer]; exact hw.fresh c ((h.owned c).1 hc)
  ownNodup S := by rw [h.consumers]; exact hw.ownNodup S
  subscriber S c hc := by
    rw [h.consumers] at hc
    rw [(h.heap c).subscriber]; exact hw.subscriber S c hc
  registered S c hc := by
    rw [h.consumers] at hc
    rw [h.allPeers]; exact hw.registered S c hc
  peersNodup := by rw [h.allPeers]; exact hw.peersNodup
  ssrcNodup P := by rw [h.producers]; exact hw.ssrcNodup P
  publisher P p hp := by rw [h.producers] at hp; exact hw.publisher P p hp
  listFresh P p c hl := by rw [h.nextConsumer]; exact hw.listFresh P p c ((h.listed P p c).1 hl)
  listNodup P p hp := by rw [h.producers] at hp; exact hw.listNodup P p hp
  listLink P p c hl := by
    rw [(h.heap c).publisher, (h.heap c).isVideo, (h.heap c).publisherSsrc]
    exact hw.listLink P p c ((h.listed P p c).1 hl)
  linked c P hc hP hs := by
    rw [(h.heap c).publisher] at hP
    rw [(h.heap c).publisherSsrc] at hs ⊢
    simp only [h.listed]
    exact hw.linked c P ((h.owned c).1 hc) hP hs
  waiting c P hc hP hs := by
    rw [(h.heap c).publisher] at hP
    rw [(h.heap c).publisherSsrc] at hs
    rw [(h.heap c).isVideo, h.producers]
    exact hw.waiting c P ((h.owned c).1 hc) hP hs
  active c hc hP := by
    rw [(h.heap c).publisher] at hP
    rw [(h.heap c).active]; exact hw.active c ((h.owned c).1 hc) hP
  reverse ssrc c hc := by
    rw [h.outSsrcToConsumer] at hc
    rw [h.owned, (h.heap c).rewrittenSsrc]
    exact hw.reverse ssrc c hc

end Namecon.Router
