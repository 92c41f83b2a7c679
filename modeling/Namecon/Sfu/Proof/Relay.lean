import Mathlib.Data.List.Find
import Mathlib.Data.List.Perm.Basic
import Namecon.Grpc.Proof.Mids
import Namecon.Lib.Simulation
import Namecon.Sfu.Relay

/-!
# The router refines the relay

`Refines r a`: the subscriptions of the relay `a` are, subscriber by subscriber, the consumers of the
router `r` whose publisher is still there, in the same order (`view`). A consumer may outlive its
publisher in the router, but the relay has forgotten it, and an orderly run never asks for it again.
Below `Orderly` a packet reaches exactly the consumers of its sender and kind, linked or not yet
(`ssrcAfterLinking_iff`). So the router sends step by step the RTP datagrams that the relay
delivers, up to the order within a step (`refines_relay`).
-/

namespace Namecon.Router

open Runs (exec trace Meets Simulates)
open ListFacts

variable {r r' : Router} {a : Relay} {S P X : PeerRef} {v : Bool} {d : SsrcDraw} {o : SrtpOracle}
  {buf : Bytes} {s : UInt32} {c : ConsumerRef}

/-- The publisher of `c` has not left. -/
def live (r : Router) (departed : List PeerRef) (c : ConsumerRef) : Bool :=
  (r.heap c).publisher.any fun P => P ∉ departed

/-- The consumer `c` of `S` as a subscription. -/
def view (r : Router) (S : PeerRef) (c : ConsumerRef) : Subscription where
  id := c
  subscriber := S
  publisher := (r.heap c).publisher.getD 0
  isVideo := (r.heap c).isVideo
  ssrc := (r.heap c).rewrittenSsrc
  mid := (r.heap c).recvMid

/-- The consumers `l` of `S` whose publisher has not left, as subscriptions. -/
def views (r : Router) (departed : List PeerRef) (S : PeerRef) (l : List ConsumerRef) :
    List Subscription :=
  (l.filter (r.live departed)).map (r.view S)

/-- The router shows what the relay says: its subscriptions are the consumers each peer owns, in
their order. -/
structure Refines (r : Router) (a : Relay) : Prop where
  linked : r.Linked
  nextId : a.nextId = r.nextConsumer
  name : ∀ p, a.name p = (r.peers p).peerId
  link : ∀ p, a.link p = ((r.peers p).remoteEp, (r.peers p).srtp)
  nodup : (a.subscriptions.map (·.id)).Nodup
  subscriptions : ∀ S, a.subscriptions.filter (·.subscriber == S) =
    r.views a.departed S (r.peers S).consumers

theorem live_iff {departed : List PeerRef} :
    r.live departed c = true ↔ ∃ P, (r.heap c).publisher = some P ∧ P ∉ departed := by
  unfold live
  cases (r.heap c).publisher with
  | none => simp
  | some P => simp

theorem refines_start (ids : PeerRef → String) : Refines (start ids) (Relay.start ids) where
  linked := linked_start ids
  nextId := rfl
  name _ := rfl
  link _ := rfl
  nodup := .nil
  subscriptions _ := rfl

theorem Refines.mem_iff (h : Refines r a) {x : Subscription} : x ∈ a.subscriptions ↔
    ∃ c ∈ (r.peers x.subscriber).consumers, r.live a.departed c = true ∧
      r.view x.subscriber c = x := by
  have hx : x ∈ a.subscriptions ↔ x ∈ a.subscriptions.filter (·.subscriber == x.subscriber) := by
    rw [List.mem_filter, and_iff_left (beq_self_eq_true _)]
  rw [hx, h.subscriptions, views, List.mem_map]
  simp only [List.mem_filter, and_assoc]

theorem Refines.id_lt (h : Refines r a) {x : Subscription} (hx : x ∈ a.subscriptions) :
    x.id < r.nextConsumer := by
  obtain ⟨c, hc, -, hview⟩ := h.mem_iff.1 hx
  rw [← hview]
  exact h.linked.wf.fresh c ⟨_, hc⟩

/-! ## Operations that leave the subscriptions alone -/

theorem views_congr {departed : List PeerRef} {l : List ConsumerRef}
    (hview : ∀ c ∈ l, r'.view S c = r.view S c)
    (hlive : ∀ c ∈ l, r'.live departed c = r.live departed c) :
    r'.views departed S l = r.views departed S l := by
  unfold views
  rw [List.filter_congr hlive]
  exact List.map_congr_left fun c hc => hview c (List.mem_filter.1 hc).1

theorem views_append (departed : List PeerRef) (l l' : List ConsumerRef) :
    r.views departed S (l ++ l') = r.views departed S l ++ r.views departed S l' := by
  unfold views
  rw [List.filter_append, List.map_append]

theorem SameSubscribers.views (hs : SameSubscribers r r')
    (hmid : ∀ c, (r'.heap c).recvMid = (r.heap c).recvMid) (departed : List PeerRef)
    (S : PeerRef) : r'.views departed S (r'.peers S).consumers =
      r.views departed S (r.peers S).consumers := by
  rw [hs.consumers]
  refine views_congr (fun c _ => ?_) fun c _ => ?_
  · simp only [view, hs.publisher, hs.isVideo, hs.rewrittenSsrc, hmid]
  · simp only [live, hs.publisher]

theorem SameTransport.refines_name (ht : SameTransport r r') (h : Refines r a) (p : PeerRef) :
    a.name p = (r'.peers p).peerId :=
  (h.name p).trans (ht.peerId p).symm

theorem SameTransport.refines_link (ht : SameTransport r r') (h : Refines r a) (p : PeerRef) :
    a.link p = ((r'.peers p).remoteEp, (r'.peers p).srtp) := by
  obtain ⟨_, _, hp⟩ := ht p
  rw [h.link p, hp]

/-! ## The steps -/

theorem Refines.addConsumer (h : Refines r a) (hP : P ∉ a.departed) :
    Refines (r.addConsumer S P v d).1 (a.step (.addConsumer S P v d)) where
  linked := @Linked.step _ h.linked (.addConsumer S P v d) trivial
  nextId := (congrArg (· + 1) h.nextId).trans addConsumer_next.symm
  name := SameTransport.refines_name (a := a) (sameTransport_addConsumer r S P v d) h
  link := SameTransport.refines_link (a := a) (sameTransport_addConsumer r S P v d) h
  nodup := by
    simp only [Relay.step, List.map_append, List.map_cons, List.map_nil]
    refine List.Nodup.append h.nodup (List.nodup_singleton _) fun i hi hnew => ?_
    obtain ⟨x, hx, rfl⟩ := List.mem_map.1 hi
    have hlt := h.id_lt hx
    rw [List.mem_singleton.1 hnew, h.nextId] at hlt
    exact Nat.lt_irrefl _ hlt
  subscriptions T := by
    have hold : (r.addConsumer S P v d).1.views a.departed T (r.peers T).consumers =
        r.views a.departed T (r.peers T).consumers := by
      have hheap : ∀ c ∈ (r.peers T).consumers, (r.addConsumer S P v d).1.heap c = r.heap c :=
        fun c hc => addConsumer_heap_old (h.linked.wf.fresh c ⟨T, hc⟩)
      refine views_congr (fun c hc => ?_) fun c hc => ?_
      · simp only [view, hheap c hc]
      · simp only [live, hheap c hc]
    simp only [Relay.step, List.filter_append, h.subscriptions]
    rw [addConsumer_consumers]
    by_cases hT : T = S
    · subst hT
      have hlive : (r.addConsumer T P v d).1.live a.departed r.nextConsumer = true :=
        live_iff.2 ⟨P, by rw [addConsumer_heap_new]; rfl, hP⟩
      have hview : (r.addConsumer T P v d).1.view T r.nextConsumer =
          { id := a.nextId, subscriber := T, publisher := P, isVideo := v, ssrc := d.val } := by
        unfold view
        rw [addConsumer_heap_new, h.nextId]
        rfl
      have hnew : (r.addConsumer T P v d).1.views a.departed T [r.nextConsumer] =
          [{ id := a.nextId, subscriber := T, publisher := P, isVideo := v, ssrc := d.val }] := by
        unfold views
        rw [List.filter_cons_of_pos hlive, List.filter_nil, List.map_singleton, hview]
      rw [if_pos rfl, views_append, hold, hnew]
      simp
    · rw [if_neg hT, hold]
      simp [Ne.symm hT]

theorem Refines.removePeer (h : Refines r a) :
    Refines (r.removePeer X) (a.step (.removePeer X)) where
  linked := @Linked.step _ h.linked (.removePeer X) trivial
  nextId := h.nextId.trans removePeer_next.symm
  name := SameTransport.refines_name (a := a) (sameTransport_removePeer r X) h
  link := SameTransport.refines_link (a := a) (sameTransport_removePeer r X) h
  nodup := h.nodup.sublist (List.filter_sublist.map _)
  subscriptions T := by
    simp only [Relay.step, List.filter_filter]
    rw [removePeer_consumers]
    by_cases hT : T = X
    · subst hT
      rw [if_pos rfl]
      refine List.filter_eq_nil_iff.2 fun x _ hx => ?_
      simp only [Bool.and_eq_true, beq_iff_eq, decide_eq_true_eq] at hx
      exact hx.2.1 hx.1
    · rw [if_neg hT]
      have hfilter : a.subscriptions.filter (fun x => x.subscriber == T &&
          decide (x.subscriber ≠ X ∧ x.publisher ≠ X)) =
          (a.subscriptions.filter (·.subscriber == T)).filter (·.publisher != X) := by
        rw [List.filter_filter]
        refine List.filter_congr fun x _ => ?_
        rw [Bool.eq_iff_iff]
        simp only [Bool.and_eq_true, beq_iff_eq, decide_eq_true_eq, bne_iff_ne]
        constructor
        · exact fun hx => ⟨hx.2.2, hx.1⟩
        · exact fun hx => ⟨hx.2, fun he => hT (hx.2.symm.trans he), hx.1⟩
      rw [hfilter, h.subscriptions]
      unfold views
      rw [List.filter_map, List.filter_filter]
      have hgone : ∀ c ∈ (r.peers T).consumers,
          (((fun x : Subscription => x.publisher != X) ∘ r.view T) c && r.live a.departed c) =
            (r.removePeer X).live (X :: a.departed) c := by
        intro c _
        rw [Bool.eq_iff_iff, Bool.and_eq_true, live_iff, live_iff, removePeer_heap]
        simp only [Function.comp, view, bne_iff_ne, heapAfter_publisher, List.mem_cons, not_or]
        constructor
        · rintro ⟨hne, P, hP, hgone⟩
          rw [hP] at hne
          refine ⟨P, ⟨fun haud => ?_, hP⟩, hne, hgone⟩
          -- what is retired has the publisher `X`
          obtain ⟨p, hl⟩ := mem_audience.1 haud
          exact hne (Option.some.inj (hP.symm.trans (h.linked.wf.listLink X p c hl).1))
        · rintro ⟨P, ⟨-, hP⟩, hne, hgone⟩
          rw [hP]
          exact ⟨hne, P, rfl, hgone⟩
      rw [List.filter_congr hgone]
      refine List.map_congr_left fun c hc => ?_
      obtain ⟨P, hP, -⟩ := live_iff.1 (List.mem_filter.1 hc).2
      rw [removePeer_heap] at hP
      simp only [view, removePeer_heap, heapAfter, if_neg (heapAfter_publisher.1 hP).1]

theorem isFor_view (h : Refines r a) {pid : String} (hX : ∀ X ∈ a.departed, a.name X ≠ pid) :
    (r.live a.departed c && a.isFor S pid v (r.view S c)) = r.bindsTo pid v (r.heap c) := by
  rw [Bool.eq_iff_iff, Bool.and_eq_true, live_iff]
  simp only [Relay.isFor, bindsTo, view, beq_self_eq_true, Bool.true_and, Bool.and_eq_true,
    beq_iff_eq, h.name]
  cases hP : (r.heap c).publisher with
  | none => simp
  | some P =>
    simp only [Option.some.injEq, exists_eq_left', Option.getD_some, beq_iff_eq]
    -- a publisher of that name has not left
    refine and_iff_right_of_imp fun hid hgone => hX P hgone ?_
    rw [h.name]
    exact hid.2

/-- The subscription that the relay binds is the consumer that the router binds. -/
theorem find?_isFor (h : Refines r a) {pid : String} (mid : String)
    (hX : ∀ X ∈ a.departed, a.name X ≠ pid) :
    (r.views a.departed S (r.peers S).consumers).find? (a.isFor S pid v) =
      (r.boundBy S ⟨mid, pid, v⟩).map (r.view S) := by
  unfold views boundBy
  rw [List.find?_map, List.find?_filter]
  refine congrArg _ (List.find?_congr fun c _ => ?_)
  rw [← isFor_view (S := S) h hX, Bool.decide_and, Bool.decide_eq_true, Bool.decide_eq_true]
  rfl

theorem view_bind (pid mid : String) (T : PeerRef) (c : ConsumerRef) :
    (r.bindConsumerByMid S pid v mid).1.view T c =
      if r.boundBy S ⟨mid, pid, v⟩ = some c then (r.view T c).withMid mid else r.view T c := by
  have hheap := @heap_bind r S ⟨mid, pid, v⟩ c
  simp only [view, hheap]
  split <;> rfl

theorem live_bind (pid mid : String) (departed : List PeerRef) (c : ConsumerRef) :
    (r.bindConsumerByMid S pid v mid).1.live departed c = r.live departed c := by
  have hheap := @heap_bind r S ⟨mid, pid, v⟩ c
  simp only [live, hheap]

theorem Refines.bind (h : Refines r a) (pid mid : String)
    (hX : ∀ X ∈ a.departed, a.name X ≠ pid) :
    Refines (r.bindConsumerByMid S pid v mid).1 (a.step (.bindConsumerByMid S pid v mid)) where
  linked := @Linked.step _ h.linked (.bindConsumerByMid S pid v mid) trivial
  nextId := h.nextId.trans (sameLinks_bind r S pid v mid).nextConsumer.symm
  name := SameTransport.refines_name (a := a) (sameTransport_bind r S pid v mid) h
  link := SameTransport.refines_link (a := a) (sameTransport_bind r S pid v mid) h
  nodup := by
    simp only [Relay.step]
    rw [map_updateFirst (f := Subscription.withMid mid) fun _ => rfl]
    exact h.nodup
  subscriptions T := by
    have hother : ∀ c ∈ (r.peers T).consumers, r.boundBy S ⟨mid, pid, v⟩ ≠ some c →
        (r.bindConsumerByMid S pid v mid).1.view T c = r.view T c :=
      fun c _ hne => by rw [view_bind, if_neg hne]
    simp only [Relay.step]
    rw [(sameLinks_bind r S pid v mid).consumers]
    by_cases hT : T = S
    · subst hT
      have hmine : (updateFirst (a.isFor T pid v) (Subscription.withMid mid)
          a.subscriptions).filter (·.subscriber == T) =
          updateFirst (a.isFor T pid v) (Subscription.withMid mid)
            (r.views a.departed T (r.peers T).consumers) := by
        rw [← h.subscriptions]
        refine filter_updateFirst (fun x hx => ?_) fun _ => rfl
        simp only [Relay.isFor, Bool.and_eq_true] at hx
        exact hx.1.1
      rw [hmine]
      cases hb : r.boundBy T ⟨mid, pid, v⟩ with
      | none =>
        rw [updateFirst_of_none (by rw [find?_isFor h mid hX, hb]; rfl)]
        exact (views_congr (fun c hc => hother c hc (by rw [hb]; simp))
          fun c _ => live_bind pid mid _ c).symm
      | some b =>
        have hn : ((r.views a.departed T (r.peers T).consumers).map (·.id)).Nodup := by
          unfold views
          rw [List.map_map]
          exact ((h.linked.wf.ownNodup T).filter _).map fun _ _ he => he
        rw [updateFirst_eq_map hn (by rw [find?_isFor h mid hX, hb]; rfl)]
        unfold views
        rw [List.map_map, List.filter_congr fun c _ => live_bind pid mid a.departed c]
        refine List.map_congr_left fun c _ => ?_
        rw [view_bind, hb]
        simp only [Function.comp, Option.some.injEq, view, eq_comm]
    · have htheirs : (updateFirst (a.isFor S pid v) (Subscription.withMid mid)
          a.subscriptions).filter (·.subscriber == T) =
          a.subscriptions.filter (·.subscriber == T) := by
        refine filter_updateFirst_of_not (fun x hx => ?_) fun _ => rfl
        simp only [Relay.isFor, Bool.and_eq_true, beq_iff_eq] at hx
        exact beq_eq_false_iff_ne.2 fun he => hT (he.symm.trans hx.1.1)
      rw [htheirs, h.subscriptions]
      refine (views_congr (fun c hc => hother c hc fun hb => hT ?_)
        fun c _ => live_bind pid mid _ c).symm
      exact h.linked.wf.owner_unique hc (boundBy_mem hb)

theorem onRtpPacket_next (V : Finset UInt8) :
    (r.onRtpPacket V o buf P).1.nextConsumer = r.nextConsumer := by
  cases hp : RtpHeader.parse buf with
  | none => rw [onRtpPacket_short hp]
  | some hdr =>
    rw [onRtpPacket_parse hp]
    refine (sameLinks_forward hp _ _).nextConsumer.trans ?_
    cases hf : r.findProducer P hdr.ssrc with
    | some p => rw [linkTargets_known hf]
    | none => rw [linkTargets_new hf, createProducer_rest.1]

theorem Refines.onRtpPacket (h : Refines r a) {V : Finset UInt8}
    (hzero : ∀ hdr ∈ RtpHeader.parse buf, hdr.ssrc ≠ 0) :
    Refines (r.onRtpPacket V o buf P).1 a where
  linked := @Linked.step _ h.linked (.onRtpPacket V o buf P) hzero
  nextId := h.nextId.trans (onRtpPacket_next V).symm
  name := SameTransport.refines_name (sameTransport_onRtpPacket r V o buf P) h
  link := SameTransport.refines_link (sameTransport_onRtpPacket r V o buf P) h
  nodup := h.nodup
  subscriptions S := by
    rw [h.subscriptions]
    exact ((sameSubscribers_onRtpPacket h.linked.wf V buf).views
      (MediaServer.onRtpPacket_recvMid V buf) _ S).symm

theorem Refines.setTransport (h : Refines r a) (ep : Endpoint) (dtls : Option DtlsContext)
    (srtp : Option SrtpContext) :
    Refines (r.setTransport X ep dtls srtp) (a.step (.setTransport X ep dtls srtp)) where
  linked := @Linked.step _ h.linked (.setTransport X ep dtls srtp) trivial
  nextId := h.nextId
  name p := by
    simp only [Relay.step, h.name, Router.setTransport]
    by_cases hp : p = X
    · subst hp; rw [modifyPeer_self]
    · rw [modifyPeer_ne _ _ _ hp]
  link p := by
    simp only [Relay.step, Router.setTransport]
    by_cases hp : p = X
    · subst hp; rw [Function.update_self, modifyPeer_self]
    · rw [Function.update_of_ne hp, modifyPeer_ne _ _ _ hp, h.link]
  nodup := h.nodup
  subscriptions S := by
    simp only [Relay.step]
    rw [h.subscriptions]
    exact ((sameLinks_setTransport r X ep dtls srtp).sameSubscribers.views (fun _ => rfl) _ S).symm

/-! ## The datagrams -/

/-- Where the stream `s` of `P` is its one stream of the kind `v`, its first packet leaves linked to
it exactly the consumers of that kind. -/
theorem ssrcAfterLinking_iff (h : r.Linked) (h0 : s ≠ 0) (hc : r.Owned c)
    (hP : (r.heap c).publisher = some P)
    (hkind : ∀ p ∈ (r.peers P).producers, p.originalSsrc = s ↔ p.isVideo = v) :
    r.ssrcAfterLinking P s v c = s ↔ (r.heap c).isVideo = v := by
  unfold ssrcAfterLinking
  by_cases hlinked : (r.heap c).publisherSsrc = 0
  · -- a waiting consumer: no producer of its kind is there
    have hnone := h.wf.waiting c P hc hP hlinked
    split
    · rename_i hnew
      exact ⟨fun _ => hnew.2.2.1, fun _ => rfl⟩
    · rename_i hold
      rw [hlinked]
      refine ⟨fun hs => absurd hs.symm h0, fun hv => absurd ⟨?_, hP, hv, hlinked⟩ hold⟩
      refine findProducer_none.2 fun p hp hps => h.noZero P p hp (hnone p hp ?_)
      rw [(hkind p hp).1 hps, hv]
  · -- a linked consumer: its producer has its kind
    rw [if_neg fun hnew => hlinked hnew.2.2.2]
    obtain ⟨p, hl, hps⟩ := h.wf.linked c P hc hP hlinked
    rw [(h.wf.listLink P p c hl).2.1, ← hps]
    exact hkind p hl.1

/-- What a bound subscription to the stream gets, in terms of the consumer it stands for. -/
theorem deliver_view (h : Refines r a) {ctx : SrtpContext} {d : Datagram} :
    a.deliver o buf (r.view S c) = some d ∧ (r.peers S).srtp = some ctx ↔
      ∃ data, (r.peers S).srtp = some ctx ∧
        o.protect c ctx (withSsrc buf (r.heap c).rewrittenSsrc) = some data ∧
        d = r.delivery buf c S data := by
  unfold Relay.deliver
  simp only [view, h.link]
  constructor
  · intro hd
    obtain ⟨hd, hctx⟩ := hd
    rw [hctx, Option.bind_some, Option.map_eq_some_iff] at hd
    obtain ⟨data, hdata, rfl⟩ := hd
    exact ⟨data, hctx, hdata, rfl⟩
  · intro hd
    obtain ⟨data, hctx, hdata, rfl⟩ := hd
    rw [hctx, Option.bind_some, hdata]
    exact ⟨rfl, rfl⟩

/-- The recipients of the router are those of the relay. -/
theorem recipient_iff (h : Refines r a) (h0 : s ≠ 0) (hP : P ∉ a.departed)
    (hkind : ∀ p ∈ (r.peers P).producers, p.originalSsrc = s ↔ p.isVideo = v) {d : Datagram} :
    (∃ S ctx data, r.Recipient o buf P s v c S ctx data ∧ d = r.delivery buf c S data) ↔
      ∃ x ∈ a.subscriptions, Relay.relays P v x = true ∧ a.deliver o buf x = some d ∧
        x.id = c := by
  constructor
  · intro hr
    obtain ⟨S, ctx, data, hr, rfl⟩ := hr
    have howned : r.Owned c := ⟨S, hr.owned⟩
    have hlive : r.live a.departed c = true := live_iff.2 ⟨P, hr.publisher, hP⟩
    refine ⟨r.view S c, h.mem_iff.2 ⟨c, hr.owned, hlive, rfl⟩, ?_,
      ((deliver_view h).2 ⟨data, hr.srtp, hr.protect, rfl⟩).1, rfl⟩
    have hv := (ssrcAfterLinking_iff h.linked h0 howned hr.publisher hkind).1 hr.publisherSsrc
    simp only [Relay.relays, view, hr.publisher, Option.getD_some, hv, beq_self_eq_true,
      Bool.true_and, bne_iff_ne]
    exact hr.recvMid
  · intro hx
    obtain ⟨x, hx, hrel, hd, rfl⟩ := hx
    obtain ⟨c, hc, hlive, hview⟩ := h.mem_iff.1 hx
    generalize x.subscriber = S at hc hview
    subst hview
    obtain ⟨Q, hQ, -⟩ := live_iff.1 hlive
    simp only [Relay.relays, view, hQ, Option.getD_some, Bool.and_eq_true, beq_iff_eq,
      bne_iff_ne] at hrel
    obtain ⟨⟨rfl, hv⟩, hmid⟩ := hrel
    have hsrtp : ∃ ctx, (r.peers S).srtp = some ctx := by
      unfold Relay.deliver at hd
      obtain ⟨ctx, hctx, -⟩ := Option.bind_eq_some_iff.1 hd
      rw [h.link] at hctx
      exact ⟨ctx, hctx⟩
    obtain ⟨ctx, hctx⟩ := hsrtp
    obtain ⟨data, -, hdata, rfl⟩ := (deliver_view h).1 ⟨hd, hctx⟩
    refine ⟨S, ctx, data, ⟨⟨hc, hQ, ?_, ?_, hmid, hctx⟩, hdata⟩, rfl⟩
    · exact (ssrcAfterLinking_iff h.linked h0 ⟨S, hc⟩ hQ hkind).2 hv
    · exact h.linked.wf.active c ⟨S, hc⟩ (by rw [hQ]; simp)

/-- A packet makes the router send what the relay delivers. -/
theorem media_perm (h : Refines r a) {V : Finset UInt8} {hdr : RtpHeader}
    (hp : RtpHeader.parse buf = some hdr) (hP : P ∉ a.departed) (h0 : hdr.ssrc ≠ 0)
    (hkind : ∀ p ∈ (r.peers P).producers,
      p.originalSsrc = hdr.ssrc ↔ p.isVideo = decide (hdr.payloadType ∈ V)) :
    ((r.onRtpPacket V o buf P).2.filter (·.channel = .rtp)).Perm
      (a.deliveries (.onRtpPacket V o buf P)) := by
  obtain ⟨sent, hn, hout, hmem⟩ := (h.linked.forwardsExactly (o := o) (P := P) hp h0 V).datagrams
  generalize hv : decide (hdr.payloadType ∈ V) = v at hkind hmem
  have hn' := ListFacts.nodup_keys_filterMap
    (h.nodup.sublist (List.filter_sublist (p := Relay.relays P v).map _)) (a.deliver o buf)
  have hperm := (List.perm_ext_iff_of_nodup hn.of_map hn'.of_map).2 fun x => ?_
  · have hspec : a.deliveries (.onRtpPacket V o buf P) =
        ((a.subscriptions.filter (Relay.relays P v)).filterMap fun x =>
          (a.deliver o buf x).map (Prod.mk x.id)).map Prod.snd := by
      simp only [Relay.deliveries, hp, Option.elim_some, hv, List.map_filterMap, Option.map_map]
      exact List.filterMap_congr fun x _ => Option.map_id'.symm
    rw [hout, hspec]
    exact hperm.map _
  · obtain ⟨c, d⟩ := x
    rw [hmem, recipient_iff h h0 hP hkind]
    simp only [List.mem_filterMap, List.mem_filter, Option.map_eq_some_iff, Prod.mk.injEq,
      and_assoc]
    exact exists_congr fun x => and_congr_right fun _ => and_congr_right fun _ =>
      ⟨fun hx => ⟨d, hx.1, hx.2, rfl⟩, fun ⟨_, hd, hc, he⟩ => ⟨he ▸ hd, hc⟩⟩

/-- Below `Orderly` the relay simulates the router, whatever the order of what is sent in a
step. -/
theorem simulates_relay : Simulates step media Relay.step Relay.deliveries Orderly Refines
    List.Perm where
  step r a op h hop := by
    cases op with
    | addConsumer S P v d => exact h.addConsumer hop.2
    | removePeer X => exact h.removePeer
    | bindConsumerByMid S pid v mid => exact h.bind pid mid hop
    | onRtpPacket V o buf P => exact h.onRtpPacket fun hdr hp => (hop hdr hp).2.1
    | setTransport X ep dtls srtp => exact h.setTransport ep dtls srtp
  out r a op h hop := by
    cases op with
    | onRtpPacket V o buf P =>
      cases hp : RtpHeader.parse buf with
      | none => simp [media, onRtpPacket_short hp, Relay.deliveries, hp]
      | some hdr =>
        obtain ⟨hP, h0, hkind⟩ := hop hdr hp
        exact media_perm h hp hP h0 hkind
    | _ => exact .refl _

/-- **The router refines the relay**: in every orderly run the RTP datagrams it sends are, step by
step, those the relay delivers. The PLI for a new video stream is not one of them. -/
theorem refines_relay (ids : PeerRef → String) (ops : List RouterOp)
    (hops : Meets (Runs.both step Relay.step) Orderly (start ids, .start ids) ops) :
    List.Forall₂ List.Perm (trace step media (start ids) ops)
      (trace Relay.step Relay.deliveries (.start ids) ops) :=
  (simulates_relay.run (refines_start ids) hops).2

/-- A packet of the audio stream 7, to a library that protects everything. -/
def audioPacket (sender : PeerRef) : RouterOp :=
  .onRtpPacket ∅ ⟨fun _ _ b => some b, fun _ _ b => some b⟩
    [0x80, 111, 0, 1, 0, 0, 0, 0, 0, 0, 0, 7] sender

theorem nextDraw_low : (0x40000000 : UInt32) ≤ 0x40000001 := by decide

theorem nextDraw_high : (0x40000001 : UInt32) ≤ 0x7FFFFFFF := by decide

/-- The draw after the least. -/
def nextDraw : SsrcDraw := ⟨0x40000001, nextDraw_low, nextDraw_high⟩

/-- Peers 1 and 3 subscribe to the audio of peer 2, one before its first packet and one after it,
and peer 1 leaves. -/
def relayedRun : List RouterOp :=
  [.setTransport 1 ⟨1, 1⟩ (some ⟨⟨1, 1⟩, true⟩) (some ⟨[1]⟩),
    .setTransport 3 ⟨3, 3⟩ (some ⟨⟨3, 3⟩, true⟩) (some ⟨[3]⟩),
    .addConsumer 1 2 false default, .bindConsumerByMid 1 "2" false "0", audioPacket 2,
    .addConsumer 3 2 false nextDraw, .bindConsumerByMid 3 "2" false "1",
    audioPacket 2, .removePeer 1, audioPacket 2]

theorem refines_relay_relayedRun :
    List.Forall₂ List.Perm (trace step media (start toString) relayedRun)
      (trace Relay.step Relay.deliveries (.start toString) relayedRun) ∧
    (trace Relay.step Relay.deliveries (.start toString) relayedRun).map (·.map (·.target)) =
      [[], [], [], [], [⟨1, 1⟩], [], [], [⟨1, 1⟩, ⟨3, 3⟩], [], [⟨3, 3⟩]] :=
  ⟨refines_relay toString relayedRun (by decide), by decide⟩

end Namecon.Router
