import Namecon.Sfu.Proof.Exact
import Namecon.Sfu.Proof.Transport
import Namecon.Sfu.Race

/-!
# Which consumers a call uses after it releases the lock

The snapshot of `onRtpPacket` and the result of `findConsumerByOutSsrc` outlive the lock. A call
uses only consumers that are still owned exactly when its snapshot holds none that is destroyed
already and no `removePeer` takes a consumer the call still holds (`race_uses_iff`). Undisturbed,
the steps of the call are `onRtpPacket` and `onRtcpPacket` (`alone_onRtpPacket`,
`alone_onRtcpPacket`).
-/

namespace Namecon.Race

open Runs (exec Meets)
open Router

variable {k : Call} {s : Race} {r : Router} {pc : Pc} {c : ConsumerRef} {X : PeerRef}

/-- A step of the call dereferences no destroyed consumer. -/
def UsesOwned (s : Race) : RaceOp → Prop
  | .call => ∀ c ∈ s.pc.uses, s.router.Owned c
  | .removePeer _ => True

/-- The step leaves the call with pointers to owned consumers only: a snapshot is taken of a list
that holds no destroyed one, and no consumer the call holds is destroyed. -/
def KeepsHeld (k : Call) (s : Race) : RaceOp → Prop
  | .call => ∀ hdr, s.pc = .lookup hdr ∨ s.pc = .create hdr →
      ∀ p ∈ s.router.findProducer k.fromPeer hdr.ssrc, ∀ c ∈ p.consumers, s.router.Owned c
  | .removePeer X => ∀ c ∈ s.pc.held, c ∉ (s.router.peers X).consumers

/-- The consumers the call holds are owned. -/
def HeldOwned (s : Race) : Prop := ∀ c ∈ s.pc.held, s.router.Owned c

/-! ## Steps of the call -/

@[simp] theorem held_visit (l : List ConsumerRef) : (Pc.visit l).held = l := by
  cases l <;> rfl

@[simp] theorem held_next (l : List (Nat × Request)) : (Pc.next l).held = [] := by
  cases l <;> rfl

@[simp] theorem held_crashed : Pc.crashed.held = [] := rfl

theorem mem_held_of_uses (h : c ∈ pc.uses) : c ∈ pc.held := by
  cases pc with
  | build c' publisher i reading rest => cases reading <;> cases h <;> exact .head _
  | lookup | create | find | done | crashed => cases h
  | active | subscriber | subscriberSrtp | recvMid | rewrite | protect | send | packetsSent
  | octetsSent | publisher | publisherSrtp | copy => cases h; exact .head _

theorem held_of_over (h : pc.Over) : pc.held = [] := by
  rcases h with rfl | rfl <;> rfl

theorem createTargets_eq {o : SrtpOracle} {P : PeerRef} {t : UInt32} {v : Bool} :
    r.createTargets o P t v = r.linkTargets o P t v := by
  cases h : r.findProducer P t with
  | some p => rw [linkTargets_known h]; simp only [createTargets, h]
  | none => simp only [linkTargets, lookupTargets, h, Option.map_none]

theorem sameLink_rewrite (buf : Bytes) (x : Consumer) : SameLink x (rewriteRtpHeader buf x).2 := by
  cases h : RtpHeader.parse buf with
  | none => simp only [rewriteRtpHeader, h]; exact .refl x
  | some hdr => rw [rewriteRtpHeader_spec h]; exact ⟨rfl, rfl, rfl, rfl, rfl, rfl⟩

theorem sameLinks_modifyConsumer {f : Consumer → Consumer}
    (h : SameLink (r.heap c) (f (r.heap c))) :
    SameLinks r (r.modifyConsumer c f) := by
  refine ⟨fun _ => rfl, fun _ => rfl, rfl, rfl, rfl, fun c' => ?_⟩
  by_cases hc : c' = c
  · subst hc; rw [modifyConsumer_self]; exact h
  · rw [modifyConsumer_ne _ _ _ hc]; exact .refl _

/-- But for the exclusive section, a step of the call keeps the links. -/
theorem step_links (k : Call) (r : Router) (pc : Pc) :
    SameLinks r (k.step r pc).1 ∨ ∃ hdr : RtpHeader, (k.step r pc).1 =
      (r.linkTargets k.srtp k.fromPeer hdr.ssrc (hdr.payloadType ∈ k.videoPTs)).1 := by
  cases pc with
  | create hdr => exact .inr ⟨hdr, congrArg Prod.fst createTargets_eq⟩
  | rewrite c rest =>
    exact .inl (sameLinks_modifyConsumer (f := fun _ => (rewriteRtpHeader k.packet (r.heap c)).2)
      (sameLink_rewrite k.packet (r.heap c)))
  | packetsSent c rest =>
    exact .inl (sameLinks_modifyConsumer (f := fun x => { x with packetsSent := x.packetsSent + 1 })
      ⟨rfl, rfl, rfl, rfl, rfl, rfl⟩)
  | octetsSent c rest =>
    exact .inl (sameLinks_modifyConsumer
      (f := fun x => { x with octetsSent := x.octetsSent + UInt32.ofNat k.packet.length })
      ⟨rfl, rfl, rfl, rfl, rfl, rfl⟩)
  | lookup hdr => left; simp only [Call.step]; split <;> exact .refl r
  | subscriberSrtp c rest => left; simp only [Call.step]; split <;> exact .refl r
  | protect c rest out =>
    left
    simp only [Call.step]
    split
    · exact .refl r
    · split <;> exact .refl r
  | send c rest out data => left; simp only [Call.step]; split <;> exact .refl r
  | find q rest => left; simp only [Call.step]; split <;> exact .refl r
  | publisherSrtp c q rest => left; simp only [Call.step]; split <;> exact .refl r
  | build c publisher i reading rest =>
    left
    cases reading with
    | seqDelta | publisherSsrc => exact .refl r
    | built plain =>
      simp only [Call.step]
      split
      · exact .refl r
      · split <;> exact .refl r
  | active | subscriber | recvMid | publisher | copy | done | crashed => exact .inl (.refl r)

theorem wf_callStep (hw : r.Wf) : (k.step r pc).1.Wf := by
  rcases step_links k r pc with h | ⟨hdr, h⟩
  · exact hw.frame h
  · rw [h]; exact hw.linkTargets

theorem owned_callStep (hw : r.Wf) : (k.step r pc).1.Owned c ↔ r.Owned c := by
  rcases step_links k r pc with h | ⟨hdr, h⟩
  · exact h.owned c
  · rw [h]; exact owned_linkTargets hw

/-- The consumer has a subscriber with SRTP keys. -/
def Keyed (r : Router) (c : ConsumerRef) : Prop :=
  ∃ S, (r.heap c).subscriber = some S ∧ (r.peers S).srtp.isSome

/-- What the forwarding loop has tested. -/
def Tested (s : Race) : Prop :=
  match s.pc with
  | .subscriberSrtp c _ => (s.router.heap c).subscriber.isSome
  | .recvMid c _ | .rewrite c _ | .protect c _ _ | .send c _ _ _ => Keyed s.router c
  | _ => True

theorem tested_visit (r : Router) (l : List ConsumerRef) (ds : List Datagram) :
    Tested ⟨r, .visit l, ds⟩ := by
  cases l <;> trivial

theorem tested_next (r : Router) (l : List (Nat × Request)) (ds : List Datagram) :
    Tested ⟨r, .next l, ds⟩ := by
  cases l <;> trivial

/-- What has been tested stays so: nobody takes the subscriber from a consumer. -/
theorem tested_step (h : s.Tested) (op : RaceOp) : (s.step k op).Tested := by
  obtain ⟨r, pc, sent⟩ := s
  cases op with
  | removePeer X =>
    have hsub : ∀ c, ((r.removePeer X).heap c).subscriber = (r.heap c).subscriber := fun c => by
      rw [removePeer_heap, heapAfter_subscriber]
    have hkeyed : ∀ c, Keyed r c → Keyed (r.removePeer X) c := fun c ⟨S, hS, hsrtp⟩ => by
      obtain ⟨_, _, hpeer⟩ := sameTransport_removePeer r X S
      exact ⟨S, (hsub c).trans hS, by rw [hpeer]; exact hsrtp⟩
    cases pc with
    | subscriberSrtp c rest => exact (congrArg Option.isSome (hsub c)).trans h
    | recvMid c | rewrite c | protect c | send c => exact hkeyed c h
    | _ => trivial
  | call =>
    simp only [step]
    cases pc with
    | lookup hdr => simp only [Call.step]; split; exacts [tested_visit _ _ _, trivial]
    | create hdr => exact tested_visit _ _ _
    | active c rest => simp only [Call.step]; split; exacts [trivial, tested_visit _ _ _]
    | subscriber c rest =>
      simp only [Call.step]
      split
      · rename_i hsome
        exact hsome
      · exact tested_visit _ _ _
    | subscriberSrtp c rest =>
      simp only [Call.step]
      split
      · trivial
      · rename_i S hS
        split
        · rename_i hsrtp
          exact ⟨S, hS, hsrtp⟩
        · exact tested_visit _ _ _
    | recvMid c rest => simp only [Call.step]; split; exacts [tested_visit _ _ _, h]
    | rewrite c rest =>
      obtain ⟨S, hS, hsrtp⟩ := h
      refine ⟨S, ?_, hsrtp⟩
      simp only [Call.step]
      rw [modifyConsumer_self, (sameLink_rewrite _ _).subscriber]
      exact hS
    | protect c rest out =>
      simp only [Call.step]
      split
      · trivial
      · split
        · exact tested_visit _ _ _
        · exact h
    | send c rest out data => simp only [Call.step]; split <;> trivial
    | packetsSent c rest => trivial
    | octetsSent c rest => exact tested_visit _ _ _
    | find q rest => simp only [Call.step]; split; exacts [tested_next _ _ _, trivial]
    | publisher c q rest => simp only [Call.step]; split; exacts [trivial, tested_next _ _ _]
    | publisherSrtp c q rest =>
      simp only [Call.step]
      split
      · trivial
      · split; exacts [trivial, tested_next _ _ _]
    | copy c q rest => trivial
    | build c publisher i reading rest =>
      cases reading with
      | seqDelta | publisherSsrc => trivial
      | built plain =>
        simp only [Call.step]
        split
        · trivial
        · split; exacts [trivial, tested_next _ _ _]
    | done | crashed => trivial

/-- What a step does not dereference of what the call holds, the call still holds: the forwarding
loop does not crash. -/
theorem held_callStep (ht : s.Tested) (h : c ∈ s.pc.held) :
    c ∈ s.pc.uses ∨ c ∈ (k.step s.router s.pc).2.1.held := by
  obtain ⟨r, pc, sent⟩ := s
  cases pc with
  | lookup | create | find | done | crashed => cases h
  | publisher | publisherSrtp | copy => exact .inl (List.mem_singleton.1 h ▸ rfl)
  | build c' publisher i reading rest =>
    cases reading with
    | seqDelta | publisherSsrc => exact .inl (List.mem_singleton.1 h ▸ rfl)
    | built plain => cases h
  | subscriberSrtp c' rest =>
    rcases List.mem_cons.1 h with rfl | h
    · exact .inl rfl
    · obtain ⟨S, hS : (r.heap c').subscriber = some S⟩ := Option.isSome_iff_exists.1 ht
      right
      simp only [Call.step, hS]
      split
      · exact List.mem_cons_of_mem _ h
      · exact (held_visit rest).symm ▸ h
  | protect c' rest out =>
    rcases List.mem_cons.1 h with rfl | h
    · exact .inl rfl
    · obtain ⟨S, hS : (r.heap c').subscriber = some S, hsrtp⟩ := ht
      obtain ⟨ctx, hctx : (r.peers S).srtp = some ctx⟩ := Option.isSome_iff_exists.1 hsrtp
      right
      simp only [Call.step, hS, Option.bind_some, hctx]
      split
      · exact (held_visit rest).symm ▸ h
      · exact List.mem_cons_of_mem _ h
  | send c' rest out data =>
    rcases List.mem_cons.1 h with rfl | h
    · exact .inl rfl
    · obtain ⟨S, hS : (r.heap c').subscriber = some S, -⟩ := ht
      right
      simp only [Call.step, hS]
      exact List.mem_cons_of_mem _ h
  | active c' rest | subscriber c' rest | recvMid c' rest | rewrite c' rest | packetsSent c' rest
  | octetsSent c' rest =>
    rcases List.mem_cons.1 h with rfl | h
    · exact .inl rfl
    · right
      simp only [Call.step]
      repeat' split
      all_goals first | exact (held_visit rest).symm ▸ h | exact List.mem_cons_of_mem _ h

theorem mem_of_mem_held_build {c' : ConsumerRef} {publisher : Option PeerRef} {i : Nat}
    {reading : Reading} {rest : List (Nat × Request)}
    (h : c ∈ (Pc.build c' publisher i reading rest).held) : c ∈ [c'] := by
  cases reading with
  | seqDelta | publisherSsrc => exact h
  | built plain => cases h

/-- The pointers a lookup by SSRC gives out are those in the list of the stream. -/
theorem keepsHeld_snapshot {hdr : RtpHeader} (h : s.pc = .lookup hdr ∨ s.pc = .create hdr) :
    KeepsHeld k s .call ↔ ∀ p ∈ s.router.findProducer k.fromPeer hdr.ssrc,
      ∀ c ∈ p.consumers, s.router.Owned c := by
  constructor
  · exact fun hk => hk hdr h
  · intro hk hdr' h'
    have : hdr' = hdr := by
      rcases h with h | h <;> rcases h' with h' | h' <;> rw [h] at h' <;> cases h' <;> rfl
    exact this ▸ hk

/-- After a critical section the call holds owned consumers exactly under `KeepsHeld`. -/
theorem heldOwned_snapshot (hw : s.router.Wf) {hdr : RtpHeader}
    (h : s.pc = .lookup hdr ∨ s.pc = .create hdr) :
    (∀ c ∈ (k.step s.router s.pc).2.1.held, s.router.Owned c) ↔ KeepsHeld k s .call := by
  rw [keepsHeld_snapshot h]
  cases hf : s.router.findProducer k.fromPeer hdr.ssrc with
  | none =>
    refine iff_of_true ?_ fun p hp => by cases hp
    rcases h with h | h <;> rw [h]
    · simp [Call.step, lookupTargets, hf, Pc.held]
    · simp only [Call.step, createTargets_eq, linkTargets_new hf, held_visit]
      rw [createProducer_producer hw]
      exact fun c hc => (hw.mem_waitingFor.1 hc).1
  | some p =>
    have hheld : (k.step s.router s.pc).2.1.held = p.consumers := by
      rcases h with h | h <;> rw [h]
      · simp only [Call.step, lookupTargets, hf, Option.map_some, held_visit]
      · simp only [Call.step, createTargets_eq, linkTargets_known hf, held_visit]
    rw [hheld]
    exact ⟨fun hc p' hp' => by cases hp'; exact hc, fun hc => hc p rfl⟩

/-- Elsewhere a step of the call comes by no pointer but through `_outSsrcToConsumer`, which holds
none to a destroyed consumer. -/
theorem heldOwned_other (hw : s.router.Wf) (h : s.HeldOwned)
    (hne : ∀ hdr, ¬ (s.pc = .lookup hdr ∨ s.pc = .create hdr)) :
    ∀ c ∈ (k.step s.router s.pc).2.1.held, s.router.Owned c := by
  obtain ⟨r, pc, sent⟩ := s
  cases pc with
  | lookup hdr => exact absurd (.inl rfl) (hne hdr)
  | create hdr => exact absurd (.inr rfl) (hne hdr)
  | find q rest =>
    simp only [Call.step]
    split
    · simp
    · rename_i c hc
      intro c' hc'
      exact List.mem_singleton.1 hc' ▸ (hw.reverse _ c hc).1
  | publisher c q rest | publisherSrtp c q rest =>
    simp only [Call.step]
    repeat' split
    all_goals first | exact h | simp
  | copy c q rest =>
    intro c' hc'
    exact List.mem_singleton.1 (mem_of_mem_held_build hc') ▸ h c (.head _)
  | build c publisher i reading rest =>
    cases reading with
    | seqDelta read | publisherSsrc read =>
      intro c' hc'
      exact List.mem_singleton.1 (mem_of_mem_held_build hc') ▸ h c (.head _)
    | built plain =>
      simp only [Call.step]
      repeat' split
      all_goals simp
  | done | crashed => exact fun c hc => absurd hc List.not_mem_nil
  | active c rest | subscriber c rest | subscriberSrtp c rest | recvMid c rest | rewrite c rest
  | protect c rest | send c rest | packetsSent c rest | octetsSent c rest =>
    have hrest : ∀ c' ∈ rest, r.Owned c' := fun c' hc' => h c' (List.mem_cons_of_mem _ hc')
    simp only [Call.step]
    repeat' split
    all_goals first
      | exact h
      | exact (held_visit rest).symm ▸ hrest
      | simp

theorem heldOwned_step (hw : s.router.Wf) (h : s.HeldOwned) (op : RaceOp) :
    (s.step k op).HeldOwned ↔ KeepsHeld k s op := by
  cases op with
  | removePeer X =>
    simp only [HeldOwned, KeepsHeld, step, owned_removePeer hw]
    exact forall₂_congr fun c hc => and_iff_right (h c hc)
  | call =>
    simp only [HeldOwned, step, owned_callStep hw]
    by_cases hs : ∃ hdr, s.pc = .lookup hdr ∨ s.pc = .create hdr
    · obtain ⟨hdr, hs⟩ := hs
      exact heldOwned_snapshot hw hs
    · have hne : ∀ hdr, ¬ (s.pc = .lookup hdr ∨ s.pc = .create hdr) := fun hdr h' => hs ⟨hdr, h'⟩
      exact iff_of_true (heldOwned_other hw h hne) fun hdr h' => absurd h' (hne hdr)

theorem wf_step (hw : s.router.Wf) (op : RaceOp) : (s.step k op).router.Wf := by
  cases op with
  | removePeer X => exact hw.removePeer X
  | call => exact wf_callStep hw

/-! ## Runs -/

/-- A call that holds a destroyed consumer dereferences it before it is over. -/
theorem uses_of_held (hw : s.router.Wf) (ht : s.Tested) {l : List RaceOp} (hc : c ∈ s.pc.held)
    (ho : ¬ s.router.Owned c) (hover : (exec (step k) s l).pc.Over) :
    ¬ Meets (step k) UsesOwned s l := by
  induction l generalizing s with
  | nil =>
    rw [held_of_over (show s.pc.Over from hover)] at hc
    exact absurd hc List.not_mem_nil
  | cons op l ih =>
    intro h
    obtain ⟨hu, hl⟩ := h
    cases op with
    | removePeer X =>
      exact ih (s := s.step k (.removePeer X)) (wf_step hw _) (tested_step ht _) hc
        (fun h => ho ((owned_removePeer hw).1 h).1) hover hl
    | call =>
      rcases held_callStep (k := k) ht hc with h | h
      · exact ho (hu c h)
      · exact ih (s := s.step k .call) (wf_step hw _) (tested_step ht _) h
          (fun h => ho ((owned_callStep hw).1 h)) hover hl

theorem uses_iff (hw : s.router.Wf) (ht : s.Tested) (h : s.HeldOwned) (l : List RaceOp) :
    (Meets (step k) (KeepsHeld k) s l → Meets (step k) UsesOwned s l) ∧
      ((exec (step k) s l).pc.Over → Meets (step k) UsesOwned s l →
        Meets (step k) (KeepsHeld k) s l) := by
  induction l generalizing s with
  | nil => exact ⟨fun _ => trivial, fun _ _ => trivial⟩
  | cons op l ih =>
    have hw' := wf_step (k := k) hw op
    have ht' := tested_step (k := k) ht op
    constructor
    · intro h
      obtain ⟨hk, hl⟩ := h
      refine ⟨?_, (ih hw' ht' ((heldOwned_step hw h op).2 hk)).1 hl⟩
      cases op with
      | removePeer X => trivial
      | call => exact fun c hc => h c (mem_held_of_uses hc)
    · intro hover h
      obtain ⟨-, hl⟩ := h
      have hk : KeepsHeld k s op := by
        refine (heldOwned_step hw h op).1 fun c hc => ?_
        by_contra ho
        exact uses_of_held hw' ht' hc ho hover hl
      exact ⟨hk, (ih hw' ht' ((heldOwned_step hw h op).2 hk)).2 hover hl⟩

theorem held_start (k : Call) : k.start.held = [] := by
  unfold Call.start
  split
  · split <;> rfl
  · exact held_next _

theorem tested_start (k : Call) (r : Router) : (start k r).Tested := by
  unfold start Call.start
  split
  · split <;> trivial
  · exact tested_next _ _ _

/-- **When a call uses owned consumers only**, from every reachable state of the router and for
every interleaving: if every step keeps what the call holds, and in a run at whose end the call is
over only if. -/
theorem race_uses_iff (ids : PeerRef → String) (ops : List RouterOp) (k : Call)
    (l : List RaceOp) :
    let s := start k (exec Router.step (Router.start ids) ops)
    (Meets (step k) (KeepsHeld k) s l → Meets (step k) UsesOwned s l) ∧
      ((exec (step k) s l).pc.Over → Meets (step k) UsesOwned s l →
        Meets (step k) (KeepsHeld k) s l) := by
  refine uses_iff ((wf_start ids).exec ops) (tested_start k _) (fun c hc => ?_) l
  rw [show (start k _).pc = k.start from rfl, held_start] at hc
  exact absurd hc List.not_mem_nil

/-- Peer 1 leaves between the snapshot and the first round of the loop. -/
theorem race_use_after_free :
    let r := exec Router.step (Router.start toString) flowingRun
    let k : Call := ⟨.onRtpPacket, ∅, ⟨fun _ _ b => some b, fun _ _ b => some b⟩,
      [0x80, 111, 0, 2, 0, 0, 0, 0, 0, 0, 0, 7], 2⟩
    ¬ Meets (step k) UsesOwned (start k r) [.call, .removePeer 1, .call] := by
  intro r k h
  have hw : (exec Router.step (Router.start toString) (flowingRun ++ [.removePeer 1])).Wf :=
    (wf_start toString).exec _
  have ho : (exec Router.step (Router.start toString) (flowingRun ++ [.removePeer 1])).Owned 0 :=
    h.2.2.1 0 rfl
  exact absurd (hw.mem_allConsumers.2 ho) (by decide)

/-! ## The call alone -/

/-- The call gets from `s` to `s'` undisturbed. -/
def Alone (k : Call) (s s' : Race) : Prop := ∃ n, exec (step k) s (.replicate n .call) = s'

theorem Alone.refl (s : Race) : Alone k s s := ⟨0, rfl⟩

theorem Alone.trans {s s' s'' : Race} (h : Alone k s s') (h' : Alone k s' s'') : Alone k s s'' := by
  obtain ⟨n, rfl⟩ := h
  obtain ⟨m, rfl⟩ := h'
  exact ⟨n + m, by rw [List.replicate_add, Runs.exec_append]⟩

/-- One step, then the rest. -/
theorem Alone.step (r' : Router) (pc' : Pc) (ds' : List Datagram) {ds : List Datagram} {s' : Race}
    (h : k.step r pc = (r', pc', ds')) (h' : Alone k ⟨r', pc', ds ++ ds'⟩ s') :
    Alone k ⟨r, pc, ds⟩ s' := by
  refine .trans ⟨1, ?_⟩ h'
  simp only [List.replicate_one, Runs.exec_cons, Runs.exec_nil, Race.step, h]

/-- The last step of a round. -/
theorem Alone.last {r' : Router} {pc' : Pc} {ds ds' : List Datagram}
    (h : k.step r pc = (r', pc', ds')) : Alone k ⟨r, pc, ds⟩ ⟨r', pc', ds ++ ds'⟩ :=
  .step _ _ _ h (.refl _)

/-- A step that only moves the call on. -/
theorem Alone.quiet (pc' : Pc) {ds : List Datagram} {s' : Race} (h : k.step r pc = (r, pc', []))
    (h' : Alone k ⟨r, pc', ds⟩ s') : Alone k ⟨r, pc, ds⟩ s' :=
  .step _ _ _ h (by rwa [List.append_nil])

/-- A round of the loop is `forwardOne`. -/
theorem alone_forwardOne (r : Router) (c : ConsumerRef) (rest : List ConsumerRef)
    (ds : List Datagram) :
    Alone k ⟨r, .active c rest, ds⟩
      ⟨(r.forwardOne k.srtp k.packet c).1, .visit rest,
        ds ++ (r.forwardOne k.srtp k.packet c).2⟩ := by
  -- a round that stops before it writes to the consumer
  have hskip : ∀ pc, k.step r pc = (r, .visit rest, []) →
      r.forwardOne k.srtp k.packet c = (r, []) → Alone k ⟨r, pc, ds⟩
        ⟨(r.forwardOne k.srtp k.packet c).1, .visit rest,
          ds ++ (r.forwardOne k.srtp k.packet c).2⟩ := fun pc h hf => by
    rw [hf]; exact .last h
  cases ha : (r.heap c).active with
  | false => exact hskip _ (by simp [Call.step, ha]) (by simp [forwardOne, ha])
  | true =>
    refine .quiet (.subscriber c rest) (by simp [Call.step, ha]) ?_
    cases hs : (r.heap c).subscriber with
    | none => exact hskip _ (by simp [Call.step, hs]) (by simp [forwardOne, ha, hs])
    | some S =>
      refine .quiet (.subscriberSrtp c rest) (by simp [Call.step, hs]) ?_
      cases hc : (r.peers S).srtp with
      | none => exact hskip _ (by simp [Call.step, hs, hc]) (by simp [forwardOne, ha, hs, hc])
      | some ctx =>
        refine .quiet (.recvMid c rest) (by simp [Call.step, hs, hc]) ?_
        cases hm : (r.heap c).recvMid.isEmpty with
        | true =>
          exact hskip (.recvMid c rest) (by simp only [Call.step, hm, if_true])
            (by simp only [forwardOne, ha, hs, hc, hm, if_true]; rfl)
        | false =>
          refine .quiet (.rewrite c rest) (by simp [Call.step, hm]) ?_
          generalize hout : rewriteRtpHeader k.packet (r.heap c) = out
          have hs' : ((r.modifyConsumer c fun _ => out.2).heap c).subscriber = some S := by
            rw [modifyConsumer_self, ← hout, (sameLink_rewrite _ _).subscriber, hs]
          have hc' : ((r.modifyConsumer c fun _ => out.2).peers S).srtp = some ctx := hc
          refine .step (r.modifyConsumer c fun _ => out.2) (.protect c rest out.1) []
            (by rw [← hout]; rfl) ?_
          rw [List.append_nil]
          cases hp : k.srtp.protect c ctx out.1 with
          | none =>
            have hf : r.forwardOne k.srtp k.packet c = (r.modifyConsumer c fun _ => out.2, []) := by
              simp [forwardOne, ha, hs, hc, hm, hout, hp]
            rw [hf]
            exact .last (by simp only [Call.step, hs', hc', hp, Option.bind_some])
          | some data =>
            have hf : r.forwardOne k.srtp k.packet c =
                ((r.modifyConsumer c fun _ => out.2).modifyConsumer c (countSent k.packet.length),
                  [⟨(r.peers S).remoteEp, .rtp, out.1, data⟩]) := by
              simp [forwardOne, ha, hs, hc, hm, hout, hp]
            rw [hf]
            refine .quiet (.send c rest out.1 data)
              (by simp only [Call.step, hs', hc', hp, Option.bind_some]) ?_
            refine .step _ (.packetsSent c rest) [⟨(r.peers S).remoteEp, .rtp, out.1, data⟩]
              (by simp only [Call.step, hs']; rfl) ?_
            refine .step _ (.octetsSent c rest) [] rfl ?_
            rw [List.append_nil]
            refine .step _ (.visit rest) [] rfl ?_
            rw [List.append_nil, modifyConsumer_modifyConsumer]
            exact .refl _

theorem alone_forward (l : List ConsumerRef) (r : Router) (ds : List Datagram) :
    Alone k ⟨r, .visit l, ds⟩ ⟨(forward k.srtp k.packet l r).1, .done,
      ds ++ (forward k.srtp k.packet l r).2⟩ := by
  induction l generalizing r ds with
  | nil => simp only [forward, List.append_nil]; exact .refl _
  | cons c l ih =>
    refine (alone_forwardOne r c l ds).trans ?_
    have h := ih (r.forwardOne k.srtp k.packet c).1 (ds ++ (r.forwardOne k.srtp k.packet c).2)
    rw [List.append_assoc] at h
    exact h

/-- **The call alone is `onRtpPacket`.** -/
theorem alone_onRtpPacket (hk : k.entry = .onRtpPacket) (r : Router) :
    Alone k (start k r) ⟨(r.onRtpPacket k.videoPTs k.srtp k.packet k.fromPeer).1, .done,
      (r.onRtpPacket k.videoPTs k.srtp k.packet k.fromPeer).2⟩ := by
  unfold start Call.start
  rw [hk]
  cases hp : RtpHeader.parse k.packet with
  | none => rw [onRtpPacket_short hp]; exact .refl _
  | some hdr =>
    rw [onRtpPacket_parse hp]
    cases hf : r.findProducer k.fromPeer hdr.ssrc with
    | some p =>
      rw [linkTargets_known hf]
      refine .quiet (.visit p.consumers) ?_ (alone_forward _ _ _)
      simp only [Call.step, lookupTargets, hf, Option.map_some]
    | none =>
      refine .quiet (.create hdr) (by simp only [Call.step, lookupTargets, hf, Option.map_none]) ?_
      refine .step _ _ _ rfl ?_
      simp only [createTargets_eq, List.nil_append]
      exact alone_forward _ _ _

theorem alone_build {P : PeerRef} (hP : (r.peers P).srtp.isSome) (c : ConsumerRef) (i : Nat)
    (reading : Reading) (rest : List (Nat × Request)) (ds : List Datagram) :
    Alone k ⟨r, .build c (some P) i reading rest, ds⟩
      ⟨r, .next rest, ds ++ (r.peers P).sendRtcp k.srtp i (reading.build (r.heap c))⟩ := by
  induction reading with
  | built plain =>
    obtain ⟨ctx, hctx⟩ := Option.isSome_iff_exists.1 hP
    exact .last (by simp [Call.step, hctx, Reading.build])
  | seqDelta read ih => exact .quiet _ rfl (ih _)
  | publisherSsrc read ih => exact .quiet _ rfl (ih _)

theorem alone_translate (r : Router) (q : Nat × Request) (rest : List (Nat × Request))
    (ds : List Datagram) :
    Alone k ⟨r, .find q rest, ds⟩ ⟨r, .next rest, ds ++ r.translate k.srtp q.1 q.2⟩ := by
  unfold Router.translate
  cases hc : r.findConsumerByOutSsrc q.2.outSsrc with
  | none => exact .last (by simp only [Call.step, hc])
  | some c =>
    refine .quiet (.publisher c q rest) (by simp only [Call.step, hc]) ?_
    cases hp : (r.heap c).publisher with
    | none => simp only [hp]; exact .last (by simp [Call.step, hp])
    | some P =>
      refine .quiet (.publisherSrtp c q rest) (by simp [Call.step, hp]) ?_
      cases hs : (r.peers P).srtp with
      | none => simp only [hp, Peer.sendRtcp, hs]; exact .last (by simp [Call.step, hp, hs])
      | some ctx =>
        simp only [hp]
        refine .quiet (.copy c q rest) (by simp [Call.step, hp, hs]) ?_
        refine .quiet (.build c (some P) q.1 q.2.reading rest) (by simp [Call.step, hp]) ?_
        exact alone_build (Option.isSome_iff_exists.2 ⟨ctx, hs⟩) c q.1 q.2.reading rest ds

/-- **The call alone is `onRtcpPacket`.** -/
theorem alone_onRtcpPacket (hk : k.entry = .onRtcpPacket) (r : Router) :
    Alone k (start k r) ⟨r, .done, r.onRtcpPacket k.srtp k.packet⟩ := by
  suffices ∀ (l : List (Nat × Request)) (ds : List Datagram), Alone k ⟨r, .next l, ds⟩
      ⟨r, .done, ds ++ l.flatMap fun x => r.translate k.srtp x.1 x.2⟩ by
    have h := this (requests k.packet) []
    rw [List.nil_append, ← onRtcpPacket_eq] at h
    simpa only [start, Call.start, hk] using h
  intro l
  induction l with
  | nil => intro ds; simp only [List.flatMap_nil, List.append_nil]; exact .refl _
  | cons q l ih =>
    intro ds
    refine (alone_translate r q l ds).trans ?_
    have h := ih (ds ++ r.translate k.srtp q.1 q.2)
    rw [List.append_assoc] at h
    exact h

end Namecon.Race
