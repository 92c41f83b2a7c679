import Namecon.Grpc.Proof.Sound

/-!
# When `bindConsumerByMid` finds a consumer

Without removals, the consumers of a registered peer are those of the `AddConsumer` calls made since
its `AddPeer`. `record` keeps these calls and `Recorded` says that they are what a binding finds;
the SSRC it then returns is not 0 (`Recorded.bind_ne_zero_iff`).
-/

namespace Namecon.MediaServer

open Router
open Function (update)

variable {s s' : MediaServer} {calls : List (String × String × Bool)}

theorem bindsTo_iff {r : Router} {pub : String} {v : Bool} {k : Consumer} :
    r.bindsTo pub v k = true ↔
      ∃ P, k.publisher = some P ∧ (r.peers P).peerId = pub ∧ k.isVideo = v := by
  unfold bindsTo
  cases k.publisher with
  | none => simp
  | some P => simp [and_comm]

/-- `S` owns a consumer for the stream of kind `v` of `pub`. -/
def Finds (s : MediaServer) (S : PeerRef) (pub : String) (v : Bool) : Prop :=
  ∃ c ∈ (s.router.peers S).consumers, s.router.bindsTo pub v (s.router.heap c) = true

/-- The successful `AddConsumer` calls after an operation, those for a subscriber forgotten when its
id is registered anew. -/
def record (s : MediaServer) (calls : List (String × String × Bool)) :
    ServerOp → List (String × String × Bool)
  | .addPeer _ peerId => calls.filter (·.1 ≠ peerId)
  | .addConsumer sub pub isVideo d =>
    match (s.addConsumer sub pub isVideo d).2 with
    | .ok _ => (sub, pub, isVideo) :: calls
    | .error _ => calls
  | _ => calls

/-- The router has a consumer for a subscriber's kind of a publisher just where an `AddConsumer` of
`calls` asked for it, and each has an outgoing SSRC. -/
structure Recorded (s : MediaServer) (calls : List (String × String × Bool)) : Prop where
  sound : s.Sound
  ssrc : ∀ c, s.router.Owned c → (s.router.heap c).rewrittenSsrc ≠ 0
  calls : ∀ sub S, s.peers sub = some S → ∀ pub v, s.Finds S pub v ↔ (sub, pub, v) ∈ calls

/-! ## What a binding returns -/

theorem Recorded.bind_ne_zero_iff (h : s.Recorded calls) {r : Router}
    (hs : SameSubscribers s.router r) (hids : ∀ q, (r.peers q).peerId = (s.router.peers q).peerId)
    {sub : String} {S : PeerRef} (hS : s.peers sub = some S) (pub : String) (v : Bool)
    (mid : String) :
    (r.bindConsumerByMid S pub v mid).2 ≠ 0 ↔ (sub, pub, v) ∈ calls := by
  rw [← h.calls sub S hS]
  have hb : ∀ c, r.bindsTo pub v (r.heap c) = s.router.bindsTo pub v (s.router.heap c) := by
    intro c
    rw [Bool.eq_iff_iff, bindsTo_iff, bindsTo_iff, hs.publisher, hs.isVideo]
    simp only [hids]
  unfold bindConsumerByMid Finds
  simp only [hb, hs.consumers]
  split
  · rename_i hf
    refine iff_of_false (not_not.2 rfl) ?_
    intro h
    obtain ⟨c, hc, hbc⟩ := h
    exact List.find?_eq_none.1 hf c hc hbc
  · rename_i c hf
    have hc := List.mem_of_find?_eq_some hf
    refine iff_of_true ?_ ⟨c, hc, by simpa using List.find?_some hf⟩
    rw [hs.rewrittenSsrc]
    exact h.ssrc c ⟨S, hc⟩

/-! ## What the operations keep -/

theorem Recorded.frame (h : s.Recorded calls) (hsound : s'.Sound)
    (hs : SameSubscribers s.router s'.router) (hpeers : s'.peers = s.peers)
    (hids : ∀ q, (s'.router.peers q).peerId = (s.router.peers q).peerId) : s'.Recorded calls where
  sound := hsound
  ssrc c hc := by
    rw [hs.rewrittenSsrc]
    exact h.ssrc c (hs.owned.1 hc)
  calls sub S hS pub v := by
    rw [← h.calls sub S (hpeers ▸ hS)]
    unfold Finds
    simp only [bindsTo_iff, hs.consumers, hs.publisher, hs.isVideo, hids]

theorem Recorded.addPeer (h : s.Recorded calls) (info : ServerInfo) (id : String) :
    (s.addPeer info id).1.Recorded (calls.filter (·.1 ≠ id)) where
  sound := h.sound.addPeer info id
  ssrc c hc := by
    have hl := h.sound.sameLinks_addPeer info id
    rw [(hl.heap c).rewrittenSsrc]
    exact h.ssrc c ((hl.owned c).1 hc)
  calls sub S hS pub v := by
    have hs := (h.sound.sameLinks_addPeer info id).sameSubscribers
    rw [addPeer_peers] at hS
    by_cases hid : sub = id
    · -- the new peer has no consumers yet
      subst hid
      rw [Function.update_self] at hS
      obtain rfl := Option.some.inj hS
      refine iff_of_false ?_ (by simp)
      intro h
      obtain ⟨c, hc, -⟩ := h
      rw [hs.consumers, (h.sound.blank _ (Nat.le_refl _)).2] at hc
      cases hc
    · rw [Function.update_of_ne hid] at hS
      have hmem : (sub, pub, v) ∈ calls.filter (·.1 ≠ id) ↔ (sub, pub, v) ∈ calls := by simp [hid]
      rw [hmem, ← h.calls sub S hS]
      unfold Finds
      rw [hs.consumers]
      refine exists_congr fun c => and_congr_right fun hc => ?_
      rw [bindsTo_iff, bindsTo_iff, hs.publisher, hs.isVideo]
      refine exists_congr fun P => and_congr_right fun hP => ?_
      rw [addPeer_router, modifyPeer_ne _ _ _ (Nat.ne_of_lt (h.sound.publishers c ⟨S, hc⟩ P hP))]

theorem Recorded.addConsumer (h : s.Recorded calls) (sub pub : String) (v : Bool) (d : SsrcDraw) :
    (s.addConsumer sub pub v d).1.Recorded (s.record calls (.addConsumer sub pub v d)) := by
  cases hS : s.findPeer sub with
  | none => simpa only [record, MediaServer.addConsumer, hS] using h
  | some S =>
    cases hP : s.findPeer pub with
    | none => simpa only [record, MediaServer.addConsumer, hS, hP] using h
    | some P =>
      rw [show s.record calls _ = (sub, pub, v) :: calls by
        simp only [record, addConsumer_found hS hP], addConsumer_found hS hP]
      have hw := h.sound.wf
      have hids := (sameTransport_addConsumer s.router S P v d).peerId
      refine ⟨h.sound.router_addConsumer (registered_lt h.sound.pool hS)
        (registered_lt h.sound.pool hP) v d, fun c hc => ?_, fun sub' S' hS' pub' v' => ?_⟩
      · rcases owned_addConsumer.1 hc with hc | rfl
        · rw [addConsumer_heap_old (hw.fresh c hc)]
          exact h.ssrc c hc
        · rw [addConsumer_heap_new]
          intro h0
          have := d.low
          rw [show d.val = 0 from h0] at this
          exact absurd this (by decide)
      · -- the consumers of before, and the new one
        have hnew : s.router.bindsTo pub' v' (s.router.newConsumer S P v d) = true ↔
            pub = pub' ∧ v = v' := by
          rw [bindsTo_iff]
          constructor
          · intro h
            obtain ⟨Q, hQ, hid, hv⟩ := h
            obtain rfl : P = Q := Option.some.inj hQ
            exact ⟨(h.sound.named pub P hP).symm.trans hid, hv⟩
          · intro h
            obtain ⟨rfl, rfl⟩ := h
            exact ⟨P, rfl, h.sound.named pub P hP, rfl⟩
        have hsub : S' = S ↔ sub = sub' := by
          constructor
          · intro he
            obtain rfl := he
            exact h.sound.peers_inj hS hS'
          · intro he
            obtain rfl := he
            exact Option.some.inj (hS'.symm.trans hS)
        have hbinds : ∀ k, (s.router.addConsumer S P v d).1.bindsTo pub' v' k =
            s.router.bindsTo pub' v' k := fun k => by
          rw [Bool.eq_iff_iff, bindsTo_iff, bindsTo_iff]
          simp only [hids]
        rw [List.mem_cons, ← h.calls sub' S' hS']
        unfold Finds
        simp only [mem_addConsumer_consumers, hbinds, or_and_right, exists_or]
        rw [or_comm]
        refine or_congr ?_ (exists_congr fun c => and_congr_right fun hc => ?_)
        · constructor
          · intro h
            obtain ⟨c, ⟨hSS, rfl⟩, hb⟩ := h
            rw [addConsumer_heap_new, hnew] at hb
            rw [hsub.1 hSS, hb.1, hb.2]
          · intro he
            obtain ⟨rfl, rfl, rfl⟩ : sub' = sub ∧ pub' = pub ∧ v' = v := by simpa using he
            exact ⟨_, ⟨hsub.2 rfl, rfl⟩, by rw [addConsumer_heap_new, hnew]; exact ⟨rfl, rfl⟩⟩
        · rw [addConsumer_heap_old (hw.fresh c ⟨S', hc⟩)]

/-- An operation other than `RemovePeer`. -/
def NoRemoval : ServerOp → Prop
  | .removePeer _ => False
  | _ => True

theorem Recorded.step (h : s.Recorded calls) (op : ServerOp) (hop : NoRemoval op) :
    (s.step op).Recorded (s.record calls op) := by
  cases op with
  | addPeer info id => exact h.addPeer info id
  | addConsumer sub pub v d => exact h.addConsumer sub pub v d
  | sendOffer g id sdp rms =>
    have hs := samePool_sendOffer s g id sdp rms
    exact h.frame (h.sound.sendOffer g id sdp rms)
      (sameLinks_sendOffer s g id sdp rms).sameSubscribers hs.peers hs.ids
  | removePeer id => exact hop.elim
  | packet data ep env =>
    exact h.frame (h.sound.onPacket data ep env) (h.sound.sameSubscribers_onPacket data ep env)
      (onPacket_peers s data ep env) (onPacket_peerId s data ep env)

theorem recorded_start : ({} : MediaServer).Recorded [] where
  sound := sound_start
  ssrc _ hc := by obtain ⟨_, hc⟩ := hc; cases hc
  calls _ _ hS := by cases hS

end Namecon.MediaServer
