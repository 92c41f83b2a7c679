import Namecon.Web.Proof.Seats
import Namecon.Web.Proof.Tiles

/-!
# A track and its tile

`ontrack` skips a transceiver that is not `recvonly`, looks for the tile of the peer of the mid, and
falls back to any tile without a stream. `WebRTC.Receiving`: what has a peer or waits for one in an
offer is `recvonly`, what is free is `inactive`, and the camera is neither, unless the microphone
has taken one of them. `own_tiles`: then no tile shows a track of another peer, and the track of a
transceiver that has a peer is put into the tile of this peer.
-/

namespace Namecon

open Function (update)
open Runs (exec Meets)

/-! ## Directions -/

namespace WebRTC

variable {w w' : WebRTC} {t t' : Nat} {k : Kind} {d : Direction} {peerId : String}

/-- The direction of transceiver `t`. -/
def directionOf (w : WebRTC) (t : Nat) : Option Direction := w.transceivers[t]?.map (·.direction)

theorem lt_of_directionOf (h : w.directionOf t = some d) : t < w.transceivers.length := by
  by_contra ht
  rw [directionOf, List.getElem?_eq_none (Nat.not_lt.1 ht)] at h
  cases h

theorem directionOf_set_self (ht : t < w.transceivers.length) (d : Direction) :
    (w.setDirection t d).directionOf t = some d := by
  unfold directionOf setDirection
  rw [List.getElem?_modify_eq, List.getElem?_eq_getElem ht]
  rfl

theorem directionOf_set_ne (h : t' ≠ t) (d : Direction) :
    (w.setDirection t d).directionOf t' = w.directionOf t' := by
  unfold directionOf setDirection
  rw [List.getElem?_modify_ne _ _ (Ne.symm h)]

theorem directionOf_add_self (k : Kind) (d : Direction) :
    (w.addTransceiver k d).directionOf w.transceivers.length = some d := by
  simp [directionOf, addTransceiver]

theorem directionOf_add {d' : Direction} (h : w.directionOf t = some d') (k : Kind) (d : Direction) :
    (w.addTransceiver k d).directionOf t = some d' := by
  have ht := lt_of_directionOf h
  unfold directionOf addTransceiver at *
  rw [List.getElem?_append_left ht, h]

theorem directionOf_setLocalDescription (w : WebRTC) (o : Offer) (t : Nat) :
    (w.setLocalDescription o).directionOf t = w.directionOf t := by
  unfold directionOf setLocalDescription
  rw [List.getElem?_mapIdx]
  cases w.transceivers[t]? with
  | none => rfl
  | some tc =>
    dsimp only [Option.map]
    split <;> rfl

/-- Where a transceiver is kept tells its direction. -/
structure Receiving (w : WebRTC) : Prop where
  pending : ∀ p ∈ w.pendingTransceivers, w.directionOf p.transceiver = some .recvonly
  pooled : ∀ p ∈ w.inactivePool, w.directionOf p.transceiver = some .inactive
  bound : ∀ t p, w.midPeerMap (some t) = some p → w.directionOf t = some .recvonly
  camera : ∀ t, w.videoSender = some t → w.directionOf t = some .sendrecv

theorem receiving_start : Receiving {} where
  pending _ hp := absurd hp List.not_mem_nil
  pooled _ hp := absurd hp List.not_mem_nil
  bound _ _ h := by cases h
  camera _ h := by cases h

/-- The directions of what receives, and of the camera, are as before. -/
theorem Receiving.frame (h : w.Receiving)
    (hd : ∀ t d, w.directionOf t = some d → w'.directionOf t = some d)
    (hpending : w'.pendingTransceivers = w.pendingTransceivers)
    (hpool : w'.inactivePool = w.inactivePool) (hmap : w'.midPeerMap = w.midPeerMap)
    (hcamera : w'.videoSender = w.videoSender) : w'.Receiving where
  pending p hp := hd _ _ (h.pending p (by rw [← hpending]; exact hp))
  pooled p hp := hd _ _ (h.pooled p (by rw [← hpool]; exact hp))
  bound t p ht := hd _ _ (h.bound t p (by rw [← hmap]; exact ht))
  camera t ht := hd _ _ (h.camera t (by rw [← hcamera]; exact ht))

theorem Receiving.addRecvOne (h : w.Receiving) (hone : w.OneUse) (peerId : String) (k : Kind) :
    (w.addRecvOne peerId k).Receiving := by
  unfold WebRTC.addRecvOne
  split
  · rename_i p hp
    have hmem := List.mem_of_find?_eq_some hp
    have hlt := lt_of_directionOf (h.pooled p hmem)
    have hnodup := hone.nodup
    have hpool := (ListFacts.perm_cons_eraseP hp).map (·.transceiver)
    rw [waiting, List.map_append, List.map_map, List.map_map, List.nodup_append] at hnodup
    have herased := (hpool.nodup_iff.1 hnodup.2.1)
    rw [List.map_cons, List.nodup_cons] at herased
    refine ⟨fun q hq => ?_, fun q hq => ?_, fun t peer ht => ?_, fun t ht => ?_⟩
    · rcases List.mem_append.1 hq with hq | hq
      · refine (directionOf_set_ne ?_ _).trans (h.pending q hq)
        exact hnodup.2.2 _ (List.mem_map_of_mem hq) _ (List.mem_map_of_mem hmem)
      · rw [List.mem_singleton.1 hq]
        exact directionOf_set_self (w := { w with inactivePool := _ }) hlt _
    · refine (directionOf_set_ne (fun he => herased.1 ?_) _).trans
        (h.pooled q (List.mem_of_mem_eraseP hq))
      rw [← he]
      exact List.mem_map_of_mem hq
    · refine (directionOf_set_ne ?_ _).trans (h.bound t peer ht)
      rintro rfl
      have hfree := hone.free (p.transceiver, p.kind)
        (List.mem_append_right _ (List.mem_map_of_mem hmem))
      cases ht.symm.trans hfree
    · have hcamera := h.camera t ht
      refine (directionOf_set_ne ?_ _).trans hcamera
      rintro rfl
      rw [h.pooled p hmem] at hcamera
      cases hcamera
  · refine ⟨fun q hq => ?_, fun q hq => directionOf_add (h.pooled q hq) k .recvonly,
      fun t peer ht => directionOf_add (h.bound t peer ht) k .recvonly,
      fun t ht => directionOf_add (h.camera t ht) k .recvonly⟩
    rcases List.mem_append.1 hq with hq | hq
    · exact directionOf_add (h.pending q hq) k .recvonly
    · rw [List.mem_singleton.1 hq]
      exact directionOf_add_self k .recvonly

theorem Receiving.markOne (h : w.Receiving) (hone : w.OneUse) (peerId : String) (t : Nat) :
    (WebRTC.markOne peerId w t).Receiving := by
  unfold WebRTC.markOne
  split
  · exact h
  · rename_i tc htc
    split
    · rename_i hm
      have hmid := hone.mid_of_bound htc hm
      rw [hmid] at hm
      have hbound := h.bound t peerId hm
      -- what waits has no peer
      have hother : ∀ e ∈ w.waiting, e.1 ≠ t := by
        intro e he het
        have hfree := hone.free e he
        rw [het, hm] at hfree
        cases hfree
      refine ⟨fun q hq => ?_, fun q hq => ?_, fun t' peer ht => ?_, fun t' ht => ?_⟩
      · refine (directionOf_set_ne ?_ _).trans (h.pending q hq)
        exact hother (q.transceiver, q.kind) (List.mem_append_left _ (List.mem_map_of_mem hq))
      · rcases List.mem_append.1 hq with hq | hq
        · refine (directionOf_set_ne ?_ _).trans (h.pooled q hq)
          exact hother (q.transceiver, q.kind) (List.mem_append_right _ (List.mem_map_of_mem hq))
        · rw [List.mem_singleton.1 hq]
          exact directionOf_set_self (lt_of_directionOf hbound) _
      · replace ht : update w.midPeerMap tc.mid none (some t') = some peer := ht
        have hne : t' ≠ t := by
          rintro rfl
          rw [hmid, Function.update_self] at ht
          cases ht
        rw [hmid, Function.update_of_ne fun he => hne (Option.some.inj he)] at ht
        exact (directionOf_set_ne hne _).trans (h.bound t' peer ht)
      · have hcamera := h.camera t' ht
        refine (directionOf_set_ne ?_ _).trans hcamera
        rintro rfl
        rw [hbound] at hcamera
        cases hcamera
    · exact h

theorem Receiving.disableCamera (h : w.Receiving) : w.disableCamera.Receiving := by
  unfold WebRTC.disableCamera
  cases hv : w.videoSender with
  | none => exact ⟨h.pending, h.pooled, h.bound, fun _ ht => by cases ht⟩
  | some v =>
    have hcamera := h.camera v hv
    have hne : ∀ t d, w.directionOf t = some d → d ≠ .sendrecv → t ≠ v := by
      rintro t d hd hne rfl
      exact hne (Option.some.inj (hd.symm.trans hcamera))
    refine ⟨fun q hq => ?_, fun q hq => ?_, fun t peer ht => ?_, fun _ ht => by cases ht⟩
    · exact (directionOf_set_ne (hne _ _ (h.pending q hq) nofun) _).trans (h.pending q hq)
    · exact (directionOf_set_ne (hne _ _ (h.pooled q hq) nofun) _).trans (h.pooled q hq)
    · exact (directionOf_set_ne (hne _ _ (h.bound t peer ht) nofun) _).trans (h.bound t peer ht)

theorem Receiving.addVideoSender (h : w.Receiving) : w.addVideoSender.Receiving where
  pending q hq := directionOf_add (h.pending q hq) .video .sendrecv
  pooled q hq := directionOf_add (h.pooled q hq) .video .sendrecv
  bound t peer ht := directionOf_add (h.bound t peer ht) .video .sendrecv
  camera t ht := by
    obtain rfl := Option.some.inj ht
    exact directionOf_add_self .video .sendrecv

theorem Receiving.enableCamera (h : w.Receiving) : w.enableCamera.Receiving := by
  unfold WebRTC.enableCamera
  split
  · exact h.addVideoSender.frame (fun _ _ hd => hd) rfl rfl rfl rfl
  · exact h.addVideoSender

theorem Receiving.addTrack (h : w.Receiving) (hno : ∀ tc ∈ w.transceivers, tc.kind ≠ .audio) :
    w.addTrack.Receiving := by
  have hnone : w.transceivers.findIdx? (fun tc => tc.kind = .audio) = none :=
    List.findIdx?_eq_none_iff.2 fun tc htc => decide_eq_false (hno tc htc)
  unfold WebRTC.addTrack
  rw [hnone]
  exact h.frame (fun t d hd => directionOf_add hd .audio .sendrecv) rfl rfl rfl rfl

theorem Receiving.takePending (h : w.Receiving) (hd : w.Described) :
    w.takePending.1.Receiving where
  pending _ hq := absurd hq List.not_mem_nil
  pooled := h.pooled
  bound t peer ht := by
    by_cases hp : ∃ p ∈ w.pendingTransceivers, p.transceiver = t
    · obtain ⟨p, hp, rfl⟩ := hp
      exact h.pending p hp
    · rw [takePending_of_not_mem hd fun p hmem heq => hp ⟨p, hmem, (Option.some.inj heq).symm⟩] at ht
      exact h.bound t peer ht
  camera := h.camera

/-! ## A peer that has left -/

theorem markOne_unbinds (peerId : String) (w : WebRTC) (t : Nat) : Unbinds w (markOne peerId w t) := by
  unfold WebRTC.markOne
  split
  · exact fun _ _ hp => hp
  · split
    · exact .of_update rfl
    · exact fun _ _ hp => hp

theorem markOne_self (h : w.OneUse) (peerId : String) (t : Nat) :
    (WebRTC.markOne peerId w t).midPeerMap (some t) ≠ some peerId := by
  intro hm
  have hbefore := markOne_unbinds peerId w t _ _ hm
  have hmid := h.bound t peerId hbefore
  unfold WebRTC.markOne at hm
  split at hm
  · rename_i htc
    rw [midOf, htc] at hmid
    cases hmid
  · rename_i tc htc
    have htcm : tc.mid = some t := by rwa [midOf, htc] at hmid
    rw [if_pos (by rw [htcm]; exact hbefore)] at hm
    replace hm : update w.midPeerMap tc.mid none (some t) = some peerId := hm
    rw [htcm, Function.update_self] at hm
    cases hm

theorem foldl_markOne (h : w.OneUse) (peerId : String) (l : List Nat) :
    Unbinds w (l.foldl (markOne peerId) w) ∧
      ∀ t ∈ l, (l.foldl (markOne peerId) w).midPeerMap (some t) ≠ some peerId := by
  induction l generalizing w with
  | nil => exact ⟨fun _ _ hp => hp, fun _ ht => absurd ht List.not_mem_nil⟩
  | cons a l ih =>
    obtain ⟨hunbinds, hgone⟩ := ih (h.markOne peerId a)
    refine ⟨fun m p hp => markOne_unbinds peerId w a m p (hunbinds m p hp), fun t ht => ?_⟩
    rcases List.mem_cons.1 ht with rfl | ht
    · exact fun hm => markOne_self h peerId t (hunbinds _ _ hm)
    · exact hgone t ht

/-- A peer that has left has no transceiver. -/
theorem markTransceiverInactive_gone (h : w.OneUse) (hpc : w.pc = false → w.transceivers = [])
    (peerId : String) (t : Nat) :
    (w.markTransceiverInactive peerId).midPeerMap (some t) ≠ some peerId := by
  intro hm
  have hlt : ∀ p, w.midPeerMap (some t) = some p → t < w.transceivers.length := by
    intro p hp
    by_contra ht
    have hmid := h.bound t p hp
    rw [midOf, List.getElem?_eq_none (Nat.not_lt.1 ht)] at hmid
    cases hmid
  unfold WebRTC.markTransceiverInactive at hm
  cases hopen : w.pc with
  | false =>
    rw [hopen, if_neg Bool.false_ne_true] at hm
    have hempty := hlt _ hm
    rw [hpc hopen] at hempty
    exact absurd hempty (Nat.not_lt_zero t)
  | true =>
    rw [hopen, if_pos rfl] at hm
    obtain ⟨hunbinds, hgone⟩ := foldl_markOne h peerId (List.range w.transceivers.length)
    exact hgone t (List.mem_range.2 (hlt _ (hunbinds _ _ hm))) hm

theorem pending_addRecvOne (w : WebRTC) (peerId : String) (k : Kind) : ∃ t,
    (w.addRecvOne peerId k).pendingTransceivers = w.pendingTransceivers ++ [⟨t, peerId, k⟩] := by
  unfold WebRTC.addRecvOne
  split
  · exact ⟨_, rfl⟩
  · exact ⟨_, rfl⟩

theorem pending_markOne (peerId : String) (w : WebRTC) (t : Nat) :
    (markOne peerId w t).pendingTransceivers = w.pendingTransceivers := by
  unfold WebRTC.markOne
  split
  · rfl
  · split <;> rfl

theorem pending_markTransceiverInactive (w : WebRTC) (peerId : String) :
    (w.markTransceiverInactive peerId).pendingTransceivers = w.pendingTransceivers := by
  unfold WebRTC.markTransceiverInactive
  split
  · exact List.foldlRecOn
      (motive := fun w' : WebRTC => w'.pendingTransceivers = w.pendingTransceivers) _ _ rfl
      fun w' hw t _ => (pending_markOne peerId w' t).trans hw
  · rfl

/-- All peers that have a transceiver, or wait for one, are in the list. -/
structure Among (ids : List String) (w : WebRTC) : Prop where
  pending : ∀ p ∈ w.pendingTransceivers, p.peerId ∈ ids
  bound : ∀ t p, w.midPeerMap (some t) = some p → p ∈ ids

end WebRTC

namespace Page

variable {s : Page} {e : Event} {peerId : String}

/-- The microphone comes before any transceiver that receives audio, so that `addTrack` takes
none of these. -/
def MicFirst (s : Page) : Event → Prop
  | .userMedia _ true => ∀ tc ∈ s.rtc.transceivers, tc.kind ≠ .audio
  | _ => True

/-- A peer that leaves has no transceiver pending. -/
def LeavesNone (s : Page) : Event → Prop
  | .peerLeft p => ∀ x ∈ s.rtc.pendingTransceivers, x.peerId ≠ p
  | _ => True

instance (s : Page) (e : Event) : Decidable (s.MicFirst e) :=
  match e with
  | .userMedia _ true =>
    inferInstanceAs (Decidable (∀ tc ∈ s.rtc.transceivers, tc.kind ≠ .audio))
  | .userMedia _ false | .joined _ | .addRecvTransceiver _ _ | .renegotiate | .peerLeft _
  | .cameraOn | .cameraOff | .iceRestart | .offerCreated _ | .described _ | .rejected _ | .answer
  | .error | .remoteDescribed => .isTrue trivial

instance (s : Page) (e : Event) : Decidable (s.LeavesNone e) :=
  match e with
  | .peerLeft p => inferInstanceAs (Decidable (∀ x ∈ s.rtc.pendingTransceivers, x.peerId ≠ p))
  | .userMedia _ _ | .joined _ | .addRecvTransceiver _ _ | .renegotiate | .cameraOn | .cameraOff
  | .iceRestart | .offerCreated _ | .described _ | .rejected _ | .answer | .error
  | .remoteDescribed => .isTrue trivial

theorem kept_receiving (hc : s.Calls) (htime : s.InTime e) (hmic : s.MicFirst e) :
    Kept s e fun w => w.OneUse ∧ w.Receiving := by
  have hk := kept_oneUse hc htime
  constructor
  · exact fun w l he h =>
      ⟨hk.pc w l he h.1, h.2.frame (fun _ _ hd => hd) rfl rfl rfl rfl⟩
  · exact fun w _ _ _ _ _ h =>
      ⟨hk.flags w _ _ _ _ _ h.1, h.2.frame (fun _ _ hd => hd) rfl rfl rfl rfl⟩
  · exact fun w p k ha h => ⟨hk.addRecvOne w p k ha h.1, h.2.addRecvOne h.1 p k⟩
  · exact fun w p t he h => ⟨hk.markOne w p t he h.1, h.2.markOne h.1 p t⟩
  · intro w i he hw h
    subst he
    refine ⟨hk.addTrack w i rfl hw h.1, h.2.addTrack ?_⟩
    rw [hw]
    exact hmic
  · exact fun w h => ⟨hk.enableCamera w h.1, h.2.enableCamera⟩
  · exact fun w h => ⟨hk.disableCamera w h.1, h.2.disableCamera⟩
  · intro w i caller o hf hw h
    refine ⟨hk.setLocalDescription w i caller o hf hw h.1, h.2.frame (fun t d hd => ?_) rfl rfl rfl
      rfl⟩
    rw [WebRTC.directionOf_setLocalDescription]
    exact hd
  · intro w i o he hf hw h
    refine ⟨hk.takePending w i o he hf hw h.1, ?_⟩
    subst he hw
    exact h.2.takePending (described_of_inTime hc htime hf)

/-! ## Before `joined` -/

/-- Nothing has happened before `joined`. -/
structure Untouched (s : Page) : Prop where
  transceivers : s.rtc.transceivers = []
  pending : s.rtc.pendingTransceivers = []
  needsRenegotiate : s.rtc.needsRenegotiate = false
  camera : s.rtc.cameraEnabled = false
  frames : ∀ i, s.frames i = none

theorem untouched_start : Untouched {} := ⟨rfl, rfl, rfl, rfl, fun _ => rfl⟩

theorem Untouched.frame {t : Page} (h : s.Untouched) (hts : t.rtc.transceivers = s.rtc.transceivers)
    (hpending : t.rtc.pendingTransceivers = s.rtc.pendingTransceivers)
    (hneeds : t.rtc.needsRenegotiate = s.rtc.needsRenegotiate)
    (hcamera : t.rtc.cameraEnabled = s.rtc.cameraEnabled) (hframes : t.frames = s.frames) :
    t.Untouched :=
  ⟨hts.trans h.transceivers, hpending.trans h.pending, hneeds.trans h.needsRenegotiate,
    hcamera.trans h.camera, fun i => by rw [hframes]; exact h.frames i⟩

theorem Untouched.runRenegotiateQueue (h : s.Untouched) (n : Nat) :
    (s.runRenegotiateQueue n).Untouched := by
  induction n with
  | zero => exact h.frame rfl rfl rfl rfl rfl
  | succ n ih =>
    rw [Page.runRenegotiateQueue, if_pos ⟨h.pending, h.needsRenegotiate⟩]
    exact ih

theorem Untouched.renegotiate (h : s.Untouched) : s.renegotiate.Untouched := by
  unfold Page.renegotiate
  dsimp only
  split
  · exact h.frame rfl rfl rfl rfl rfl
  · exact h.runRenegotiateQueue _

theorem Untouched.step (h : s.Untouched) (hpc : s.rtc.pc = false) (he : ∀ l, e ≠ .joined l) :
    (s.step e).Untouched := by
  have hno : ∀ i f, s.frames i ≠ some f := fun i f hf => by rw [h.frames i] at hf; cases hf
  cases e with
  | joined l => exact absurd rfl (he l)
  | addRecvTransceiver p ks =>
    simp only [Page.step, WebRTC.addRecvTransceiver, hpc, Bool.false_eq_true, if_false]
    exact h
  | renegotiate => exact h.renegotiate
  | peerLeft p =>
    simp only [Page.step, WebRTC.markTransceiverInactive, hpc, Bool.false_eq_true, if_false]
    exact h.renegotiate
  | cameraOn =>
    simp only [Page.step, hpc, Bool.false_eq_true, if_false]
    exact h
  | cameraOff =>
    simp only [Page.step, h.camera, Bool.false_eq_true, if_false]
    exact h
  | iceRestart =>
    simp only [Page.step, hpc, Bool.false_eq_true, if_false]
    exact h
  | userMedia i | offerCreated i | described i | rejected i =>
    simp only [Page.step, h.frames i]
    exact h
  | answer =>
    dsimp only [Page.step]
    split
    · exact h
    · exact h.frame rfl rfl rfl rfl rfl
  | error => exact h.frame rfl rfl rfl rfl rfl
  | remoteDescribed =>
    dsimp only [Page.step]
    split
    · exact h
    · split
      · exact h.frame rfl rfl rfl rfl rfl
      · rename_i i _
        rw [Page.resolve, h.frames i]
        exact h.frame rfl rfl rfl rfl rfl

theorem kept_pc (s : Page) (e : Event) : Kept s e fun w => w.pc = true where
  pc _ _ _ _ := rfl
  flags _ _ _ _ _ _ h := h
  addRecvOne w _ _ _ h := by
    unfold WebRTC.addRecvOne
    split <;> exact h
  markOne w _ _ _ h := by
    unfold WebRTC.markOne
    split
    · exact h
    · split <;> exact h
  addTrack w _ _ _ h := by
    unfold WebRTC.addTrack
    split <;> exact h
  enableCamera w h := by
    unfold WebRTC.enableCamera
    split <;> exact h
  disableCamera w h := by
    unfold WebRTC.disableCamera
    cases w.videoSender <;> exact h
  setLocalDescription _ _ _ _ _ _ h := h
  takePending _ _ _ _ _ _ h := h

theorem untouched_step (h : s.rtc.pc = false → s.Untouched) (e : Event)
    (hpc : (s.step e).rtc.pc = false) : (s.step e).Untouched := by
  have hbefore : s.rtc.pc = false := by
    by_contra hopen
    rw [(kept_pc s e).step (Bool.not_eq_false _ ▸ hopen)] at hpc
    cases hpc
  refine (h hbefore).step hbefore fun l he => ?_
  subst he
  simp only [step, hbefore, Bool.false_eq_true, if_false] at hpc
  cases hpc

/-! ## The peers of the transceivers -/

open WebRTC (Among)

theorem kept_among (hc : s.Calls) (htime : s.InTime e) {ids : List String}
    (hadds : ∀ p, s.Adds e p → p ∈ ids) : Kept s e fun w => w.OneUse ∧ Among ids w := by
  have hk := kept_oneUse hc htime
  constructor
  · exact fun w l he h => ⟨hk.pc w l he h.1, h.2.pending, h.2.bound⟩
  · exact fun w _ _ _ _ _ h => ⟨hk.flags w _ _ _ _ _ h.1, h.2.pending, h.2.bound⟩
  · intro w p k ha h
    obtain ⟨t, hpending⟩ := w.pending_addRecvOne p k
    refine ⟨hk.addRecvOne w p k ha h.1, fun x hx => ?_, fun t' p' ht => ?_⟩
    · rw [hpending] at hx
      rcases List.mem_append.1 hx with hx | hx
      · exact h.2.pending x hx
      · rw [List.mem_singleton.1 hx]
        exact hadds p ha
    · rw [midPeerMap_addRecvOne] at ht
      exact h.2.bound t' p' ht
  · intro w p t he h
    refine ⟨hk.markOne w p t he h.1, ?_, fun t' p' ht => ?_⟩
    · rw [WebRTC.pending_markOne]
      exact h.2.pending
    · exact h.2.bound t' p' (WebRTC.markOne_unbinds p w t _ _ ht)
  · intro w i he hw h
    refine ⟨hk.addTrack w i he hw h.1, ?_, ?_⟩
    · rw [WebRTC.addTrack_pending]
      exact h.2.pending
    · unfold WebRTC.addTrack
      split <;> exact h.2.bound
  · exact fun w h => ⟨hk.enableCamera w h.1,
      by rw [w.enableCamera_pending]; exact h.2.pending,
      by rw [w.midPeerMap_enableCamera]; exact h.2.bound⟩
  · intro w h
    refine ⟨hk.disableCamera w h.1, ?_⟩
    unfold WebRTC.disableCamera
    cases w.videoSender <;> exact ⟨h.2.pending, h.2.bound⟩
  · exact fun w i caller o hf hw h =>
      ⟨hk.setLocalDescription w i caller o hf hw h.1, h.2.pending, h.2.bound⟩
  · intro w i o he hf hw h
    refine ⟨hk.takePending w i o he hf hw h.1, fun x hx => absurd hx List.not_mem_nil,
      fun t p ht => ?_⟩
    subst he hw
    have hd := described_of_inTime hc htime hf
    by_cases hp : ∃ x ∈ (s.rtc.setLocalDescription o).pendingTransceivers, x.transceiver = t
    · obtain ⟨x, hx, rfl⟩ := hp
      rw [WebRTC.takePending_of_mem h.1 hd hx] at ht
      obtain rfl := Option.some.inj ht
      exact h.2.pending x hx
    · rw [WebRTC.takePending_of_not_mem hd fun x hx heq =>
        hp ⟨x, hx, (Option.some.inj heq).symm⟩] at ht
      exact h.2.bound t p ht

/-- A peer that leaves when none of its transceivers is pending, is asked for no more. -/
theorem among_peerLeft (hc : s.Calls) (huse : s.rtc.OneUse) {ids : List String}
    (h : Among ids s.rtc) (hpc : s.rtc.pc = false → s.Untouched)
    (hpending : ∀ x ∈ s.rtc.pendingTransceivers, x.peerId ≠ peerId) :
    Among (ids.filter (· ≠ peerId)) (s.step (.peerLeft peerId)).rtc := by
  have hno : ∀ p, ¬ s.Adds (.peerLeft peerId) p := by
    rintro p (⟨_, he⟩ | hp)
    · cases he
    · cases hp
  have hk : Kept s (.peerLeft peerId) fun w => w.OneUse ∧ Among ids w :=
    kept_among hc (e := .peerLeft peerId) trivial fun p ha => absurd ha (hno p)
  have hk' : Kept s (.peerLeft peerId) fun w => w.OneUse ∧ Among (ids.filter (· ≠ peerId)) w :=
    kept_among hc (e := .peerLeft peerId) trivial fun p ha => absurd ha (hno p)
  obtain ⟨hone, hmarked⟩ := hk.markTransceiverInactive ⟨huse, h⟩
  have hgone := WebRTC.markTransceiverInactive_gone huse (fun hp => (hpc hp).transceivers) peerId
  have hfiltered : Among (ids.filter (· ≠ peerId)) (s.rtc.markTransceiverInactive peerId) := by
    refine ⟨fun x hx => ?_, fun t p ht => ?_⟩
    · refine List.mem_filter.2 ⟨hmarked.pending x hx, ?_⟩
      rw [WebRTC.pending_markTransceiverInactive] at hx
      exact decide_eq_true (hpending x hx)
    · refine List.mem_filter.2 ⟨hmarked.bound t p ht, decide_eq_true ?_⟩
      rintro rfl
      exact hgone t ht
  exact (hk'.renegotiate (t := { s with rtc := _ }) ⟨hone, hfiltered⟩).2

end Page

/-! ## The tiles -/

namespace UI

variable {tiles : List Tile} {tile : Tile} {id : String}

theorem mem_of_addVideo (h : tile ∈ addVideo tiles id) (hs : tile.srcObject ≠ none) :
    tile ∈ tiles := by
  unfold addVideo at h
  split at h
  · exact h
  · rcases List.mem_append.1 h with h | h
    · exact h
    · rw [List.mem_singleton.1 h] at hs
      exact absurd rfl hs

theorem mem_of_foldl_addVideo {l : List String} (h : tile ∈ l.foldl addVideo tiles)
    (hs : tile.srcObject ≠ none) : tile ∈ tiles := by
  induction l generalizing tiles with
  | nil => exact h
  | cons id l ih => exact mem_of_addVideo (ih h) hs

end UI

namespace Screen

open WebRTC (Among)

variable {s : Screen} {e : Event}

/-- What the tracks count on: the entries of each offer are in its SDP, the microphone comes first, a
peer that leaves has no transceiver pending, and a transceiver that receives has a peer when its
track comes. -/
def Orderly (s : Screen) : ScreenEvent → Prop
  | .page e => s.page.InTime e ∧ s.page.MicFirst e ∧ s.page.LeavesNone e
  | .track t => s.page.rtc.directionOf t = some .recvonly →
    ∃ p ∈ s.page.rtc.midPeerMap (s.page.rtc.midOf t), p ≠ ""

instance (s : Screen) (e : ScreenEvent) : Decidable (s.Orderly e) :=
  match e with
  | .page e =>
    inferInstanceAs (Decidable (s.page.InTime e ∧ s.page.MicFirst e ∧ s.page.LeavesNone e))
  | .track t =>
    inferInstanceAs (Decidable (s.page.rtc.directionOf t = some .recvonly →
      ∃ p ∈ s.page.rtc.midPeerMap (s.page.rtc.midOf t), p ≠ ""))

/-- Every track is shown in the tile of the peer that its transceiver has. -/
def OwnTracks (s : Screen) : Prop := ∀ tile ∈ s.tiles, ∀ l, tile.srcObject = some l → ∀ x ∈ l,
  s.page.rtc.midPeerMap (some x.1) = some tile.id ∧ s.page.rtc.kindOf x.1 = some x.2

/-- What a page needs so that a track comes into the tile of its peer. -/
structure Owned (s : Screen) : Prop where
  calls : s.page.Calls
  begun : s.page.rtc.pc = false → s.page.Untouched
  oneUse : s.page.rtc.OneUse
  receiving : s.page.rtc.Receiving
  among : Among s.shown s.page.rtc
  own : s.OwnTracks

theorem owned_start : Owned {} where
  calls := Page.calls_start
  begun _ := Page.untouched_start
  oneUse := WebRTC.oneUse_start
  receiving := WebRTC.receiving_start
  among := ⟨fun _ hp => absurd hp List.not_mem_nil, fun _ _ h => by cases h⟩
  own _ h := absurd h List.not_mem_nil

/-- Every peer that a step asks for gets a tile. -/
theorem shown_page (s : Screen) (hne : ∀ p, e ≠ .peerLeft p) :
    (∀ p ∈ s.shown, p ∈ (s.step (.page e)).shown) ∧
      ∀ p, s.page.Adds e p → p ∈ (s.step (.page e)).shown := by
  cases e with
  | peerLeft p => exact absurd rfl (hne p)
  | joined l =>
    refine ⟨fun p hp => UI.mem_addVideo.2 (.inl hp), fun p ha => ?_⟩
    rcases ha with ⟨_, he⟩ | hp
    · cases he
    · cases hp
  | addRecvTransceiver id ks =>
    refine ⟨fun p hp => UI.mem_addVideo.2 (.inl hp), fun p ha => ?_⟩
    rcases ha with ⟨_, he⟩ | hp
    · injection he with hid
      exact UI.mem_addVideo.2 (.inr hid.symm)
    · cases hp
  | _ =>
    refine ⟨fun p hp => (UI.mem_foldl_addVideo _).2 (.inl hp), fun p ha => ?_⟩
    rcases ha with ⟨_, he⟩ | hp
    · cases he
    · exact (UI.mem_foldl_addVideo _).2 (.inr hp)

/-- A tile with a stream was there before the step, and is not that of a peer that leaves. -/
theorem tile_page {tile : Tile} (h : tile ∈ s.tilesAfter e) (hs : tile.srcObject ≠ none) :
    tile ∈ s.tiles ∧ e ≠ .peerLeft tile.id := by
  cases e with
  | joined | addRecvTransceiver => exact ⟨UI.mem_of_addVideo h hs, nofun⟩
  | peerLeft id =>
    obtain ⟨hmem, hne⟩ := List.mem_filter.1 h
    refine ⟨hmem, fun he => ?_⟩
    injection he with hid
    exact of_decide_eq_true hne hid.symm
  | _ => exact ⟨UI.mem_of_foldl_addVideo h hs, nofun⟩

theorem Owned.page (h : s.Owned) (ho : s.Orderly (.page e)) : (s.step (.page e)).Owned := by
  obtain ⟨htime, hmic, hleft⟩ := ho
  have hreceiving := (Page.kept_receiving h.calls htime hmic).step ⟨h.oneUse, h.receiving⟩
  refine ⟨h.calls.step e, Page.untouched_step h.begun e, hreceiving.1, hreceiving.2, ?_, ?_⟩
  · by_cases he : ∃ p, e = .peerLeft p
    · obtain ⟨p, rfl⟩ := he
      have hamong := Page.among_peerLeft h.calls h.oneUse h.among h.begun hleft
      have hshown : (s.step (.page (.peerLeft p))).shown = s.shown.filter (· ≠ p) := by
        simp only [shown, step, tilesAfter, UI.removeVideo, List.filter_map]
        rfl
      rw [hshown]
      exact hamong
    · obtain ⟨hmono, hadds⟩ := s.shown_page (e := e) fun p hp => he ⟨p, hp⟩
      refine ((Page.kept_among h.calls htime hadds).step ⟨h.oneUse, ?_⟩).2
      exact ⟨fun x hx => hmono _ (h.among.pending x hx),
        fun t p ht => hmono _ (h.among.bound t p ht)⟩
  · intro tile htile l hl x hx
    obtain ⟨hmem, hne⟩ := tile_page htile (by rw [hl]; exact Option.some_ne_none l)
    obtain ⟨hpeer, hkind⟩ := h.own tile hmem l hl x hx
    exact ⟨((Page.kept_bound h.calls htime hne).step ⟨h.oneUse, hpeer⟩).2,
      (Page.kept_kind h.calls).step hkind⟩

/-! ### Tracks -/

/-- The transceiver of a track, and its peer. -/
theorem Owned.track_of (h : s.Owned) {t : Nat} {p : String}
    (hp : s.page.rtc.midPeerMap (s.page.rtc.midOf t) = some p) : ∃ tc,
      s.page.rtc.transceivers[t]? = some tc ∧ tc.direction = .recvonly ∧ tc.mid = some t ∧
        s.page.rtc.midPeerMap (some t) = some p := by
  cases hmid : s.page.rtc.midOf t with
  | none =>
    rw [hmid, h.oneUse.noNull] at hp
    cases hp
  | some m =>
    obtain rfl := h.oneUse.ownMids t m hmid
    rw [hmid] at hp
    have hdir := h.receiving.bound m p hp
    unfold WebRTC.midOf at hmid
    unfold WebRTC.directionOf at hdir
    cases htc : s.page.rtc.transceivers[m]? with
    | none =>
      rw [htc] at hmid
      cases hmid
    | some tc =>
      rw [htc] at hmid hdir
      exact ⟨tc, rfl, Option.some.inj hdir, hmid, hp⟩

/-- `ontrack` takes the tile of the peer. -/
theorem Owned.ontrack_eq (h : s.Owned) {t : Nat} {p : String} (hne : p ≠ "")
    (hp : s.page.rtc.midPeerMap (s.page.rtc.midOf t) = some p) : ∃ tc,
      s.page.rtc.transceivers[t]? = some tc ∧ s.page.rtc.midPeerMap (some t) = some p ∧
        s.ontrack t = { s with tiles := s.tiles.map fun tile =>
          if tile.id = p then addToStream t tc.kind tile else tile } := by
  obtain ⟨tc, htc, hdir, hmid, hpeer⟩ := h.track_of hp
  refine ⟨tc, htc, hpeer, ?_⟩
  have htarget : s.targetVideo tc.mid = some p := by
    unfold targetVideo
    rw [hmid, hpeer]
    exact if_pos ⟨hne, h.among.bound t p hpeer⟩
  unfold ontrack
  rw [htc]
  dsimp only
  rw [if_neg (not_not.2 hdir), htarget]

/-- The track of a transceiver that is not `recvonly` is skipped. -/
theorem ontrack_skip {t : Nat} (hdir : s.page.rtc.directionOf t ≠ some .recvonly) :
    s.ontrack t = s := by
  unfold WebRTC.directionOf at hdir
  unfold ontrack
  cases htc : s.page.rtc.transceivers[t]? with
  | none => rfl
  | some tc =>
    rw [htc] at hdir
    exact if_pos fun hd => hdir (congrArg some hd)

theorem Owned.track (h : s.Owned) {t : Nat} (ho : s.Orderly (.track t)) :
    (s.step (.track t)).Owned := by
  by_cases hdir : s.page.rtc.directionOf t = some .recvonly
  swap
  · rw [step, ontrack_skip hdir]
    exact h
  obtain ⟨p, hp, hne⟩ := ho hdir
  obtain ⟨tc, htc, hpeer, heq⟩ := h.ontrack_eq hne hp
  have hshown : (s.step (.track t)).shown = s.shown := shown_ontrack s t
  have hpage : (s.step (.track t)).page = s.page := page_ontrack s t
  refine ⟨?_, ?_, ?_, ?_, ?_, ?_⟩
  · rw [hpage]; exact h.calls
  · rw [hpage]; exact h.begun
  · rw [hpage]; exact h.oneUse
  · rw [hpage]; exact h.receiving
  · rw [hpage, hshown]; exact h.among
  · unfold OwnTracks
    rw [step, heq]
    intro tile htile l hl x hx
    obtain ⟨tile, hmem, rfl⟩ := List.mem_map.1 htile
    split at hl
    · rename_i hid
      rw [if_pos hid]
      obtain rfl := Option.some.inj hl
      rcases List.mem_append.1 hx with hx | hx
      · cases hsrc : tile.srcObject with
        | none =>
          rw [hsrc] at hx
          cases hx
        | some l =>
          rw [hsrc] at hx
          exact h.own tile hmem l hsrc x (List.mem_of_mem_filter hx)
      · rw [List.mem_singleton.1 hx]
        refine ⟨hpeer.trans (congrArg some hid.symm), ?_⟩
        rw [WebRTC.kindOf, htc]
        rfl
    · rename_i hid
      rw [if_neg hid]
      exact h.own tile hmem l hl x hx

/-! ### Runs -/

theorem owned_exec (es : List ScreenEvent) (h : Meets step Orderly {} es) : (exec step {} es).Owned :=
  Runs.exec_inv (fun _ e hs ho => by
    cases e with
    | page e => exact hs.page ho
    | track t => exact hs.track ho) owned_start h

/-- **Every track is in its own tile.** No tile shows the track of a transceiver that does not have
its peer, and the track of a transceiver that has one is put into the stream of its tile. -/
theorem own_tiles (es : List ScreenEvent) (h : Meets step Orderly {} es) :
    (exec step {} es).OwnTracks ∧ ∀ t p, p ≠ "" →
      (exec step {} es).page.rtc.midPeerMap (some t) = some p →
        ∃ tile ∈ ((exec step {} es).ontrack t).tiles, tile.id = p ∧ ∃ l k,
          tile.srcObject = some l ∧ (exec step {} es).page.rtc.kindOf t = some k ∧ (t, k) ∈ l := by
  have hs := owned_exec es h
  generalize exec step {} es = s at hs ⊢
  refine ⟨hs.own, fun t p hne hp => ?_⟩
  have hmid := hs.oneUse.bound t p hp
  obtain ⟨tc, htc, -, heq⟩ := hs.ontrack_eq hne (by rw [hmid]; exact hp)
  obtain ⟨tile, hmem, hid⟩ := List.mem_map.1 (hs.among.bound t p hp)
  rw [heq]
  refine ⟨addToStream t tc.kind tile, List.mem_map.2 ⟨tile, hmem, if_pos hid⟩, hid, _, tc.kind, rfl,
    by rw [WebRTC.kindOf, htc]; rfl, List.mem_append_right _ (.head _)⟩

/-- Peer b is there, leaves, and peer c takes over its transceivers. -/
def handOver : List ScreenEvent :=
  Page.comeFirst.map .page ++ [.page (.described 1), .track 0, .track 1, .track 2] ++
    Page.comeAfter.map .page ++ [.page (.described 2), .track 1]

theorem own_tiles_handOver : (exec step {} handOver).OwnTracks ∧ ∀ t p, p ≠ "" →
    (exec step {} handOver).page.rtc.midPeerMap (some t) = some p →
      ∃ tile ∈ ((exec step {} handOver).ontrack t).tiles, tile.id = p ∧ ∃ l k,
        tile.srcObject = some l ∧ (exec step {} handOver).page.rtc.kindOf t = some k ∧ (t, k) ∈ l :=
  own_tiles handOver (by decide)

example : (exec step {} handOver).tiles =
    [⟨"local", none⟩, ⟨"c", some [(1, .video)]⟩] := by decide

end Screen

end Namecon
