import Namecon.Lib.ListFacts
import Namecon.Web.Proof.Entries
import Namecon.Web.Screen

/-!
# The transceivers that receive

A transceiver that receives is bound to a peer (`_midPeerMap`), still to be reported
(`_pendingTransceivers`), or free for the next peer (`_inactivePool`). `WebRTC.OneUse`: it is one of
these at a time, as long as the entries of each offer are in its SDP. `Kept` is the rule for what
the steps of a page do to the WebRTC object. `mids_handed_on`: between two offers that ask for
different peers under one mid, the page has handled the `peer-left` of the first.
-/

namespace Namecon

open Function (update)
open Runs (exec Meets)

namespace WebRTC

variable {w w' : WebRTC} {t : Nat} {k : Kind} {peerId : String}

/-- The kind of transceiver `t`. -/
def kindOf (w : WebRTC) (t : Nat) : Option Kind := w.transceivers[t]?.map (·.kind)

/-- The transceivers that wait for an offer or for a peer. -/
def waiting (w : WebRTC) : List (Nat × Kind) :=
  w.pendingTransceivers.map (fun p => (p.transceiver, p.kind)) ++
    w.inactivePool.map fun p => (p.transceiver, p.kind)

/-! ## Mids and kinds stay -/

/-- Transceivers keep their kinds, and their mids once they have them. -/
structure Extends (w w' : WebRTC) : Prop where
  ownMids : w.OwnMids → w'.OwnMids
  midOf : ∀ t m, w.midOf t = some m → w'.midOf t = some m
  kindOf : ∀ t k, w.kindOf t = some k → w'.kindOf t = some k

theorem Extends.of_same (h : w'.transceivers = w.transceivers) : Extends w w' := by
  have hmid : w'.midOf = w.midOf := by unfold WebRTC.midOf; rw [h]
  have hkind : w'.kindOf = w.kindOf := by unfold WebRTC.kindOf; rw [h]
  exact ⟨fun ho t m hm => ho t m (by rw [← hmid]; exact hm), fun t m hm => by rw [hmid]; exact hm,
    fun t k hk => by rw [hkind]; exact hk⟩

theorem Extends.trans {w'' : WebRTC} (h : Extends w w') (h' : Extends w' w'') : Extends w w'' :=
  ⟨fun ho => h'.ownMids (h.ownMids ho), fun t m hm => h'.midOf t m (h.midOf t m hm),
    fun t k hk => h'.kindOf t k (h.kindOf t k hk)⟩

theorem Extends.of_grows (hg : Grows w w') (hk : ∀ t k, w.kindOf t = some k → w'.kindOf t = some k) :
    Extends w w' :=
  ⟨fun ho => ho.grows hg, fun t m hm => by rw [hg.midOf]; exact hm, hk⟩

theorem kindOf_modify (w : WebRTC) (t t' : Nat) {f : Transceiver → Transceiver}
    (hf : ∀ tc, (f tc).kind = tc.kind) :
    kindOf { w with transceivers := w.transceivers.modify t f } t' = w.kindOf t' := by
  unfold kindOf
  rw [List.getElem?_modify]
  cases w.transceivers[t']? with
  | none => rfl
  | some tc =>
    by_cases ht : t = t'
    · simp [ht, hf]
    · simp [ht]

theorem extends_setDirection (w : WebRTC) (t : Nat) (d : Direction) :
    Extends w (w.setDirection t d) :=
  .of_grows (grows_setDirection w t d) fun t' k hk => by
    unfold setDirection
    rw [kindOf_modify]
    · exact hk
    · exact fun _ => rfl

theorem kindOf_addTransceiver (w : WebRTC) (k : Kind) (d : Direction) :
    (w.addTransceiver k d).kindOf w.transceivers.length = some k := by
  simp [kindOf, addTransceiver]

theorem lt_of_kindOf (h : w.kindOf t = some k) : t < w.transceivers.length := by
  by_contra ht
  rw [kindOf, List.getElem?_eq_none (Nat.not_lt.1 ht)] at h
  cases h

theorem extends_addTransceiver (w : WebRTC) (k : Kind) (d : Direction) :
    Extends w (w.addTransceiver k d) :=
  .of_grows (grows_addTransceiver w k d) fun t k' hk => by
    have ht := lt_of_kindOf hk
    unfold kindOf addTransceiver at *
    rw [List.getElem?_append_left ht]
    exact hk

theorem extends_addTrack (w : WebRTC) : Extends w w.addTrack := by
  unfold addTrack
  split
  · refine .of_grows (grows_modify _ _ fun _ => rfl) fun t k hk => ?_
    rw [kindOf_modify]
    · exact hk
    · exact fun _ => rfl
  · exact extends_addTransceiver w _ _

theorem extends_enableCamera (w : WebRTC) : Extends w w.enableCamera := by
  unfold enableCamera
  split <;> exact (extends_addTransceiver w .video .sendrecv).trans (.of_same rfl)

/-- The camera takes no transceiver that waits. -/
theorem waiting_enableCamera (w : WebRTC) : w.enableCamera.waiting = w.waiting := by
  unfold enableCamera
  split <;> rfl

theorem midPeerMap_enableCamera (w : WebRTC) : w.enableCamera.midPeerMap = w.midPeerMap := by
  unfold enableCamera
  split <;> rfl

theorem extends_disableCamera (w : WebRTC) : Extends w w.disableCamera := by
  unfold disableCamera
  cases w.videoSender with
  | none => exact .of_same rfl
  | some t => exact (extends_setDirection w t .inactive).trans (.of_same rfl)

theorem extends_setLocalDescription (w : WebRTC) {o : Offer}
    (ho : o.sections ≤ w.transceivers.length) (hown : w.OwnMids) :
    Extends w (w.setLocalDescription o) where
  ownMids h := h.setLocalDescription ho
  midOf t m hm := by
    rw [midOf_setLocalDescription w ho]
    split
    · exact congrArg some (hown t m hm).symm
    · exact hm
  kindOf t k hk := by
    unfold kindOf setLocalDescription at *
    rw [List.getElem?_mapIdx]
    cases htc : w.transceivers[t]? with
    | none => rw [htc] at hk; exact hk
    | some tc =>
      rw [htc] at hk
      rw [← hk]
      dsimp only [Option.map]
      split <;> rfl

/-! ## One use for each transceiver -/

/-- A transceiver that waits does so once, has no peer, and is of the kind it is listed with. -/
structure OneUse (w : WebRTC) : Prop where
  ownMids : w.OwnMids
  nodup : (w.waiting.map Prod.fst).Nodup
  kinds : ∀ e ∈ w.waiting, w.kindOf e.1 = some e.2
  free : ∀ e ∈ w.waiting, w.midPeerMap (some e.1) = none
  noNull : w.midPeerMap none = none
  bound : ∀ t p, w.midPeerMap (some t) = some p → w.midOf t = some t

theorem oneUse_start : OneUse {} where
  ownMids _ _ h := by cases h
  nodup := List.nodup_nil
  kinds _ he := absurd he List.not_mem_nil
  free _ he := absurd he List.not_mem_nil
  noNull := rfl
  bound _ _ h := by cases h

/-- `w'` has the peers of `w`, or fewer. -/
def Unbinds (w w' : WebRTC) : Prop := ∀ m p, w'.midPeerMap m = some p → w.midPeerMap m = some p

theorem Unbinds.free (h : Unbinds w w') {m : Option Nat} (hm : w.midPeerMap m = none) :
    w'.midPeerMap m = none := by
  cases hm' : w'.midPeerMap m with
  | none => rfl
  | some p =>
    rw [h m p hm'] at hm
    cases hm

theorem Unbinds.of_eq (h : w'.midPeerMap = w.midPeerMap) : Unbinds w w' := fun m p hm => by
  rw [← h]
  exact hm

theorem Unbinds.of_update {m : Option Nat} (h : w'.midPeerMap = update w.midPeerMap m none) :
    Unbinds w w' := by
  intro m' p hp
  rw [h] at hp
  by_cases he : m' = m
  · rw [he, Function.update_self] at hp
    cases hp
  · rwa [Function.update_of_ne he] at hp

theorem OneUse.frame (h : w.OneUse) (he : Extends w w') (hw : w'.waiting.Perm w.waiting)
    (hm : Unbinds w w') : w'.OneUse where
  ownMids := he.ownMids h.ownMids
  nodup := (hw.map _).nodup_iff.2 h.nodup
  kinds e hmem := he.kindOf _ _ (h.kinds e (hw.mem_iff.1 hmem))
  free e hmem := hm.free (h.free e (hw.mem_iff.1 hmem))
  noNull := hm.free h.noNull
  bound t p ht := he.midOf t t (h.bound t p (hm _ _ ht))

/-- One more transceiver waits. -/
theorem OneUse.cons (h : w.OneUse) (he : Extends w w') (hm : Unbinds w w')
    (hw : w'.waiting.Perm ((t, k) :: w.waiting)) (hnew : ∀ e ∈ w.waiting, e.1 ≠ t)
    (hk : w'.kindOf t = some k) (hfree : w'.midPeerMap (some t) = none) : w'.OneUse where
  ownMids := he.ownMids h.ownMids
  nodup := by
    rw [(hw.map _).nodup_iff, List.map_cons, List.nodup_cons]
    refine ⟨fun hmem => ?_, h.nodup⟩
    obtain ⟨e, hmem, he⟩ := List.mem_map.1 hmem
    exact hnew e hmem he
  kinds e hmem := by
    rcases List.mem_cons.1 (hw.mem_iff.1 hmem) with rfl | hmem
    · exact hk
    · exact he.kindOf _ _ (h.kinds e hmem)
  free e hmem := by
    rcases List.mem_cons.1 (hw.mem_iff.1 hmem) with rfl | hmem
    · exact hfree
    · exact hm.free (h.free e hmem)
  noNull := hm.free h.noNull
  bound t p ht := he.midOf t t (h.bound t p (hm _ _ ht))

/-- A transceiver of the pool is taken for the peer. -/
theorem waiting_reuse (w : WebRTC) {p : Pooled} (peerId : String)
    (hp : w.inactivePool.find? (fun p => p.kind = k) = some p) :
    ((({ w with inactivePool := w.inactivePool.eraseP fun p => p.kind = k } : WebRTC).setDirection
      p.transceiver .recvonly).pushPending ⟨p.transceiver, peerId, k⟩).waiting.Perm w.waiting := by
  have hk : p.kind = k := by simpa using List.find?_some hp
  have hpool := (ListFacts.perm_cons_eraseP hp).map fun p => (p.transceiver, p.kind)
  rw [List.map_cons, hk] at hpool
  simp only [waiting, pushPending, setDirection, List.map_append, List.map_cons, List.map_nil,
    List.append_assoc]
  exact hpool.symm.append_left _

theorem OneUse.addRecvOne (h : w.OneUse) (peerId : String) (k : Kind) :
    (w.addRecvOne peerId k).OneUse := by
  unfold WebRTC.addRecvOne
  split
  · rename_i p hp
    refine h.frame ?_ (w.waiting_reuse peerId hp) (.of_eq rfl)
    exact ((Extends.of_same rfl).trans (extends_setDirection _ p.transceiver .recvonly)).trans
      (.of_same rfl)
  · have hext := extends_addTransceiver w k .recvonly
    refine h.cons (hext.trans (.of_same rfl)) (.of_eq rfl) (t := w.transceivers.length) (k := k)
      ?_ (fun e he => (lt_of_kindOf (h.kinds e he)).ne) (kindOf_addTransceiver w k .recvonly) ?_
    · simp only [waiting, pushPending, addTransceiver, List.map_append, List.map_cons, List.map_nil,
        List.append_assoc]
      exact List.perm_middle
    · change w.midPeerMap (some w.transceivers.length) = none
      cases hm : w.midPeerMap (some w.transceivers.length) with
      | none => rfl
      | some p =>
        have hmid := h.bound _ p hm
        rw [midOf, List.getElem?_eq_none le_rfl] at hmid
        cases hmid

/-- What is bound is bound under the number of the transceiver. -/
theorem OneUse.mid_of_bound (h : w.OneUse) {tc : Transceiver} (ht : w.transceivers[t]? = some tc)
    (hm : w.midPeerMap tc.mid = some peerId) : tc.mid = some t := by
  cases hmid : tc.mid with
  | none =>
    rw [hmid, h.noNull] at hm
    cases hm
  | some m => rw [h.ownMids t m (by rw [midOf, ht]; exact hmid)]

theorem OneUse.markOne (h : w.OneUse) (peerId : String) (t : Nat) :
    (WebRTC.markOne peerId w t).OneUse := by
  unfold WebRTC.markOne
  split
  · exact h
  · rename_i tc htc
    split
    · rename_i hm
      have hmid := h.mid_of_bound htc hm
      have hext := extends_setDirection w t .inactive
      refine h.cons (t := t) (k := tc.kind) (hext.trans (.of_same rfl)) (.of_update rfl) ?_ ?_ ?_ ?_
      · simp only [waiting, setDirection, List.map_append, List.map_cons, List.map_nil]
        rw [← List.append_assoc]
        exact List.perm_append_comm
      · intro e he het
        have hfree := h.free e he
        rw [het, ← hmid, hm] at hfree
        cases hfree
      · exact hext.kindOf t _ (by rw [kindOf, htc]; rfl)
      · rw [hmid]
        exact Function.update_self ..
    · exact h

/-! ### The entries of an offer -/

/-- What is pending is in the offer that has been described. -/
def Described (w : WebRTC) : Prop :=
  ∀ p ∈ w.pendingTransceivers, w.midOf p.transceiver = some p.transceiver

theorem Described.keys (h : w.Described) :
    w.pendingTransceivers.map (fun p => w.midOf p.transceiver) =
      (w.pendingTransceivers.map (·.transceiver)).map some := by
  rw [List.map_map]
  exact List.map_congr_left h

theorem OneUse.pending_nodup (h : w.OneUse) : (w.pendingTransceivers.map (·.transceiver)).Nodup := by
  have hnodup := h.nodup
  rw [waiting, List.map_append, List.map_map] at hnodup
  exact (List.nodup_append.1 hnodup).1

theorem OneUse.keys_nodup (h : w.OneUse) (hd : w.Described) :
    (w.pendingTransceivers.map fun p => w.midOf p.transceiver).Nodup := by
  rw [hd.keys]
  exact h.pending_nodup.map (Option.some_injective _)

theorem takePending_of_mem (h : w.OneUse) (hd : w.Described) {p : Pending}
    (hp : p ∈ w.pendingTransceivers) :
    w.takePending.1.midPeerMap (some p.transceiver) = some p.peerId := by
  have hmid : w.takePending.1.midPeerMap (w.midOf p.transceiver) = some p.peerId :=
    ListFacts.foldl_update_of_mem (h.keys_nodup hd) hp w.midPeerMap
  rw [hd p hp] at hmid
  exact hmid

theorem takePending_of_not_mem (hd : w.Described) {m : Option Nat}
    (hm : ∀ p ∈ w.pendingTransceivers, m ≠ some p.transceiver) :
    w.takePending.1.midPeerMap m = w.midPeerMap m := by
  refine ListFacts.foldl_update_of_not_mem (fun hmem => ?_) w.midPeerMap
  rw [hd.keys, List.map_map] at hmem
  obtain ⟨p, hp, rfl⟩ := List.mem_map.1 hmem
  exact hm p hp rfl

theorem OneUse.takePending (h : w.OneUse) (hd : w.Described) : w.takePending.1.OneUse := by
  have hwaiting : w.takePending.1.waiting = w.inactivePool.map fun p => (p.transceiver, p.kind) :=
    rfl
  have hmem : ∀ e ∈ w.takePending.1.waiting, e ∈ w.waiting := fun e he =>
    List.mem_append_right _ he
  have hnodup := h.nodup
  rw [waiting, List.map_append, List.nodup_append] at hnodup
  refine ⟨h.ownMids, hnodup.2.1, fun e he => h.kinds e (hmem e he), fun e he => ?_, ?_,
    fun t p ht => ?_⟩
  · rw [takePending_of_not_mem hd]
    · exact h.free e (hmem e he)
    · intro p hp heq
      refine hnodup.2.2 p.transceiver ?_ e.1 (List.mem_map_of_mem he) (Option.some.inj heq).symm
      exact List.mem_map_of_mem (List.mem_map_of_mem hp)
  · rw [takePending_of_not_mem hd fun p _ heq => by cases heq]
    exact h.noNull
  · by_cases hp : ∃ p ∈ w.pendingTransceivers, p.transceiver = t
    · obtain ⟨p, hp, rfl⟩ := hp
      exact hd p hp
    · rw [takePending_of_not_mem hd fun p hmem heq => hp ⟨p, hmem, (Option.some.inj heq).symm⟩] at ht
      exact h.bound t p ht

end WebRTC

namespace Page

open WebRTC (OneUse)

variable {s : Page} {e : Event} {I : WebRTC → Prop} {i : Nat} {o : Offer} {peerId : String}

/-! ## What a step does to the WebRTC object -/

/-- The step asks for transceivers for the peer. -/
def Adds (s : Page) (e : Event) (peerId : String) : Prop :=
  (∃ kindList, e = .addRecvTransceiver peerId kindList) ∨ peerId ∈ s.initReturns e

/-- `I` is kept by what the step `e` may do to the WebRTC object. -/
structure Kept (s : Page) (e : Event) (I : WebRTC → Prop) : Prop where
  pc : ∀ w l, e = .joined l → I w → I { w with pc := true }
  flags : ∀ (w : WebRTC) (localStream renegotiating needsRenegotiate : Bool) (queue : Nat)
    answerResolver, I w → I { w with
      localStream := localStream
      renegotiating := renegotiating
      needsRenegotiate := needsRenegotiate
      renegotiateQueue := queue
      answerResolver := answerResolver }
  addRecvOne : ∀ w peerId k, s.Adds e peerId → I w → I (w.addRecvOne peerId k)
  markOne : ∀ w peerId t, e = .peerLeft peerId → I w → I (WebRTC.markOne peerId w t)
  addTrack : ∀ w i, e = .userMedia i true → w.transceivers = s.rtc.transceivers → I w →
    I w.addTrack
  enableCamera : ∀ w, I w → I w.enableCamera
  disableCamera : ∀ w, I w → I w.disableCamera
  setLocalDescription : ∀ w i caller o, s.frames i = some ⟨caller, .setLocalDescription o⟩ →
    w = s.rtc → I w → I (w.setLocalDescription o)
  takePending : ∀ w i o, e = .described i → s.frames i = some ⟨.run, .setLocalDescription o⟩ →
    w = s.rtc.setLocalDescription o → I w → I w.takePending.1

theorem Kept.foldl {α : Type} {f : WebRTC → α → WebRTC} {l : List α}
    (hf : ∀ w, ∀ a ∈ l, I w → I (f w a)) {w : WebRTC} (h : I w) : I (l.foldl f w) := by
  induction l generalizing w with
  | nil => exact h
  | cons a l ih => exact ih (fun w b hb => hf w b (.tail _ hb)) (hf w a (.head _) h)

theorem Kept.addRecvTransceiver (hk : Kept s e I) {w : WebRTC} (h : I w) (hadds : s.Adds e peerId)
    (kindList : List Kind) : I (w.addRecvTransceiver peerId kindList) := by
  unfold WebRTC.addRecvTransceiver
  split
  · exact Kept.foldl (fun w k _ hw => hk.addRecvOne w peerId k hadds hw) h
  · exact h

theorem Kept.markTransceiverInactive (hk : Kept s (.peerLeft peerId) I) {w : WebRTC} (h : I w) :
    I (w.markTransceiverInactive peerId) := by
  unfold WebRTC.markTransceiverInactive
  split
  · exact Kept.foldl (fun w t _ hw => hk.markOne w peerId t rfl hw) h
  · exact h

theorem Kept.runRenegotiateQueue (hk : Kept s e I) (n : Nat) {t : Page} (h : I t.rtc) :
    I (t.runRenegotiateQueue n).rtc := by
  induction n with
  | zero => exact hk.flags t.rtc _ _ _ _ _ h
  | succ n ih =>
    rw [Page.runRenegotiateQueue]
    split
    · exact ih
    · exact hk.flags t.rtc _ _ _ _ _ h

theorem Kept.renegotiate (hk : Kept s e I) {t : Page} (h : I t.rtc) : I t.renegotiate.rtc := by
  unfold Page.renegotiate
  dsimp only
  split
  · exact hk.flags t.rtc _ _ _ _ _ h
  · exact hk.runRenegotiateQueue _ h

theorem Kept.afterInit (hk : Kept s e I) {t : Page} (h : I t.rtc) {existing : List String}
    (hadds : s.initReturns e = existing) : I (t.afterInit existing).rtc := by
  unfold Page.afterInit
  split
  · exact h
  · have hadded : I (existing.foldl (fun w p => w.addRecvTransceiver p WebRTC.both) t.rtc) :=
      Kept.foldl (I := I) (fun _ p hp hw =>
        hk.addRecvTransceiver hw (.inr (by rw [hadds]; exact hp)) WebRTC.both) h
    exact hk.renegotiate (t := { t with rtc := _ }) hadded

theorem Kept.throws (hk : Kept s e I) {t : Page} (h : I t.rtc) (i : Nat) (caller : Caller) :
    I (t.throws i caller).rtc := by
  cases caller with
  | run => exact hk.flags t.rtc _ _ _ _ _ h
  | init | iceRestart => exact h

theorem Kept.resolve (hk : Kept s e I) {t : Page} (h : I t.rtc) (i : Nat)
    (hadds : ∀ l, t.frames i = some ⟨.init l, .answer⟩ → s.initReturns e = l) :
    I (t.resolve i).rtc := by
  unfold Page.resolve
  split
  · rename_i caller hf
    cases caller with
    | init existing => exact hk.afterInit (t := t.setFrame i none) h (hadds existing hf)
    | run => exact hk.runRenegotiateQueue _ (hk.flags t.rtc _ _ _ _ _ h)
    | iceRestart => exact h
  · exact h

/-- **What the functions keep, the step keeps.** -/
theorem Kept.step (hk : Kept s e I) (h : I s.rtc) : I (s.step e).rtc := by
  cases e with
  | joined existing =>
    dsimp only [Page.step]
    split
    · exact h
    · exact hk.pc s.rtc existing rfl h
  | addRecvTransceiver peerId kindList =>
    exact hk.addRecvTransceiver h (.inl ⟨kindList, rfl⟩) kindList
  | renegotiate => exact hk.renegotiate h
  | peerLeft peerId => exact hk.renegotiate (hk.markTransceiverInactive h)
  | cameraOn =>
    dsimp only [Page.step]
    split
    · split
      · exact hk.renegotiate (t := { s with rtc := _ }) (hk.enableCamera _ h)
      · exact hk.enableCamera _ h
    · exact h
  | cameraOff =>
    dsimp only [Page.step]
    split
    · exact hk.renegotiate (hk.disableCamera _ h)
    · exact h
  | iceRestart =>
    dsimp only [Page.step]
    split
    · exact h
    · exact h
  | userMedia i granted =>
    dsimp only [Page.step]
    split
    · cases granted with
      | true =>
        have hstream : I { s.rtc with localStream := true } := hk.flags s.rtc _ _ _ _ _ h
        exact hk.addTrack _ i rfl rfl hstream
      | false => exact h
    · exact h
  | offerCreated i =>
    dsimp only [Page.step]
    split
    · exact h
    · exact h
  | described i =>
    dsimp only [Page.step]
    split
    · rename_i caller o hf
      have hset : I (s.rtc.setLocalDescription o) := hk.setLocalDescription _ i caller o hf rfl h
      cases caller with
      | init existing =>
        dsimp only [offerDescribed]
        split
        · exact hk.flags (s.rtc.setLocalDescription o) _ _ _ _ _ hset
        · rename_i haudio
          refine hk.afterInit (t := setFrame { s with rtc := _ } i none) hset ?_
          simp only [initReturns, hf, haudio, if_false, Bool.false_eq_true]
      | run =>
        exact hk.flags _ _ _ _ _ _ (hk.takePending _ i o rfl hf rfl hset)
      | iceRestart => exact hk.flags (s.rtc.setLocalDescription o) _ _ _ _ _ hset
    · exact h
  | rejected i =>
    dsimp only [Page.step]
    split
    · exact hk.throws h i _
    · exact hk.throws h i _
    · exact h
  | answer =>
    dsimp only [Page.step]
    split
    · exact h
    · exact h
  | error => exact h
  | remoteDescribed =>
    dsimp only [Page.step]
    split
    · exact h
    · rename_i hans
      split
      · exact h
      · rename_i hres
        have hset : I { s.rtc with answerResolver := none } := hk.flags s.rtc _ _ _ _ _ h
        refine hk.resolve (t := { s with rtc := _, answering := _, resolved := _ }) hset _ ?_
        intro l hf
        replace hf : s.frames _ = some ⟨.init l, .answer⟩ := hf
        simp only [initReturns, hans, hres, hf]

/-! ## Mids that are handed on -/

theorem described_of_inTime (hc : s.Calls) (htime : s.InTime (.described i))
    (hf : s.frames i = some ⟨.run, .setLocalDescription o⟩) :
    (s.rtc.setLocalDescription o).Described := by
  intro p hp
  rw [WebRTC.midOf_setLocalDescription _ (hc.covered i .run o hf), if_pos (htime o hf p hp)]

theorem kept_oneUse (hc : s.Calls) (htime : s.InTime e) : Kept s e OneUse where
  pc w _ _ h := h.frame (.of_same rfl) (.refl _) (.of_eq rfl)
  flags w _ _ _ _ _ h := h.frame (.of_same rfl) (.refl _) (.of_eq rfl)
  addRecvOne w peerId k _ h := h.addRecvOne peerId k
  markOne w peerId t _ h := h.markOne peerId t
  addTrack w _ _ _ h := by
    refine h.frame (WebRTC.extends_addTrack w) ?_ (.of_eq ?_)
    · unfold WebRTC.addTrack
      split <;> exact .refl _
    · unfold WebRTC.addTrack
      split <;> rfl
  enableCamera w h := by
    refine h.frame (WebRTC.extends_enableCamera w) ?_ (.of_eq w.midPeerMap_enableCamera)
    rw [w.waiting_enableCamera]
  disableCamera w h := by
    refine h.frame (WebRTC.extends_disableCamera w) ?_ (.of_eq ?_)
    · unfold WebRTC.disableCamera
      cases w.videoSender <;> exact .refl _
    · unfold WebRTC.disableCamera
      cases w.videoSender <;> rfl
  setLocalDescription w i caller o hf hw h := by
    subst hw
    exact h.frame (WebRTC.extends_setLocalDescription _ (hc.covered i caller o hf) hc.ownMids)
      (.refl _) (.of_eq rfl)
  takePending w i o he hf hw h := by
    subst he hw
    exact h.takePending (described_of_inTime hc htime hf)

theorem oneUse_step (h : s.rtc.OneUse) (hc : s.Calls) (htime : s.InTime e) :
    (s.step e).rtc.OneUse := (kept_oneUse hc htime).step h

/-! ### The offers of a step -/

/-- The offers that the step sends. -/
def newOffers (s : Page) (e : Event) : List Payload := (s.step e).sent.drop s.sent.length

/-- The `recv_mids` that a call makes of the described offer. -/
def entries (w : WebRTC) : Caller → List RecvMidEntry
  | .init _ => []
  | .run => w.takePending.2
  | .iceRestart => w.boundMids

theorem sent_runRenegotiateQueue (n : Nat) (s : Page) : (s.runRenegotiateQueue n).sent = s.sent := by
  induction n with
  | zero => rfl
  | succ n ih =>
    rw [runRenegotiateQueue]
    split
    · exact ih
    · rfl

theorem sent_renegotiate (s : Page) : s.renegotiate.sent = s.sent := by
  unfold renegotiate
  dsimp only
  split
  · rfl
  · exact sent_runRenegotiateQueue _ s

theorem sent_afterInit (s : Page) (existing : List String) :
    (s.afterInit existing).sent = s.sent := by
  unfold afterInit
  split
  · rfl
  · exact sent_renegotiate _

theorem sent_throws (s : Page) (i : Nat) (caller : Caller) : (s.throws i caller).sent = s.sent := by
  cases caller <;> rfl

theorem sent_resolve (s : Page) (i : Nat) : (s.resolve i).sent = s.sent := by
  unfold resolve
  split
  · rename_i caller _
    cases caller with
    | init existing => exact sent_afterInit _ existing
    | run => exact sent_runRenegotiateQueue _ _
    | iceRestart => rfl
  · rfl

theorem sent_step (s : Page) (e : Event) : (s.step e).sent = s.sent ∨
    ∃ i caller o, e = .described i ∧ s.frames i = some ⟨caller, .setLocalDescription o⟩ ∧
      (s.step e).sent = s.sent ++ [⟨caller, o, entries (s.rtc.setLocalDescription o) caller⟩] := by
  have hmoves := moves s e
  generalize s.step e = t at hmoves ⊢
  cases hmoves with
  | stays | grows | camera | begins | goesOn | answer | error | forgets => exact .inl rfl
  | renegotiates => exact .inl (sent_renegotiate _)
  | rejected => exact .inl (sent_throws s _ _)
  | resolves => exact .inl (sent_resolve _ _)
  | @described i caller o hf =>
    cases caller with
    | run => exact .inr ⟨i, .run, o, rfl, hf, rfl⟩
    | iceRestart => exact .inr ⟨i, .iceRestart, o, rfl, hf, rfl⟩
    | init existing =>
      dsimp only [offerDescribed]
      split
      · exact .inr ⟨i, .init existing, o, rfl, hf, rfl⟩
      · exact .inl (sent_afterInit _ existing)

theorem mem_newOffers {x : Payload} (hx : x ∈ s.newOffers e) :
    ∃ i caller o, e = .described i ∧ s.frames i = some ⟨caller, .setLocalDescription o⟩ ∧
      x.recvMids = entries (s.rtc.setLocalDescription o) caller := by
  unfold newOffers at hx
  rcases sent_step s e with hsent | ⟨i, caller, o, he, hf, hsent⟩
  · rw [hsent, List.drop_length] at hx
    cases hx
  · rw [hsent, List.drop_left, List.mem_singleton] at hx
    exact ⟨i, caller, o, he, hf, by rw [hx]⟩

/-! ### What an entry says -/

/-- The entry says what the WebRTC object has under its mid. -/
def Holds (w : WebRTC) (x : RecvMidEntry) : Prop := ∃ t, x.mid = some t ∧
  w.midPeerMap (some t) = some x.publisherPeerId ∧ w.kindOf t = some x.kind

theorem holds_run {w : WebRTC} (h : w.OneUse) (hd : w.Described) {x : RecvMidEntry}
    (hx : x ∈ w.takePending.2) : Holds w.takePending.1 x := by
  obtain ⟨p, hp, rfl⟩ := List.mem_map.1 hx
  refine ⟨p.transceiver, hd p hp, WebRTC.takePending_of_mem h hd hp, ?_⟩
  exact h.kinds (p.transceiver, p.kind) (List.mem_append_left _ (List.mem_map_of_mem hp))

theorem holds_iceRestart {w : WebRTC} (h : w.OneUse) {x : RecvMidEntry} (hx : x ∈ w.boundMids) :
    Holds w x ∧ x.mid = some x.transceiver := by
  obtain ⟨t, -, hx⟩ := List.mem_filterMap.1 hx
  obtain ⟨tc, htc, hx⟩ := Option.bind_eq_some_iff.1 hx
  obtain ⟨mid, hmid, hx⟩ := Option.bind_eq_some_iff.1 hx
  obtain ⟨peerId, hpeer, rfl⟩ := Option.map_eq_some_iff.1 hx
  obtain rfl : mid = t := h.ownMids t mid (by rw [WebRTC.midOf, htc]; exact hmid)
  exact ⟨⟨mid, rfl, hpeer, by rw [WebRTC.kindOf, htc]; rfl⟩, rfl⟩

theorem boundMids_sorted (w : WebRTC) :
    (w.boundMids.map (·.transceiver)).Sublist (List.range w.transceivers.length) := by
  unfold WebRTC.boundMids
  generalize List.range w.transceivers.length = l
  induction l with
  | nil => exact .slnil
  | cons t l ih =>
    rw [List.filterMap_cons]
    split
    · exact ih.cons t
    · rename_i x hx
      obtain ⟨tc, -, hx⟩ := Option.bind_eq_some_iff.1 hx
      obtain ⟨mid, -, hx⟩ := Option.bind_eq_some_iff.1 hx
      obtain ⟨peerId, -, rfl⟩ := Option.map_eq_some_iff.1 hx
      exact ih.cons_cons t

theorem nodup_entries {w : WebRTC} (h : w.OneUse) {caller : Caller}
    (hd : caller = .run → w.Described) : ((entries w caller).map (·.mid)).Nodup := by
  cases caller with
  | init => exact List.nodup_nil
  | run =>
    rw [entries, WebRTC.takePending, List.map_map]
    exact h.keys_nodup (hd rfl)
  | iceRestart =>
    have hmids : (entries w .iceRestart).map (·.mid) =
        (w.boundMids.map (·.transceiver)).map some := by
      rw [List.map_map]
      exact List.map_congr_left fun x hx => (holds_iceRestart h hx).2
    rw [hmids]
    exact ((boundMids_sorted w).nodup List.nodup_range).map (Option.some_injective _)

section
variable (hc : s.Calls) (h : s.rtc.OneUse) (htime : s.InTime e) {x : Payload}
include hc h htime

theorem nodup_newOffers (hx : x ∈ s.newOffers e) : (x.recvMids.map (·.mid)).Nodup := by
  obtain ⟨i, caller, o, rfl, hf, hx⟩ := mem_newOffers hx
  rw [hx]
  refine nodup_entries ((kept_oneUse hc htime).setLocalDescription _ i caller o hf rfl h) ?_
  rintro rfl
  exact described_of_inTime hc htime hf

theorem holds_newOffers (hx : x ∈ s.newOffers e) {y : RecvMidEntry} (hy : y ∈ x.recvMids) :
    Holds (s.step e).rtc y := by
  obtain ⟨i, caller, o, rfl, hf, hx⟩ := mem_newOffers hx
  rw [hx] at hy
  have hset := (kept_oneUse hc htime).setLocalDescription _ i caller o hf rfl h
  cases caller with
  | init => cases hy
  | run =>
    have hholds := holds_run hset (described_of_inTime hc htime hf) hy
    simp only [step, hf]
    exact hholds
  | iceRestart =>
    simp only [step, hf]
    exact (holds_iceRestart hset hy).1

end

/-! ### Until its peer has left -/

theorem midPeerMap_addRecvOne (w : WebRTC) (peerId : String) (k : Kind) :
    (w.addRecvOne peerId k).midPeerMap = w.midPeerMap := by
  unfold WebRTC.addRecvOne
  split <;> rfl

theorem kept_bound (hc : s.Calls) (htime : s.InTime e) {t : Nat} (hne : e ≠ .peerLeft peerId) :
    Kept s e fun w => w.OneUse ∧ w.midPeerMap (some t) = some peerId := by
  have hk := kept_oneUse hc htime
  constructor
  · exact fun w l he h => ⟨hk.pc w l he h.1, h.2⟩
  · exact fun w _ _ _ _ _ h => ⟨hk.flags w _ _ _ _ _ h.1, h.2⟩
  · exact fun w p k ha h =>
      ⟨hk.addRecvOne w p k ha h.1, by rw [midPeerMap_addRecvOne]; exact h.2⟩
  · intro w p t' he h
    refine ⟨hk.markOne w p t' he h.1, ?_⟩
    unfold WebRTC.markOne
    split
    · exact h.2
    · split
      · rename_i tc _ hm
        have hother : some t ≠ tc.mid := by
          intro heq
          rw [← heq, h.2] at hm
          exact hne (by rw [he, Option.some.inj hm])
        exact (Function.update_of_ne hother ..).trans h.2
      · exact h.2
  · intro w i he hw h
    refine ⟨hk.addTrack w i he hw h.1, ?_⟩
    unfold WebRTC.addTrack
    split <;> exact h.2
  · exact fun w h => ⟨hk.enableCamera w h.1, by rw [w.midPeerMap_enableCamera]; exact h.2⟩
  · intro w h
    refine ⟨hk.disableCamera w h.1, ?_⟩
    unfold WebRTC.disableCamera
    cases w.videoSender <;> exact h.2
  · exact fun w i caller o hf hw h => ⟨hk.setLocalDescription w i caller o hf hw h.1, h.2⟩
  · intro w i o he hf hw h
    refine ⟨hk.takePending w i o he hf hw h.1, ?_⟩
    subst he hw
    rw [WebRTC.takePending_of_not_mem (described_of_inTime hc htime hf)]
    · exact h.2
    · intro p hp heq
      have hfree := h.1.free (p.transceiver, p.kind)
        (List.mem_append_left _ (List.mem_map_of_mem hp))
      rw [← heq, h.2] at hfree
      cases hfree

theorem kept_kind (hc : s.Calls) {t : Nat} {k : Kind} :
    Kept s e fun w => w.kindOf t = some k where
  pc _ _ _ h := h
  flags _ _ _ _ _ _ h := h
  addRecvOne w peerId k' _ h := by
    unfold WebRTC.addRecvOne
    split
    · exact (WebRTC.extends_setDirection _ _ _).kindOf t k h
    · exact (WebRTC.extends_addTransceiver _ _ _).kindOf t k h
  markOne w peerId t' _ h := by
    unfold WebRTC.markOne
    split
    · exact h
    · split
      · exact (WebRTC.extends_setDirection w t' .inactive).kindOf t k h
      · exact h
  addTrack w _ _ _ h := (WebRTC.extends_addTrack w).kindOf t k h
  enableCamera w h := (WebRTC.extends_enableCamera w).kindOf t k h
  disableCamera w h := (WebRTC.extends_disableCamera w).kindOf t k h
  setLocalDescription w i caller o hf hw h := by
    subst hw
    exact (WebRTC.extends_setLocalDescription _ (hc.covered i caller o hf) hc.ownMids).kindOf t k h
  takePending _ _ _ _ _ _ h := h

/-! ### Runs -/

theorem oneUse_exec (ops : List Event) (h : Meets step InTime {} ops) :
    (exec step {} ops).Calls ∧ (exec step {} ops).rtc.OneUse :=
  Runs.exec_inv (I := fun s : Page => s.Calls ∧ s.rtc.OneUse)
    (fun _ e hs htime => ⟨hs.1.step e, oneUse_step hs.2 hs.1 htime⟩)
    ⟨calls_start, WebRTC.oneUse_start⟩ h

/-- While the peer does not leave, the mid is its own. -/
theorem bound_exec {t : Nat} {bs : List Event} (hc : s.Calls)
    (h : s.rtc.OneUse ∧ s.rtc.midPeerMap (some t) = some peerId) (hbs : Meets step InTime s bs)
    (hne : .peerLeft peerId ∉ bs) : (exec step s bs).rtc.midPeerMap (some t) = some peerId := by
  induction bs generalizing s with
  | nil => exact h.2
  | cons e bs ih =>
    rw [List.mem_cons, not_or] at hne
    exact ih (hc.step e) ((kept_bound hc hbs.1 (Ne.symm hne.1)).step h) hbs.2 hne.2

theorem kind_exec {t : Nat} {k : Kind} (bs : List Event) (hc : s.Calls)
    (h : s.rtc.kindOf t = some k) : (exec step s bs).rtc.kindOf t = some k :=
  (Runs.exec_inv' (I := fun s : Page => s.Calls ∧ s.rtc.kindOf t = some k)
    (fun _ e hs => ⟨hs.1.step e, (kept_kind hs.1).step hs.2⟩) bs ⟨hc, h⟩).2

/-- What an offer says of a mid still stands when a later one names it, unless the peer has left. -/
theorem handed_on {as bs : List Event} {a b : Event}
    (h : Meets step InTime {} (as ++ a :: bs ++ [b])) {x y : Payload}
    (hx : x ∈ (exec step {} as).newOffers a) (hy : y ∈ (exec step {} (as ++ a :: bs)).newOffers b)
    {e e' : RecvMidEntry} (he : e ∈ x.recvMids) (he' : e' ∈ y.recvMids) (hmid : e'.mid = e.mid) :
    e'.kind = e.kind ∧
      (e'.publisherPeerId = e.publisherPeerId ∨ .peerLeft e.publisherPeerId ∈ bs) := by
  obtain ⟨hall, hb⟩ := Runs.meets_append.1 h
  obtain ⟨has, hbs⟩ := Runs.meets_append.1 hall
  obtain ⟨hc, huse⟩ := oneUse_exec as has
  obtain ⟨hc', huse'⟩ := oneUse_exec (as ++ a :: bs) hall
  obtain ⟨t, ht, hpeer, hkind⟩ := holds_newOffers hc huse hbs.1 hx he
  obtain ⟨t', ht', hpeer', hkind'⟩ := holds_newOffers hc' huse' hb.1 hy he'
  obtain rfl : t' = t := by rw [ht, ht'] at hmid; exact Option.some.inj hmid
  rw [Runs.exec_append, Runs.exec_cons] at hpeer' hkind' hc' huse' hb
  have hstep := hc.step a
  constructor
  · have hlater := (kept_kind hc').step (e := b) (kind_exec bs hstep hkind)
    exact Option.some.inj (hkind'.symm.trans hlater)
  · by_cases hleft : .peerLeft e.publisherPeerId ∈ bs
    · exact .inr hleft
    · left
      have hbound := bound_exec hstep ⟨oneUse_step huse hc hbs.1, hpeer⟩ hbs.2 hleft
      obtain ⟨i, caller, o, rfl, hf, -⟩ := mem_newOffers hy
      have hlater := (kept_bound hc' hb.1 (by nofun)).step ⟨huse', hbound⟩
      exact Option.some.inj (hpeer'.symm.trans hlater.2)

/-- **A mid is handed on only when its peer has left.** Every offer names each mid once. When a
later offer names a mid again, it is for the same kind, and for the same peer or because the page
has handled the `peer-left` of the first in between. -/
theorem mids_handed_on (ops : List Event) (h : Meets step InTime {} ops) :
    (∀ as a more, ops = as ++ a :: more → ∀ x ∈ (exec step {} as).newOffers a,
      (x.recvMids.map (·.mid)).Nodup) ∧
    ∀ as a bs b more, ops = as ++ a :: bs ++ b :: more →
      ∀ x ∈ (exec step {} as).newOffers a, ∀ y ∈ (exec step {} (as ++ a :: bs)).newOffers b,
        ∀ e ∈ x.recvMids, ∀ e' ∈ y.recvMids, e'.mid = e.mid → e'.kind = e.kind ∧
          (e'.publisherPeerId = e.publisherPeerId ∨ .peerLeft e.publisherPeerId ∈ bs) := by
  constructor
  · rintro as a more rfl x hx
    obtain ⟨has, ha⟩ := Runs.meets_append.1 h
    obtain ⟨hc, huse⟩ := oneUse_exec as has
    exact nodup_newOffers hc huse ha.1 hx
  · rintro as a bs b more rfl x hx y hy e he e' he' hmid
    rw [List.append_cons _ b more] at h
    exact handed_on (Runs.meets_append.1 h).1 hx hy he he' hmid

/-- Peer b comes, and leaves when it has been asked for; peer c comes. -/
def comeAfter : List Event :=
  [.peerLeft "b"] ++ Event.renegotiateMessage "c" ++ [.answer, .remoteDescribed, .offerCreated 2]

/-- Peer b comes, and its entries are ready to be sent. -/
def comeFirst : List Event := joinAlone ++ Event.renegotiateMessage "b" ++ [.offerCreated 1]

/-- What the page asks for: `video` is transceiver 1, `audio` transceiver 2. -/
def askFor (peerId : String) : Payload :=
  ⟨.run, ⟨3⟩, [⟨1, some 1, peerId, .video, true⟩, ⟨2, some 2, peerId, .audio, false⟩]⟩

theorem mids_handed_on_left : ((askFor "c").recvMids.map (·.mid)).Nodup ∧
    ∀ e ∈ (askFor "b").recvMids, ∀ e' ∈ (askFor "c").recvMids, e'.mid = e.mid →
      e'.kind = e.kind ∧ (e'.publisherPeerId = e.publisherPeerId ∨
        .peerLeft e.publisherPeerId ∈ comeAfter) := by
  obtain ⟨hnodup, hkept⟩ :=
    mids_handed_on (comeFirst ++ .described 1 :: comeAfter ++ [.described 2]) (by decide)
  exact ⟨hnodup (comeFirst ++ .described 1 :: comeAfter) (.described 2) [] rfl (askFor "c")
      (by decide),
    hkept comeFirst (.described 1) comeAfter (.described 2) [] rfl (askFor "b") (by decide)
      (askFor "c") (by decide)⟩

end Page

end Namecon
