import Namecon.Web.EventLoop

/-!
# The calls of a page

`Grows` is what the synchronous functions do to the WebRTC object: mids stay as they are, and only
`addRecvTransceiver` adds to the pending transceivers. `Moves` lists what a step can do (`moves`),
and what is true of all steps is proved by cases on it. `Calls` is the invariant of the event loop: at
most one iteration of `_runRenegotiateQueue` waits, it does so as long as `_renegotiating` is set
(`Calls.step`), and the mid of a transceiver is its number.
-/

namespace Namecon

open Function (update)

namespace WebRTC

variable {w w' w'' : WebRTC}

/-- What the synchronous functions leave as it is, and what they push. -/
structure Grows (w w' : WebRTC) : Prop where
  midOf : w'.midOf = w.midOf
  length : w.transceivers.length ≤ w'.transceivers.length
  renegotiating : w'.renegotiating = w.renegotiating
  queue : w'.renegotiateQueue = w.renegotiateQueue
  resolver : w'.answerResolver = w.answerResolver
  pushes : ∃ l, w'.pendingTransceivers = w.pendingTransceivers ++ l ∧ w'.pushed = w.pushed ++ l

theorem noPush (hpending : w'.pendingTransceivers = w.pendingTransceivers)
    (hpushed : w'.pushed = w.pushed) :
    ∃ l, w'.pendingTransceivers = w.pendingTransceivers ++ l ∧ w'.pushed = w.pushed ++ l :=
  ⟨[], by rw [hpending, List.append_nil], by rw [hpushed, List.append_nil]⟩

theorem Grows.refl (w : WebRTC) : Grows w w := ⟨rfl, le_rfl, rfl, rfl, rfl, noPush rfl rfl⟩

theorem Grows.trans (h : Grows w w') (h' : Grows w' w'') : Grows w w'' := by
  obtain ⟨l, hpending, hpushed⟩ := h.pushes
  obtain ⟨l', hpending', hpushed'⟩ := h'.pushes
  refine ⟨h'.midOf.trans h.midOf, h.length.trans h'.length,
    h'.renegotiating.trans h.renegotiating, h'.queue.trans h.queue,
    h'.resolver.trans h.resolver, l ++ l', ?_, ?_⟩
  · rw [hpending', hpending, List.append_assoc]
  · rw [hpushed', hpushed, List.append_assoc]

theorem Grows.foldl {α : Type} {f : WebRTC → α → WebRTC} (hf : ∀ w a, Grows w (f w a))
    (l : List α) (w : WebRTC) : Grows w (l.foldl f w) := by
  induction l generalizing w with
  | nil => exact .refl w
  | cons a l ih => exact (hf w a).trans (ih _)

/-- A change of the transceivers that leaves the mids. -/
theorem grows_transceivers {ts : List Transceiver}
    (hmid : ∀ t, ts[t]?.bind (·.mid) = w.midOf t) (hlen : w.transceivers.length ≤ ts.length) :
    Grows w { w with transceivers := ts } :=
  ⟨funext hmid, hlen, rfl, rfl, rfl, noPush rfl rfl⟩

theorem grows_modify (t : Nat) (f : Transceiver → Transceiver) (hf : ∀ tc, (f tc).mid = tc.mid) :
    Grows w { w with transceivers := w.transceivers.modify t f } := by
  refine grows_transceivers (fun t' => ?_) (List.length_modify ..).ge
  unfold midOf
  rw [List.getElem?_modify]
  cases w.transceivers[t']? with
  | none => rfl
  | some tc =>
    by_cases h : t = t'
    · simp [h, hf]
    · simp [h]

theorem grows_setDirection (w : WebRTC) (t : Nat) (d : Direction) : Grows w (w.setDirection t d) :=
  grows_modify t _ fun _ => rfl

theorem grows_addTransceiver (w : WebRTC) (kind : Kind) (d : Direction) :
    Grows w (w.addTransceiver kind d) := by
  refine grows_transceivers (fun t => ?_) ?_
  · unfold midOf
    rw [List.getElem?_append]
    split
    · rfl
    · rename_i ht
      rw [List.getElem?_eq_none (Nat.le_of_not_lt ht)]
      cases t - w.transceivers.length <;> rfl
  · rw [List.length_append]
    exact Nat.le_add_right _ _

theorem grows_addTrack (w : WebRTC) : Grows w w.addTrack := by
  unfold addTrack
  split
  · exact grows_modify _ _ fun _ => rfl
  · exact grows_addTransceiver w _ _

theorem addTrack_pending (w : WebRTC) : w.addTrack.pendingTransceivers = w.pendingTransceivers := by
  unfold addTrack
  split <;> rfl

theorem grows_pushPending (w : WebRTC) (p : Pending) : Grows w (w.pushPending p) :=
  ⟨rfl, le_rfl, rfl, rfl, rfl, [p], rfl, rfl⟩

theorem grows_addRecvOne (w : WebRTC) (peerId : String) (k : Kind) :
    Grows w (w.addRecvOne peerId k) := by
  unfold addRecvOne
  split
  · have hpool : Grows w { w with inactivePool := w.inactivePool.eraseP fun p => p.kind = k } :=
      ⟨rfl, le_rfl, rfl, rfl, rfl, noPush rfl rfl⟩
    exact (hpool.trans (grows_setDirection _ _ _)).trans (grows_pushPending _ _)
  · exact (grows_addTransceiver w _ _).trans (grows_pushPending _ _)

theorem grows_addRecvTransceiver (w : WebRTC) (peerId : String) (kindList : List Kind) :
    Grows w (w.addRecvTransceiver peerId kindList) := by
  unfold addRecvTransceiver
  split
  · exact .foldl (fun w k => grows_addRecvOne w peerId k) _ _
  · exact .refl w

theorem grows_existing (w : WebRTC) (existing : List String) :
    Grows w (existing.foldl (fun w p => w.addRecvTransceiver p both) w) :=
  .foldl (fun w p => grows_addRecvTransceiver w p both) _ _

theorem grows_markOne (peerId : String) (w : WebRTC) (t : Nat) : Grows w (markOne peerId w t) := by
  unfold markOne
  split
  · exact .refl w
  · split
    · obtain ⟨hmid, hlen, -⟩ := grows_setDirection w t .inactive
      exact ⟨hmid, hlen, rfl, rfl, rfl, noPush rfl rfl⟩
    · exact .refl w

theorem grows_markTransceiverInactive (w : WebRTC) (peerId : String) :
    Grows w (w.markTransceiverInactive peerId) := by
  unfold markTransceiverInactive
  split
  · exact .foldl (grows_markOne peerId) _ _
  · exact .refl w

theorem grows_enableCamera (w : WebRTC) : Grows w w.enableCamera := by
  obtain ⟨hmid, hlen, -⟩ := grows_addTransceiver w .video .sendrecv
  unfold enableCamera
  split <;> exact ⟨hmid, hlen, rfl, rfl, rfl, noPush rfl rfl⟩

theorem enableCamera_pending (w : WebRTC) :
    w.enableCamera.pendingTransceivers = w.pendingTransceivers := by
  unfold enableCamera
  split <;> rfl

theorem grows_disableCamera (w : WebRTC) : Grows w w.disableCamera := by
  unfold disableCamera
  cases w.videoSender with
  | none => exact ⟨rfl, le_rfl, rfl, rfl, rfl, noPush rfl rfl⟩
  | some t =>
    obtain ⟨hmid, hlen, -⟩ := grows_setDirection w t .inactive
    exact ⟨hmid, hlen, rfl, rfl, rfl, noPush rfl rfl⟩

/-- `init` makes the peer connection. -/
theorem grows_pc (w : WebRTC) : Grows w { w with pc := true } :=
  ⟨rfl, le_rfl, rfl, rfl, rfl, noPush rfl rfl⟩

/-- `init` has the microphone. -/
theorem grows_microphone (w : WebRTC) : Grows w { w with localStream := true }.addTrack := by
  have hstream : Grows w { w with localStream := true } :=
    ⟨rfl, le_rfl, rfl, rfl, rfl, noPush rfl rfl⟩
  exact hstream.trans (grows_addTrack _)

theorem midOf_setLocalDescription (w : WebRTC) {o : Offer} (ho : o.sections ≤ w.transceivers.length)
    (t : Nat) : (w.setLocalDescription o).midOf t =
      if t < o.sections then some t else w.midOf t := by
  unfold setLocalDescription midOf
  dsimp only
  rw [List.getElem?_mapIdx]
  by_cases ht : t < o.sections
  · rw [if_pos ht, List.getElem?_eq_getElem (ht.trans_le ho)]
    simp [ht]
  · rw [if_neg ht]
    simp only [ht, if_false]
    cases w.transceivers[t]? <;> rfl

/-- A mid is the number of its transceiver. -/
def OwnMids (w : WebRTC) : Prop := ∀ t m, w.midOf t = some m → m = t

theorem OwnMids.grows (h : w.OwnMids) (hg : Grows w w') : w'.OwnMids := fun t m hm =>
  h t m ((congrFun hg.midOf t).symm.trans hm)

theorem OwnMids.setLocalDescription (h : w.OwnMids) {o : Offer}
    (ho : o.sections ≤ w.transceivers.length) : (w.setLocalDescription o).OwnMids := by
  intro t m hm
  rw [midOf_setLocalDescription w ho] at hm
  split at hm
  · exact (Option.some.inj hm).symm
  · exact h t m hm

end WebRTC

namespace Page

open WebRTC (Grows OwnMids)

variable {s s' : Page} {i : Nat} {caller : Caller} {await : Await}

@[simp] theorem setFrame_self (f : Option CallFrame) : (s.setFrame i f).frames i = f :=
  Function.update_self ..

theorem setFrame_ne {j : Nat} (h : j ≠ i) (f : Option CallFrame) :
    (s.setFrame i f).frames j = s.frames j := Function.update_of_ne h ..

theorem setFrame_none {j : Nat} (h : s.frames j = none) : (s.setFrame i none).frames j = none := by
  by_cases hj : j = i
  · rw [hj, setFrame_self]
  · rw [setFrame_ne hj, h]

@[simp] theorem call_self (f : CallFrame) : (s.call f).frames s.nextFrame = some f :=
  Function.update_self ..

theorem call_ne {j : Nat} (h : j ≠ s.nextFrame) (f : CallFrame) :
    (s.call f).frames j = s.frames j :=
  Function.update_of_ne h ..

/-! ## What a step can do -/

/-- The steps of the page by what becomes of its calls. -/
inductive Moves (s : Page) : Event → Page → Prop
  | stays {e} : Moves s e s
  | grows {peerId kindList w} (hg : Grows s.rtc w) :
    Moves s (.addRecvTransceiver peerId kindList) { s with rtc := w }
  -- the camera comes before the microphone
  | camera {w} (hg : Grows s.rtc w)
      (hpending : w.pendingTransceivers = s.rtc.pendingTransceivers) :
    Moves s .cameraOn { s with rtc := w }
  | renegotiates {e w} (hg : Grows s.rtc w) : Moves s e (renegotiate { s with rtc := w })
  -- `init` and `_doIceRestart` begin
  | begins {e w} {caller : Caller} {await : Await} (hg : Grows s.rtc w)
      (hpending : w.pendingTransceivers = s.rtc.pendingTransceivers) (hc : caller ≠ .run)
      (ha : await ≠ .answer) (hoffer : ∀ o, await ≠ .setLocalDescription o) :
    Moves s e (call { s with rtc := w } ⟨caller, await⟩)
  -- a call goes on to its next `await`, its offer not sent yet
  | goesOn {e w} {i : Nat} {caller : Caller} {await b : Await}
      (hf : s.frames i = some ⟨caller, await⟩) (ha : await ≠ .answer)
      (hg : Grows s.rtc w) (hpending : w.pendingTransceivers = s.rtc.pendingTransceivers)
      (hb : b ≠ .answer)
      (hoffer : ∀ o, b = .setLocalDescription o → o.sections ≤ s.rtc.transceivers.length) :
    Moves s e (setFrame { s with rtc := w } i (some ⟨caller, b⟩))
  | described {i : Nat} {caller : Caller} {o}
      (hf : s.frames i = some ⟨caller, .setLocalDescription o⟩) :
    Moves s (.described i)
      (offerDescribed { s with rtc := s.rtc.setLocalDescription o } i o caller)
  | rejected {i : Nat} {caller : Caller} {await : Await}
      (hf : s.frames i = some ⟨caller, await⟩) (ha : await ≠ .answer) :
    Moves s (.rejected i) (s.throws i caller)
  -- the server replies
  | answer {i : Nat} {rest} (hu : s.unanswered = i :: rest) :
    Moves s .answer { s with unanswered := rest, answering := s.answering ++ [i] }
  | error : Moves s .error { s with unanswered := s.unanswered.tail }
  -- `setAnswer` goes on
  | forgets {j rest} (hans : s.answering = j :: rest) (hres : s.rtc.answerResolver = none) :
    Moves s .remoteDescribed { s with answering := rest }
  | resolves {i j : Nat} {rest} (hans : s.answering = j :: rest)
      (hres : s.rtc.answerResolver = some i) :
    Moves s .remoteDescribed (resolve { s with
      rtc := { s.rtc with answerResolver := none }
      answering := rest
      resolved := s.resolved ++ [(i, j)] } i)

theorem moves (s : Page) (e : Event) : Moves s e (s.step e) := by
  cases e with
  | joined existing =>
    dsimp only [step]
    split
    · exact .stays
    · exact .begins (WebRTC.grows_pc s.rtc) rfl (fun hc => by cases hc) (fun ha => by cases ha)
        fun _ ha => by cases ha
  | addRecvTransceiver p ks => exact .grows (WebRTC.grows_addRecvTransceiver s.rtc p ks)
  | renegotiate => exact .renegotiates (.refl s.rtc)
  | peerLeft p => exact .renegotiates (WebRTC.grows_markTransceiverInactive s.rtc p)
  | cameraOn =>
    dsimp only [step]
    split
    · split
      · exact .renegotiates (WebRTC.grows_enableCamera s.rtc)
      · exact .camera (WebRTC.grows_enableCamera s.rtc) s.rtc.enableCamera_pending
    · exact .stays
  | cameraOff =>
    dsimp only [step]
    split
    · exact .renegotiates (WebRTC.grows_disableCamera s.rtc)
    · exact .stays
  | iceRestart =>
    dsimp only [step]
    split
    · exact .begins (.refl s.rtc) rfl (fun hc => by cases hc) (fun ha => by cases ha)
        fun _ ha => by cases ha
    · exact .stays
  | userMedia i granted =>
    dsimp only [step]
    split
    · rename_i caller hf
      have hg : Grows s.rtc
          (if granted then { s.rtc with localStream := true }.addTrack else s.rtc) := by
        cases granted with
        | true => exact WebRTC.grows_microphone s.rtc
        | false => exact .refl _
      have hpending : (if granted then { s.rtc with localStream := true }.addTrack
          else s.rtc).pendingTransceivers = s.rtc.pendingTransceivers := by
        cases granted with
        | true => exact WebRTC.addTrack_pending _
        | false => rfl
      exact .goesOn hf (fun ha => by cases ha) hg hpending (fun hb => by cases hb)
        fun _ hb => by cases hb
    · exact .stays
  | offerCreated i =>
    dsimp only [step]
    split
    · rename_i caller hf
      refine .goesOn (w := s.rtc) hf (fun ha => by cases ha) (.refl s.rtc) rfl
        (fun hb => by cases hb) fun o ho => ?_
      cases ho
      exact le_rfl
    · exact .stays
  | described i =>
    dsimp only [step]
    split
    · rename_i caller o hf
      exact .described hf
    · exact .stays
  | rejected i =>
    dsimp only [step]
    split
    · rename_i caller hf
      exact .rejected hf fun ha => by cases ha
    · rename_i caller o hf
      exact .rejected hf fun ha => by cases ha
    · exact .stays
  | answer =>
    dsimp only [step]
    split
    · exact .stays
    · rename_i i rest hu
      exact .answer hu
  | error => exact .error
  | remoteDescribed =>
    dsimp only [step]
    cases hans : s.answering with
    | nil => exact .stays
    | cons j rest =>
      cases hres : s.rtc.answerResolver with
      | none => exact .forgets hans hres
      | some i => exact .resolves hans hres

/-! ## The invariant -/

/-- The call `i` is an iteration of `_runRenegotiateQueue`. -/
def InRun (s : Page) (i : Nat) : Prop := ∃ a, s.frames i = some ⟨.run, a⟩

/-- The invariant of the event loop. -/
structure Calls (s : Page) : Prop where
  fresh : ∀ i, s.nextFrame ≤ i → s.frames i = none
  one : ∀ i j, s.InRun i → s.InRun j → i = j
  flag : s.rtc.renegotiating = true ↔ ∃ i, s.InRun i
  covered : ∀ i c o, s.frames i = some ⟨c, .setLocalDescription o⟩ →
    o.sections ≤ s.rtc.transceivers.length
  ownMids : s.rtc.OwnMids

theorem calls_start : Calls {} where
  fresh _ _ := rfl
  one _ _ h := by obtain ⟨_, h⟩ := h; cases h
  flag := iff_of_false Bool.false_ne_true fun ⟨_, _, h⟩ => by cases h
  covered _ _ _ h := by cases h
  ownMids _ _ h := by cases h

theorem Calls.lt (h : s.Calls) {f : CallFrame} (hf : s.frames i = some f) : i < s.nextFrame := by
  by_contra hi
  rw [h.fresh i (Nat.le_of_not_lt hi)] at hf
  cases hf

/-- A change of one call, which may be a new one. -/
theorem Calls.set (h : s.Calls) {f : Option CallFrame} (hframes : s'.frames = update s.frames i f)
    (hi : i < s'.nextFrame) (hnext : s.nextFrame ≤ s'.nextFrame)
    (hone : ∀ a, f = some ⟨.run, a⟩ → ∀ j, s.InRun j → j = i)
    (hflag : s'.rtc.renegotiating = true ↔
      (∃ a, f = some ⟨.run, a⟩) ∨ ∃ j, j ≠ i ∧ s.InRun j)
    (hcovered : ∀ c o, f = some ⟨c, .setLocalDescription o⟩ →
      o.sections ≤ s'.rtc.transceivers.length)
    (hlen : s.rtc.transceivers.length ≤ s'.rtc.transceivers.length) (hmids : s'.rtc.OwnMids) :
    s'.Calls := by
  have hself : s'.frames i = f := by rw [hframes, Function.update_self]
  have hother : ∀ j, j ≠ i → s'.frames j = s.frames j := fun j hj => by
    rw [hframes, Function.update_of_ne hj]
  have hinRun : ∀ j, s'.InRun j ↔ (j = i ∧ ∃ a, f = some ⟨.run, a⟩) ∨ (j ≠ i ∧ s.InRun j) := by
    intro j
    by_cases hj : j = i
    · subst hj
      simp [InRun, hself]
    · simp [InRun, hother j hj, hj]
  constructor
  · intro j hj
    have hne : j ≠ i := by omega
    rw [hother j hne]
    exact h.fresh j (hnext.trans hj)
  · intro j k hj hk
    rcases (hinRun j).1 hj with ⟨rfl, a, ha⟩ | ⟨hji, hj⟩
    · rcases (hinRun k).1 hk with ⟨rfl, -⟩ | ⟨hki, hk⟩
      · rfl
      · exact absurd (hone a ha k hk) hki
    · rcases (hinRun k).1 hk with ⟨rfl, a, ha⟩ | ⟨hki, hk⟩
      · exact absurd (hone a ha j hj) hji
      · exact h.one j k hj hk
  · rw [hflag]
    constructor
    · rintro (ha | ⟨j, hj⟩)
      · exact ⟨i, (hinRun i).2 (.inl ⟨rfl, ha⟩)⟩
      · exact ⟨j, (hinRun j).2 (.inr hj)⟩
    · rintro ⟨j, hj⟩
      exact ((hinRun j).1 hj).imp And.right fun hj => ⟨j, hj⟩
  · intro j c o hj
    by_cases hji : j = i
    · subst hji
      exact hcovered c o (hself.symm.trans hj)
    · rw [hother j hji] at hj
      exact (h.covered j c o hj).trans hlen
  · exact hmids

/-- A change of no call. -/
theorem Calls.frame (h : s.Calls) (hframes : s'.frames = s.frames)
    (hnext : s'.nextFrame = s.nextFrame)
    (hflag : s'.rtc.renegotiating = s.rtc.renegotiating)
    (hlen : s.rtc.transceivers.length ≤ s'.rtc.transceivers.length) (hmids : s'.rtc.OwnMids) :
    s'.Calls where
  fresh := by rw [hframes, hnext]; exact h.fresh
  one := by unfold InRun; rw [hframes]; exact h.one
  flag := by unfold InRun; rw [hframes, hflag]; exact h.flag
  covered i c o hf := by
    rw [hframes] at hf
    exact (h.covered i c o hf).trans hlen
  ownMids := hmids

theorem Calls.grow (h : s.Calls) {w : WebRTC} (hg : Grows s.rtc w) : Calls { s with rtc := w } :=
  h.frame rfl rfl hg.renegotiating hg.length (h.ownMids.grows hg)

/-- A call goes on to another `await`. -/
theorem Calls.moves (h : s.Calls) (hf : s.frames i = some ⟨caller, await⟩) {a : Await}
    (ha : ∀ o, a = .setLocalDescription o → o.sections ≤ s.rtc.transceivers.length)
    (hframes : s'.frames = update s.frames i (some ⟨caller, a⟩))
    (hnext : s'.nextFrame = s.nextFrame)
    (hflag : s'.rtc.renegotiating = s.rtc.renegotiating)
    (hlen : s.rtc.transceivers.length ≤ s'.rtc.transceivers.length) (hmids : s'.rtc.OwnMids) :
    s'.Calls := by
  refine h.set hframes (hnext ▸ h.lt hf) hnext.ge ?_ ?_ ?_ hlen hmids
  · intro b hb j hj
    cases hb
    exact h.one j i hj ⟨await, hf⟩
  · rw [hflag, h.flag]
    constructor
    · rintro ⟨j, b, hj⟩
      by_cases hji : j = i
      · subst hji
        rw [hf] at hj
        cases hj
        exact .inl ⟨a, rfl⟩
      · exact .inr ⟨j, hji, b, hj⟩
    · rintro (⟨b, hb⟩ | ⟨j, -, hj⟩)
      · cases hb
        exact ⟨i, await, hf⟩
      · exact ⟨j, hj⟩
  · intro c o hco
    cases hco
    exact (ha o rfl).trans hlen

/-- A call that is no run ends. -/
theorem Calls.ends (h : s.Calls) (hf : s.frames i = some ⟨caller, await⟩) (hc : caller ≠ .run) :
    (s.setFrame i none).Calls := by
  refine h.set (f := none) rfl (h.lt hf) le_rfl (fun _ ha => by cases ha) ?_
    (fun _ _ ha => by cases ha) le_rfl h.ownMids
  rw [setFrame, h.flag]
  constructor
  · rintro ⟨j, b, hj⟩
    refine .inr ⟨j, ?_, b, hj⟩
    rintro rfl
    rw [hf] at hj
    cases hj
    exact hc rfl
  · rintro (⟨_, ha⟩ | ⟨j, -, hj⟩)
    · cases ha
    · exact ⟨j, hj⟩

/-- A run ends, and the flag with it. -/
theorem Calls.ends_run (h : s.Calls) (hf : s.frames i = some ⟨.run, await⟩) :
    (setFrame { s with rtc := { s.rtc with renegotiating := false } } i none).Calls := by
  refine h.set (f := none) rfl (h.lt hf) le_rfl (fun _ ha => by cases ha) ?_
    (fun _ _ ha => by cases ha) le_rfl h.ownMids
  refine iff_of_false Bool.false_ne_true ?_
  rintro (⟨_, ha⟩ | ⟨j, hji, hj⟩)
  · cases ha
  · exact hji (h.one j i hj ⟨await, hf⟩)

/-- A new call that is no run. -/
theorem Calls.calls (h : s.Calls) (hc : caller ≠ .run)
    (ha : ∀ o, await ≠ .setLocalDescription o) : (s.call ⟨caller, await⟩).Calls := by
  refine h.set (i := s.nextFrame) rfl (Nat.lt_succ_self _) (Nat.le_succ _) ?_ ?_ ?_ le_rfl h.ownMids
  · intro a he
    cases he
    exact absurd rfl hc
  · rw [call, h.flag]
    constructor
    · rintro ⟨j, hj⟩
      obtain ⟨a, hja⟩ := hj
      exact .inr ⟨j, (h.lt hja).ne, a, hja⟩
    · rintro (⟨a, he⟩ | ⟨j, -, hj⟩)
      · cases he
        exact absurd rfl hc
      · exact ⟨j, hj⟩
  · intro c o he
    cases he
    exact absurd rfl (ha o)

theorem Calls.runRenegotiateQueue (h : s.Calls) (hidle : s.rtc.renegotiating = false) (n : Nat) :
    (s.runRenegotiateQueue n).Calls := by
  have hnone : ∀ j, ¬ s.InRun j := fun j hj => by
    rw [h.flag.2 ⟨j, hj⟩] at hidle
    cases hidle
  induction n with
  | zero => exact h.frame rfl rfl rfl le_rfl h.ownMids
  | succ n ih =>
    rw [Page.runRenegotiateQueue]
    split
    · exact ih
    · refine h.set (i := s.nextFrame) (f := some ⟨.run, .createOffer⟩) rfl (Nat.lt_succ_self _)
        (Nat.le_succ _) (fun _ _ j hj => absurd hj (hnone j)) ?_ ?_ le_rfl h.ownMids
      · exact iff_of_true rfl (.inl ⟨_, rfl⟩)
      · intro c o he
        cases he

theorem Calls.renegotiate (h : s.Calls) : s.renegotiate.Calls := by
  unfold Page.renegotiate
  dsimp only
  split
  · exact h.frame rfl rfl rfl le_rfl h.ownMids
  · rename_i hidle
    exact h.runRenegotiateQueue (Bool.eq_false_iff.2 hidle) _

theorem Calls.afterInit (h : s.Calls) (existing : List String) : (s.afterInit existing).Calls := by
  unfold Page.afterInit
  split
  · exact h
  · exact (h.grow (WebRTC.grows_existing s.rtc existing)).renegotiate

theorem Calls.throws (h : s.Calls) (hf : s.frames i = some ⟨caller, await⟩) :
    (s.throws i caller).Calls := by
  cases caller with
  | init existing => exact h.ends hf fun he => by cases he
  | run => exact h.ends_run hf
  | iceRestart => exact h.ends hf fun he => by cases he

theorem Calls.resolve (h : s.Calls) (i : Nat) : (s.resolve i).Calls := by
  unfold Page.resolve
  split
  · rename_i caller hf
    cases caller with
    | init existing => exact (h.ends hf fun he => by cases he).afterInit existing
    | run => exact (h.ends_run hf).runRenegotiateQueue rfl _
    | iceRestart => exact h.ends hf fun he => by cases he
  · exact h

theorem Calls.sendOffer (h : s.Calls) (hf : s.frames i = some ⟨caller, await⟩) {w : WebRTC}
    (hflag : w.renegotiating = s.rtc.renegotiating)
    (hlen : s.rtc.transceivers.length ≤ w.transceivers.length) (hmids : w.OwnMids) (o : Offer)
    (mids : List RecvMidEntry) : (({ s with rtc := w }).sendOffer i caller o mids).Calls :=
  h.moves hf (fun _ ha => by cases ha) rfl rfl hflag hlen hmids

theorem Calls.setLocalDescription (h : s.Calls) {o : Offer}
    (hf : s.frames i = some ⟨caller, .setLocalDescription o⟩) :
    Calls { s with rtc := s.rtc.setLocalDescription o } :=
  h.frame rfl rfl rfl List.length_mapIdx.ge
    (h.ownMids.setLocalDescription (h.covered i caller o hf))

theorem Calls.offerDescribed (h : s.Calls) (hf : s.frames i = some ⟨caller, await⟩) (o : Offer) :
    (s.offerDescribed i o caller).Calls := by
  cases caller with
  | run => exact h.sendOffer (w := s.rtc.takePending.1) hf rfl le_rfl h.ownMids _ _
  | iceRestart =>
    exact h.sendOffer (w := { s.rtc with needsRenegotiate := false }) hf rfl le_rfl h.ownMids _ _
  | init existing =>
    dsimp only [Page.offerDescribed]
    split
    · exact h.sendOffer hf rfl le_rfl h.ownMids _ _
    · exact (h.ends hf fun he => by cases he).afterInit existing

theorem Calls.step (h : s.Calls) (e : Event) : (s.step e).Calls := by
  have hmoves := Page.moves s e
  generalize s.step e = t at hmoves ⊢
  cases hmoves with
  | stays => exact h
  | grows hg | camera hg => exact h.grow hg
  | renegotiates hg => exact (h.grow hg).renegotiate
  | begins hg _ hc _ hoffer => exact (h.grow hg).calls hc hoffer
  | goesOn hf _ hg _ _ hoffer =>
    exact h.moves hf hoffer rfl rfl hg.renegotiating hg.length (h.ownMids.grows hg)
  | described hf => exact (h.setLocalDescription hf).offerDescribed hf _
  | rejected hf => exact h.throws hf
  | answer | error | forgets => exact h.frame rfl rfl rfl le_rfl h.ownMids
  | @resolves i j rest =>
    have hset : Calls { s with
        rtc := { s.rtc with answerResolver := none }
        answering := rest
        resolved := s.resolved ++ [(i, j)] } := h.frame rfl rfl rfl le_rfl h.ownMids
    exact hset.resolve i

end Page

end Namecon
