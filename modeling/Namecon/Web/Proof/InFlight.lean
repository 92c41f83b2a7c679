import Namecon.Lib.Runs
import Namecon.Web.Proof.Calls

/-!
# One offer in flight

`init`, `_runRenegotiateQueue` and `_doIceRestart` share the one `_answerResolver`. While each of
them sends its offer only when the earlier ones are answered for good, the resolver is that of the
offer in flight (`Steady`). An offer that is sent earlier breaks this at once, or dooms the answer
that is being set to resolve a promise which is not its own (`Doomed`).
-/

namespace Namecon

open Function (update)
open Runs (exec Always Meets)

namespace Page

open WebRTC (Grows)

variable {s s' s'' : Page} {i : Nat} {o : Offer} {caller : Caller} {await : Await}

/-- No two offers are unanswered, every promise that is resolved is so by its own answer, and when
the server has replied to every offer and the answers are set, no promise waits any more and an
iteration that runs has its offer before it. -/
structure OneInFlight (s : Page) : Prop where
  one : s.unanswered.length ≤ 1
  own : ∀ x ∈ s.resolved, x.1 = x.2
  settled : s.unanswered = [] → s.answering = [] → ∀ i c, s.frames i ≠ some ⟨c, .answer⟩
  unstuck : s.unanswered = [] → s.answering = [] → s.rtc.renegotiating = true →
    ∃ i a, s.frames i = some ⟨.run, a⟩ ∧ a ≠ .answer

/-- Whether a call sends its offer when it has been described. -/
def Sends (s : Page) (o : Offer) : Caller → Prop
  | .init _ => (s.rtc.setLocalDescription o).includesAudio o = true
  | .run | .iceRestart => True

/-- `_sendOffer` is called when every earlier offer is answered and its answer set, and the server
replies to no offer with an error. -/
def Alone (s : Page) : Event → Prop
  | .described i => ∀ caller o, s.frames i = some ⟨caller, .setLocalDescription o⟩ →
    s.Sends o caller → s.unanswered = [] ∧ s.answering = []
  | .error => s.unanswered = []
  | _ => True

/-! ## Steps between the offers -/

/-- The same offers are under way, and the same promises wait. -/
structure SameOffers (s s' : Page) : Prop where
  unanswered : s'.unanswered = s.unanswered
  answering : s'.answering = s.answering
  resolver : s'.rtc.answerResolver = s.rtc.answerResolver
  resolved : s'.resolved = s.resolved
  waits : ∀ i c, s'.frames i = some ⟨c, .answer⟩ ↔ s.frames i = some ⟨c, .answer⟩
  next : s.nextFrame ≤ s'.nextFrame
  ended : ∀ i, i < s.nextFrame → s.frames i = none → s'.frames i = none

theorem SameOffers.of_frames (hunanswered : s'.unanswered = s.unanswered)
    (hanswering : s'.answering = s.answering)
    (hresolver : s'.rtc.answerResolver = s.rtc.answerResolver)
    (hresolved : s'.resolved = s.resolved) (hframes : s'.frames = s.frames)
    (hnext : s'.nextFrame = s.nextFrame) : SameOffers s s' where
  unanswered := hunanswered
  answering := hanswering
  resolver := hresolver
  resolved := hresolved
  waits _ _ := by rw [hframes]
  next := hnext.ge
  ended i _ hi := by rw [hframes, hi]

theorem SameOffers.refl (s : Page) : SameOffers s s := .of_frames rfl rfl rfl rfl rfl rfl

theorem SameOffers.trans (h : SameOffers s s') (h' : SameOffers s' s'') : SameOffers s s'' where
  unanswered := h'.unanswered.trans h.unanswered
  answering := h'.answering.trans h.answering
  resolver := h'.resolver.trans h.resolver
  resolved := h'.resolved.trans h.resolved
  waits i c := (h'.waits i c).trans (h.waits i c)
  next := h.next.trans h'.next
  ended i hi hnone := h'.ended i (hi.trans_le h.next) (h.ended i hi hnone)

theorem sameOffers_rtc {w : WebRTC} (hw : w.answerResolver = s.rtc.answerResolver) :
    SameOffers s { s with rtc := w } := .of_frames rfl rfl hw rfl rfl rfl

/-- A call that has sent no offer goes on, or ends. -/
theorem sameOffers_setFrame {w : WebRTC} (hw : w.answerResolver = s.rtc.answerResolver)
    (hf : s.frames i = some ⟨caller, await⟩) (ha : await ≠ .answer) {f : Option CallFrame}
    (hnew : ∀ c, f ≠ some ⟨c, .answer⟩) : SameOffers s (setFrame { s with rtc := w } i f) where
  unanswered := rfl
  answering := rfl
  resolver := hw
  resolved := rfl
  waits j c := by
    by_cases hj : j = i
    · subst hj
      rw [setFrame_self, hf]
      refine iff_of_false (hnew c) fun he => ?_
      cases he
      exact ha rfl
    · rw [setFrame_ne hj]
  next := le_rfl
  ended j _ hnone := by
    have hj : j ≠ i := by
      rintro rfl
      rw [hf] at hnone
      cases hnone
    rw [setFrame_ne hj, hnone]

theorem sameOffers_call {w : WebRTC} (hw : w.answerResolver = s.rtc.answerResolver)
    (hfresh : s.frames s.nextFrame = none) {f : CallFrame} (hf : f.await ≠ .answer) :
    SameOffers s (call { s with rtc := w } f) where
  unanswered := rfl
  answering := rfl
  resolver := hw
  resolved := rfl
  waits j c := by
    by_cases hj : j = s.nextFrame
    · subst hj
      rw [call_self (s := { s with rtc := w }), hfresh]
      refine iff_of_false (fun he => ?_) fun he => by cases he
      cases he
      exact hf rfl
    · rw [call_ne (s := { s with rtc := w }) hj]
  next := Nat.le_succ _
  ended j hj hnone := (call_ne (s := { s with rtc := w }) hj.ne f).trans hnone

theorem sameOffers_runRenegotiateQueue (hfresh : s.frames s.nextFrame = none) (n : Nat) :
    SameOffers s (s.runRenegotiateQueue n) := by
  induction n with
  | zero => exact sameOffers_rtc rfl
  | succ n ih =>
    rw [runRenegotiateQueue]
    split
    · exact ih
    · exact sameOffers_call (w := { s.rtc with renegotiateQueue := n, renegotiating := true }) rfl
        hfresh fun he => by cases he

theorem sameOffers_renegotiate (hfresh : s.frames s.nextFrame = none) :
    SameOffers s s.renegotiate := by
  unfold renegotiate
  dsimp only
  split
  · exact sameOffers_rtc rfl
  · exact sameOffers_runRenegotiateQueue hfresh _

theorem sameOffers_grow (hfresh : s.frames s.nextFrame = none) {w : WebRTC}
    (hg : Grows s.rtc w) : SameOffers s (renegotiate { s with rtc := w }) :=
  (sameOffers_rtc hg.resolver).trans (sameOffers_renegotiate (s := { s with rtc := w }) hfresh)

theorem sameOffers_afterInit (hfresh : s.frames s.nextFrame = none) (existing : List String) :
    SameOffers s (s.afterInit existing) := by
  unfold afterInit
  split
  · exact .refl s
  · exact sameOffers_grow hfresh (WebRTC.grows_existing s.rtc existing)

theorem sameOffers_throws (hf : s.frames i = some ⟨caller, await⟩) (ha : await ≠ .answer) :
    SameOffers s (s.throws i caller) := by
  have hnone : ∀ c, none ≠ some (⟨c, .answer⟩ : CallFrame) := fun _ he => by cases he
  cases caller with
  | run =>
    exact sameOffers_setFrame (w := { s.rtc with renegotiating := false }) rfl hf ha hnone
  | init existing => exact sameOffers_setFrame (w := s.rtc) rfl hf ha hnone
  | iceRestart => exact sameOffers_setFrame (w := s.rtc) rfl hf ha hnone

/-- An event that is about no offer that has been sent. -/
theorem sameOffers_step (h : s.Calls) {e : Event} (hanswer : e ≠ .answer) (herror : e ≠ .error)
    (hremote : e ≠ .remoteDescribed)
    (hdescribed : ∀ i caller o, e = .described i →
      s.frames i = some ⟨caller, .setLocalDescription o⟩ → ¬ s.Sends o caller) :
    SameOffers s (s.step e) := by
  have hfresh : s.frames s.nextFrame = none := h.fresh _ le_rfl
  have hmoves := moves s e
  generalize s.step e = t at hmoves ⊢
  cases hmoves with
  | answer => exact absurd rfl hanswer
  | error => exact absurd rfl herror
  | forgets | resolves => exact absurd rfl hremote
  | stays => exact .refl s
  | grows hg | camera hg => exact sameOffers_rtc hg.resolver
  | renegotiates hg => exact sameOffers_grow hfresh hg
  | begins hg _ _ ha => exact sameOffers_call hg.resolver hfresh ha
  | goesOn hf ha hg _ hb =>
    refine sameOffers_setFrame hg.resolver hf ha fun c hc => ?_
    cases hc
    exact hb rfl
  | @described i caller o hf =>
    have hsends := hdescribed i caller o rfl hf
    cases caller with
    | run => exact absurd trivial hsends
    | iceRestart => exact absurd trivial hsends
    | init existing =>
      have hset := sameOffers_setFrame (w := s.rtc.setLocalDescription o) (f := none) rfl hf
        (fun he => by cases he) fun c he => by cases he
      dsimp only [offerDescribed]
      rw [if_neg (show ¬ (s.rtc.setLocalDescription o).includesAudio o = true from hsends)]
      refine hset.trans (sameOffers_afterInit ?_ existing)
      exact setFrame_none (s := { s with rtc := s.rtc.setLocalDescription o }) hfresh
  | rejected hf ha => exact sameOffers_throws hf ha

/-! ## Steps that are about an offer -/

/-- The call `i` has sent its offer. -/
structure NewOffer (s : Page) (i : Nat) (caller : Caller) (s' : Page) : Prop where
  unanswered : s'.unanswered = s.unanswered ++ [i]
  answering : s'.answering = s.answering
  resolver : s'.rtc.answerResolver = some i
  resolved : s'.resolved = s.resolved
  frames : s'.frames = update s.frames i (some ⟨caller, .answer⟩)
  next : s'.nextFrame = s.nextFrame

theorem newOffer_step (hf : s.frames i = some ⟨caller, .setLocalDescription o⟩)
    (hs : s.Sends o caller) : NewOffer s i caller (s.step (.described i)) := by
  simp only [step, hf]
  cases caller with
  | run => exact ⟨rfl, rfl, rfl, rfl, rfl, rfl⟩
  | iceRestart => exact ⟨rfl, rfl, rfl, rfl, rfl, rfl⟩
  | init existing =>
    dsimp only [offerDescribed]
    rw [if_pos (show (s.rtc.setLocalDescription o).includesAudio o = true from hs)]
    exact ⟨rfl, rfl, rfl, rfl, rfl, rfl⟩

theorem step_remoteDescribed_nil (hans : s.answering = []) : s.step .remoteDescribed = s := by
  simp only [step, hans]

/-- No promise is there to be resolved. -/
theorem step_remoteDescribed_none {j : Nat} {rest : List Nat} (hans : s.answering = j :: rest)
    (hres : s.rtc.answerResolver = none) :
    s.step .remoteDescribed = { s with answering := rest } := by
  simp only [step, hans, hres]

/-- The answer to the offer `j` is set, and the promise `i` is resolved. -/
structure Resolves (s : Page) (i j : Nat) (rest : List Nat) (s' : Page) : Prop where
  unanswered : s'.unanswered = s.unanswered
  answering : s'.answering = rest
  resolver : s'.rtc.answerResolver = none
  resolved : s'.resolved = s.resolved ++ [(i, j)]
  waits : ∀ k c, s'.frames k = some ⟨c, .answer⟩ ↔ k ≠ i ∧ s.frames k = some ⟨c, .answer⟩
  gone : ∀ c, s.frames i = some ⟨c, .answer⟩ → s'.frames i = none
  next : s.nextFrame ≤ s'.nextFrame
  ended : ∀ k, k < s.nextFrame → s.frames k = none → s'.frames k = none

theorem sameOffers_resume (hfresh : s.frames s.nextFrame = none) (caller : Caller) :
    SameOffers s (s.resume caller) := by
  cases caller with
  | init existing => exact sameOffers_afterInit hfresh existing
  | run =>
    have hrtc : SameOffers s { s with rtc := { s.rtc with renegotiating := false } } :=
      sameOffers_rtc rfl
    exact hrtc.trans (sameOffers_runRenegotiateQueue (s := { s with
      rtc := { s.rtc with renegotiating := false } }) hfresh _)
  | iceRestart => exact .refl s

theorem resolves_step (h : s.Calls) {j : Nat} {rest : List Nat} (hans : s.answering = j :: rest)
    (hres : s.rtc.answerResolver = some i) : Resolves s i j rest (s.step .remoteDescribed) := by
  have hfresh : s.frames s.nextFrame = none := h.fresh _ le_rfl
  simp only [step, hans, hres, resolve]
  split
  · rename_i caller hf
    have hsame := sameOffers_resume (s := setFrame { s with
      rtc := { s.rtc with answerResolver := none }
      answering := rest
      resolved := s.resolved ++ [(i, j)] } i none) (setFrame_none hfresh) caller
    refine ⟨hsame.unanswered, hsame.answering, hsame.resolver, hsame.resolved, fun k c => ?_,
      fun _ _ => hsame.ended i (h.lt hf) (setFrame_self _), hsame.next,
      fun k hk hnone => hsame.ended k hk (setFrame_none hnone)⟩
    rw [hsame.waits]
    by_cases hk : k = i
    · subst hk
      rw [setFrame_self]
      exact iff_of_false (fun he => by cases he) fun he => he.1 rfl
    · rw [setFrame_ne hk]
      exact (and_iff_right hk).symm
  · rename_i hnot
    refine ⟨rfl, rfl, rfl, rfl, fun k c => ?_, fun c hf => absurd hf (hnot c), le_rfl,
      fun k _ hnone => hnone⟩
    refine ⟨fun hk => ⟨?_, hk⟩, And.right⟩
    rintro rfl
    exact hnot c hk

/-- An event is about an offer that is sent, a reply, or an answer that is set, or about none. -/
theorem offer_cases (h : s.Calls) (e : Event) : SameOffers s (s.step e) ∨
    (∃ i caller o, e = .described i ∧ s.frames i = some ⟨caller, .setLocalDescription o⟩ ∧
      s.Sends o caller) ∨ e = .answer ∨ e = .error ∨ e = .remoteDescribed := by
  by_cases hanswer : e = .answer
  · exact .inr (.inr (.inl hanswer))
  by_cases herror : e = .error
  · exact .inr (.inr (.inr (.inl herror)))
  by_cases hremote : e = .remoteDescribed
  · exact .inr (.inr (.inr (.inr hremote)))
  by_cases hsends : ∃ i caller o, e = .described i ∧
      s.frames i = some ⟨caller, .setLocalDescription o⟩ ∧ s.Sends o caller
  · exact .inr (.inl hsends)
  · exact .inl (sameOffers_step h hanswer herror hremote fun i caller o he hf hs =>
      hsends ⟨i, caller, o, he, hf, hs⟩)

/-! ## The steady state -/

/-- The offers that are not done with. -/
def underWay (s : Page) : List Nat := s.unanswered ++ s.answering

/-- At most one offer is not done with. The resolver is that of its promise, and no other promise
waits. -/
structure Steady (s : Page) : Prop where
  one : s.underWay.length ≤ 1
  own : ∀ x ∈ s.resolved, x.1 = x.2
  resolver : ∀ i ∈ s.underWay, s.rtc.answerResolver = some i
  sender : ∀ i ∈ s.underWay, ∃ c, s.frames i = some ⟨c, .answer⟩
  waits : ∀ i c, s.frames i = some ⟨c, .answer⟩ → i ∈ s.underWay

theorem steady_start : Steady {} where
  one := Nat.zero_le 1
  own _ hx := absurd hx List.not_mem_nil
  resolver _ hi := absurd hi List.not_mem_nil
  sender _ hi := absurd hi List.not_mem_nil
  waits _ _ hf := by cases hf

/-- An offer without a reply is the only one. -/
theorem Steady.only (h : s.Steady) {rest : List Nat} (hu : s.unanswered = i :: rest) :
    rest = [] ∧ s.answering = [] := by
  have hone := h.one
  rw [underWay, hu] at hone
  simp only [List.cons_append, List.length_cons, List.length_append] at hone
  exact ⟨List.eq_nil_of_length_eq_zero (by omega), List.eq_nil_of_length_eq_zero (by omega)⟩

/-- So is an offer whose answer is being set. -/
theorem Steady.last (h : s.Steady) {rest : List Nat} (hans : s.answering = i :: rest) :
    s.unanswered = [] ∧ rest = [] := by
  have hone := h.one
  rw [underWay, hans] at hone
  simp only [List.length_cons, List.length_append] at hone
  exact ⟨List.eq_nil_of_length_eq_zero (by omega), List.eq_nil_of_length_eq_zero (by omega)⟩

theorem Steady.frame (h : s.Steady) (hsame : SameOffers s s') : s'.Steady := by
  have hopen : s'.underWay = s.underWay := by
    rw [underWay, hsame.unanswered, hsame.answering, underWay]
  refine ⟨hopen ▸ h.one, hsame.resolved ▸ h.own, fun i hi => ?_, fun i hi => ?_, fun i c hf => ?_⟩
  · rw [hsame.resolver]
    exact h.resolver i (hopen ▸ hi)
  · obtain ⟨c, hf⟩ := h.sender i (hopen ▸ hi)
    exact ⟨c, (hsame.waits i c).2 hf⟩
  · rw [hopen]
    exact h.waits i c ((hsame.waits i c).1 hf)

theorem Steady.newOffer (h : s.Steady) (hnew : NewOffer s i caller s')
    (hidle : s.unanswered = [] ∧ s.answering = []) : s'.Steady := by
  have hopen : s'.underWay = [i] := by
    rw [underWay, hnew.unanswered, hnew.answering, hidle.1, hidle.2]
    rfl
  refine ⟨hopen ▸ le_rfl, hnew.resolved ▸ h.own, fun k hk => ?_, fun k hk => ?_, fun k c hf => ?_⟩
  · rw [hopen, List.mem_singleton] at hk
    rw [hk, hnew.resolver]
  · rw [hopen, List.mem_singleton] at hk
    exact ⟨caller, by rw [hk, hnew.frames, Function.update_self]⟩
  · rw [hopen, List.mem_singleton]
    by_contra hk
    rw [hnew.frames, Function.update_of_ne hk] at hf
    have hmem := h.waits k c hf
    rw [underWay, hidle.1, hidle.2] at hmem
    exact List.not_mem_nil hmem

/-- A reply changes nothing but the state of its offer. -/
theorem step_answer (s : Page) : (s.step .answer).resolved = s.resolved ∧
    (s.step .answer).rtc = s.rtc ∧ (s.step .answer).frames = s.frames ∧
      (s.step .answer).nextFrame = s.nextFrame := by
  dsimp only [step]
  cases s.unanswered <;> exact ⟨rfl, rfl, rfl, rfl⟩

/-- The answer comes to the offer that is in flight. -/
theorem Steady.answer (h : s.Steady) : (s.step .answer).Steady := by
  have hwhole : (s.step .answer).underWay = s.underWay := by
    unfold underWay
    dsimp only [Page.step]
    cases hu : s.unanswered with
    | nil => rw [hu]
    | cons i rest =>
      obtain ⟨hrest, hans⟩ := h.only hu
      rw [hrest, hans]
      rfl
  obtain ⟨hresolved, hrtc, hframes, -⟩ := step_answer s
  refine ⟨hwhole ▸ h.one, hresolved ▸ h.own, ?_, ?_, ?_⟩
  · rw [hwhole, hrtc]
    exact h.resolver
  · rw [hwhole, hframes]
    exact h.sender
  · rw [hwhole, hframes]
    exact h.waits

/-- The answer resolves the promise of its own offer. -/
theorem Steady.remoteDescribed (h : s.Steady) (hc : s.Calls) :
    (s.step .remoteDescribed).Steady := by
  cases hans : s.answering with
  | nil =>
    rw [step_remoteDescribed_nil hans]
    exact h
  | cons j rest =>
    have hmem : j ∈ s.underWay := by
      rw [underWay, hans]
      exact List.mem_append_right _ (.head _)
    have hempty : s.unanswered = [] ∧ rest = [] := h.last hans
    have hres := resolves_step hc hans (h.resolver j hmem)
    have hopen : (s.step .remoteDescribed).underWay = [] := by
      rw [underWay, hres.unanswered, hres.answering, hempty.1, hempty.2]
      rfl
    refine ⟨hopen ▸ Nat.zero_le 1, fun x hx => ?_, fun i hi => ?_, fun i hi => ?_,
      fun i c hf => ?_⟩
    · rw [hres.resolved] at hx
      rcases List.mem_append.1 hx with hx | hx
      · exact h.own x hx
      · rw [List.mem_singleton.1 hx]
    · rw [hopen] at hi
      exact absurd hi List.not_mem_nil
    · rw [hopen] at hi
      exact absurd hi List.not_mem_nil
    · obtain ⟨hij, hf⟩ := (hres.waits i c).1 hf
      have hi := h.waits i c hf
      rw [underWay, hempty.1, hans, hempty.2, List.nil_append, List.mem_singleton] at hi
      exact absurd hi hij

theorem Steady.step (h : s.Steady) (hc : s.Calls) {e : Event} (he : s.Alone e) :
    (s.step e).Steady := by
  rcases offer_cases hc e with hsame | ⟨i, caller, o, rfl, hf, hs⟩ | rfl | rfl | rfl
  · exact h.frame hsame
  · exact h.newOffer (newOffer_step hf hs) (he caller o hf hs)
  · exact h.answer
  · have hstep : s.step .error = s := by
      have hnone : s.unanswered = [] := he
      dsimp only [Page.step]
      rw [hnone, List.tail_nil, ← hnone]
    rw [hstep]
    exact h
  · exact h.remoteDescribed hc

theorem Steady.oneInFlight (h : s.Steady) (hc : s.Calls) : s.OneInFlight := by
  have hsettled : s.unanswered = [] → s.answering = [] → ∀ i c, s.frames i ≠ some ⟨c, .answer⟩ := by
    intro hu ha i c hf
    have hi := h.waits i c hf
    rw [underWay, hu, ha] at hi
    exact List.not_mem_nil hi
  refine ⟨?_, h.own, hsettled, fun hu ha hflag => ?_⟩
  · have hone := h.one
    rw [underWay, List.length_append] at hone
    omega
  · obtain ⟨i, a, hf⟩ := hc.flag.1 hflag
    refine ⟨i, a, hf, ?_⟩
    rintro rfl
    exact hsettled hu ha i _ hf

/-! ## What an early offer leads to -/

/-- A call whose offer is not done with waits for its promise, or its promise is resolved. -/
def SentOnce (s : Page) : Prop :=
  ∀ i ∈ s.underWay, i < s.nextFrame ∧ ∀ f, s.frames i = some f → f.await = .answer

/-- A promise has been resolved by another answer, or will be by the answer that is set next. -/
def Doomed (s : Page) : Prop :=
  (∃ x ∈ s.resolved, x.1 ≠ x.2) ∨
    ∃ j rest i, s.answering = j :: rest ∧ s.rtc.answerResolver = some i ∧ i ≠ j

theorem SentOnce.frame (h : s.SentOnce) (hsame : SameOffers s s') : s'.SentOnce := by
  intro i hi
  have hopen : s'.underWay = s.underWay := by
    rw [underWay, hsame.unanswered, hsame.answering, underWay]
  obtain ⟨hlt, hwait⟩ := h i (hopen ▸ hi)
  refine ⟨hlt.trans_le hsame.next, fun f hf => ?_⟩
  cases hold : s.frames i with
  | none =>
    rw [hsame.ended i hlt hold] at hf
    cases hf
  | some g =>
    obtain ⟨c, a⟩ := g
    obtain rfl : a = .answer := hwait _ hold
    rw [(hsame.waits i c).2 hold] at hf
    cases hf
    rfl

/-- Fewer offers are under way, and the calls are the same. -/
theorem SentOnce.mono (h : s.SentOnce) (hsub : ∀ i ∈ s'.underWay, i ∈ s.underWay)
    (hframes : s'.frames = s.frames) (hnext : s'.nextFrame = s.nextFrame) : s'.SentOnce := by
  intro i hi
  rw [hframes, hnext]
  exact h i (hsub i hi)

theorem SentOnce.resolves (h : s.SentOnce) {j : Nat} {rest : List Nat}
    (hans : s.answering = j :: rest) (hres : Resolves s i j rest s') : s'.SentOnce := by
  intro k hk
  have hmem : k ∈ s.underWay := by
    rw [underWay, hres.unanswered, hres.answering] at hk
    rw [underWay, hans]
    exact (List.mem_append.1 hk).elim (List.mem_append_left _)
      fun hk => List.mem_append_right _ (.tail _ hk)
  obtain ⟨hlt, hwait⟩ := h k hmem
  refine ⟨hlt.trans_le hres.next, fun f hf => ?_⟩
  cases hold : s.frames k with
  | none =>
    rw [hres.ended k hlt hold] at hf
    cases hf
  | some g =>
    obtain ⟨c, a⟩ := g
    obtain rfl : a = .answer := hwait _ hold
    by_cases hki : k = i
    · subst hki
      rw [hres.gone c hold] at hf
      cases hf
    · rw [(hres.waits k c).2 ⟨hki, hold⟩] at hf
      cases hf
      rfl

theorem SentOnce.step (h : s.SentOnce) (hc : s.Calls) (e : Event) : (s.step e).SentOnce := by
  rcases offer_cases hc e with hsame | ⟨i, caller, o, rfl, hf, hs⟩ | rfl | rfl | rfl
  · exact h.frame hsame
  · have hnew := newOffer_step hf hs
    intro k hk
    rw [hnew.next, hnew.frames]
    by_cases hki : k = i
    · subst hki
      rw [Function.update_self]
      exact ⟨hc.lt hf, fun f he => by cases he; rfl⟩
    · rw [Function.update_of_ne hki]
      refine h k ?_
      rw [underWay, hnew.unanswered, hnew.answering] at hk
      simpa [underWay, hki] using hk
  · obtain ⟨-, -, hframes, hnext⟩ := step_answer s
    refine h.mono (fun k hk => ?_) hframes hnext
    cases hu : s.unanswered with
    | nil =>
      have hstep : s.step .answer = s := by simp only [Page.step, hu]
      rwa [hstep] at hk
    | cons i rest =>
      simp only [underWay, Page.step, hu, List.mem_append, List.mem_singleton] at hk
      rw [underWay, hu]
      rcases hk with hk | hk | rfl
      · exact List.mem_append_left _ (.tail _ hk)
      · exact List.mem_append_right _ hk
      · exact List.mem_append_left _ (.head _)
  · refine h.mono (fun k hk => ?_) rfl rfl
    exact (List.mem_append.1 hk).elim
      (fun hk => List.mem_append_left _ (List.mem_of_mem_tail hk)) (List.mem_append_right _)
  · cases hans : s.answering with
    | nil =>
      rw [step_remoteDescribed_nil hans]
      exact h
    | cons j rest =>
      cases hres : s.rtc.answerResolver with
      | some i => exact h.resolves hans (resolves_step hc hans hres)
      | none =>
        rw [step_remoteDescribed_none hans hres]
        refine h.mono (fun k hk => ?_) rfl rfl
        rw [underWay, hans]
        exact (List.mem_append.1 hk).elim (List.mem_append_left _)
          fun hk => List.mem_append_right _ (.tail _ hk)

theorem Doomed.step (h : s.Doomed) (hc : s.Calls) (hsent : s.SentOnce) (e : Event) :
    (s.step e).Doomed := by
  rcases offer_cases hc e with hsame | ⟨i, caller, o, rfl, hf, hs⟩ | rfl | rfl | rfl
  · unfold Doomed
    rw [hsame.resolved, hsame.answering, hsame.resolver]
    exact h
  · have hnew := newOffer_step hf hs
    unfold Doomed
    rw [hnew.resolved, hnew.answering, hnew.resolver]
    refine h.imp_right fun ⟨j, rest, k, hans, _⟩ => ⟨j, rest, i, hans, rfl, ?_⟩
    -- the call that sends its offer now is none of those that have sent one
    rintro rfl
    have hmem : i ∈ s.underWay := by
      rw [underWay, hans]
      exact List.mem_append_right _ (.head _)
    cases (hsent i hmem).2 _ hf
  · obtain ⟨hresolved, hrtc, -⟩ := step_answer s
    unfold Doomed
    rw [hresolved, hrtc]
    refine h.imp_right fun ⟨j, rest, k, hans, hres⟩ => ?_
    dsimp only [Page.step]
    cases s.unanswered with
    | nil => exact ⟨j, rest, k, hans, hres⟩
    | cons i others => exact ⟨j, rest ++ [i], k, by rw [hans]; rfl, hres⟩
  · exact h
  · cases hans : s.answering with
    | nil =>
      rw [step_remoteDescribed_nil hans]
      exact h
    | cons j rest =>
      cases hres : s.rtc.answerResolver with
      | none =>
        rw [step_remoteDescribed_none hans hres]
        rcases h with hbad | ⟨_, _, k, _, hk, _⟩
        · exact .inl hbad
        · rw [hres] at hk
          cases hk
      | some i =>
        have hresolved := (resolves_step hc hans hres).resolved
        rcases h with ⟨x, hx, hne⟩ | ⟨j', rest', k, hans', hk, hne⟩
        · exact .inl ⟨x, by rw [hresolved]; exact List.mem_append_left _ hx, hne⟩
        · rw [hans] at hans'
          rw [hres] at hk
          cases hans'
          cases hk
          refine .inl ⟨(i, j), ?_, hne⟩
          rw [hresolved]
          exact List.mem_append_right _ (List.mem_singleton.2 rfl)

/-- A step that does not meet the condition is the end of it. -/
theorem Steady.lost (h : s.Steady) {e : Event} (he : ¬ s.Alone e) :
    ¬ (s.step e).OneInFlight ∨ (s.step e).Doomed := by
  cases e with
  | described i =>
    simp only [Alone, not_forall] at he
    obtain ⟨caller, o, hf, hs, hbusy⟩ := he
    have hnew := newOffer_step hf hs
    cases hu : s.unanswered with
    | cons k rest =>
      refine .inl fun hone => ?_
      have hlen := hone.one
      rw [hnew.unanswered, hu] at hlen
      simp at hlen
    | nil =>
      cases ha : s.answering with
      | nil => exact absurd ⟨hu, ha⟩ hbusy
      | cons j rest =>
        refine .inr (.inr ⟨j, rest, i, hnew.answering.trans ha, hnew.resolver, ?_⟩)
        rintro rfl
        obtain ⟨c, hwait⟩ := h.sender i (by
          rw [underWay, ha]
          exact List.mem_append_right _ (.head _))
        rw [hf] at hwait
        cases hwait
  | error =>
    cases hu : s.unanswered with
    | nil => exact absurd hu he
    | cons i rest =>
      obtain ⟨hrest, hans⟩ := h.only hu
      obtain ⟨c, hf⟩ := h.sender i (by rw [underWay, hu]; exact .head _)
      refine .inl fun hflight => hflight.settled ?_ hans i c hf
      rw [Page.step, hu, hrest]
      rfl
  | _ => exact absurd trivial he

/-! ## Runs -/

theorem doomed_exec (ops : List Event) (h : s.Doomed) (hc : s.Calls) (hsent : s.SentOnce) :
    (exec step s ops).Doomed :=
  (Runs.exec_inv' (I := fun s : Page => s.Doomed ∧ s.Calls ∧ s.SentOnce)
    (fun _ e hs => ⟨hs.1.step hs.2.1 hs.2.2 e, hs.2.1.step e, hs.2.2.step hs.2.1 e⟩) ops
    ⟨h, hc, hsent⟩).1

theorem Doomed.not_oneInFlight (h : s.Doomed) (hans : s.answering = []) : ¬ s.OneInFlight := by
  rintro hone
  rcases h with ⟨x, hx, hne⟩ | ⟨j, rest, i, hj, -⟩
  · exact hne (hone.own x hx)
  · rw [hans] at hj
    cases hj

theorem Steady.alone (ops : List Event) (h : s.Steady) (hc : s.Calls) (hsent : s.SentOnce)
    (hans : (exec Page.step s ops).answering = [])
    (hall : Always Page.step OneInFlight s ops) : Meets Page.step Alone s ops := by
  induction ops generalizing s with
  | nil => trivial
  | cons e ops ih =>
    have he : s.Alone e := by
      by_contra he
      rcases h.lost he with hlost | hdoomed
      · refine hlost ?_
        cases ops with
        | nil => exact hall.2
        | cons e' ops => exact hall.2.1
      · have hend := doomed_exec ops hdoomed (hc.step e) (hsent.step hc e)
        exact hend.not_oneInFlight hans hall.last
    exact ⟨he, ih (h.step hc he) (hc.step e) (hsent.step hc e) hans hall.2⟩

theorem always_steady {ops : List Event} (h : Meets step Alone {} ops) :
    Always step (fun s => s.Steady ∧ s.Calls) {} ops :=
  Runs.always_of_inv (fun _ e hs he => ⟨hs.1.step hs.2 he, hs.2.step e⟩)
    ⟨steady_start, calls_start⟩ h

/-- **One offer in flight**, in every run in which each offer is sent when the earlier ones are
answered and none gets an error; and in no other run whose answers are all set in the end. -/
theorem one_in_flight (ops : List Event) :
    (Meets step Alone {} ops → Always step OneInFlight {} ops) ∧
      ((exec step {} ops).answering = [] → Always step OneInFlight {} ops →
        Meets step Alone {} ops) := by
  constructor
  · exact fun h => (always_steady h).mono fun _ hs => hs.1.oneInFlight hs.2
  · exact steady_start.alone ops calls_start fun _ hi => absurd hi List.not_mem_nil

/-- A peer joins while the first offer is unanswered. -/
def joinEarly : List Event :=
  [.joined [], .userMedia 0 true, .offerCreated 0, .described 0] ++
    Event.renegotiateMessage "b" ++ [.offerCreated 1, .described 1]

theorem two_in_flight : ¬ ∀ ops, Always step OneInFlight {} ops := by
  intro h
  exact absurd (h joinEarly).last.one (by decide)

end Page

end Namecon
