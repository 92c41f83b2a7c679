import Namecon.Web.Proof.Calls
import Namecon.Web.Screen

/-!
# Whose tiles are on the screen

The tiles of `existing_peers` come when `init` returns, those of the peers that join later with
their `renegotiate`, and `peer-left` takes one away. Between `joined` and the return of `init` a
peer is `Awaited`, and `inits_step` says when that begins and ends. `shown_iff`: with no `init` in
progress, the tiles are those of the peers whose last news was not that they left, as long as no
peer leaves that is awaited.
-/

namespace Namecon

open Function (update)
open Runs (exec Meets)

/-! ## The calls of `init` -/

/-- The `existing_peers` of a call of `init`. -/
def CallFrame.existing : CallFrame → Option (List String)
  | ⟨.init existing, _⟩ => some existing
  | _ => none

namespace Page

variable {s : Page} {i : Nat} {caller : Caller} {await : Await} {p : String}

/-- The calls of `init` that have not returned. -/
def inits (s : Page) (i : Nat) : Option (List String) := (s.frames i).bind CallFrame.existing

/-- The peer gets its tile when `init` returns. -/
def Awaited (s : Page) (p : String) : Prop := ∃ i existing, s.inits i = some existing ∧ p ∈ existing

theorem inits_of_frame (hf : s.frames i = some ⟨caller, await⟩) :
    s.inits i = CallFrame.existing ⟨caller, await⟩ := by
  rw [inits, hf]
  rfl

theorem inits_setFrame (s : Page) (i : Nat) (f : Option CallFrame) :
    (s.setFrame i f).inits = update s.inits i (f.bind CallFrame.existing) := by
  funext j
  by_cases hj : j = i
  · rw [hj, Function.update_self, inits, setFrame_self]
  · rw [Function.update_of_ne hj, inits, setFrame_ne hj]
    rfl

theorem inits_call (s : Page) (f : CallFrame) :
    (s.call f).inits = update s.inits s.nextFrame f.existing := by
  funext j
  by_cases hj : j = s.nextFrame
  · rw [hj, Function.update_self, inits, call_self]
    rfl
  · rw [Function.update_of_ne hj, inits, call_ne hj]
    rfl

/-- A call goes on, or one that is not of `init` ends. -/
theorem inits_goesOn (hf : s.frames i = some ⟨caller, await⟩) {f : Option CallFrame}
    (he : f.bind CallFrame.existing = CallFrame.existing ⟨caller, await⟩) :
    (s.setFrame i f).inits = s.inits := by
  rw [inits_setFrame, he, ← inits_of_frame hf, Function.update_eq_self]

theorem inits_ends (hf : s.frames i = some ⟨caller, await⟩) (hc : ∀ l, caller ≠ .init l) :
    (s.setFrame i none).inits = s.inits := by
  refine inits_goesOn hf ?_
  cases caller with
  | init l => exact absurd rfl (hc l)
  | run | iceRestart => rfl

theorem inits_fresh (hfresh : s.frames s.nextFrame = none) : s.inits s.nextFrame = none := by
  rw [inits, hfresh]
  rfl

theorem inits_calls (hfresh : s.frames s.nextFrame = none) {f : CallFrame}
    (hf : f.existing = none) : (s.call f).inits = s.inits := by
  rw [inits_call, hf, ← inits_fresh hfresh, Function.update_eq_self]

theorem inits_runRenegotiateQueue (h : s.Calls) (n : Nat) :
    (s.runRenegotiateQueue n).inits = s.inits := by
  induction n with
  | zero => rfl
  | succ n ih =>
    rw [Page.runRenegotiateQueue]
    split
    · exact ih
    · exact inits_calls (s := { s with rtc := _ }) (h.fresh _ le_rfl) rfl

theorem inits_renegotiate (h : s.Calls) : s.renegotiate.inits = s.inits := by
  unfold Page.renegotiate
  dsimp only
  split
  · rfl
  · exact inits_runRenegotiateQueue h _

/-- No call of `init` is in progress when none of those made so far is. -/
theorem inits_none (h : s.Calls) (hnone : ∀ i < s.nextFrame, s.inits i = none) (i : Nat) :
    s.inits i = none := by
  by_cases hi : i < s.nextFrame
  · exact hnone i hi
  · rw [inits, h.fresh i (Nat.not_lt.1 hi)]
    rfl

theorem inits_afterInit (h : s.Calls) (existing : List String) :
    (s.afterInit existing).inits = s.inits := by
  unfold Page.afterInit
  split
  · rfl
  · exact inits_renegotiate (h.grow (WebRTC.grows_existing s.rtc existing))

/-! ## A step -/

/-- What a step does to the calls of `init`. -/
inductive Inits (s : Page) (e : Event) : Page → Prop
  | same {s'} (hinits : s'.inits = s.inits) (hreturns : s.initReturns e = [])
      (hjoined : ∀ l, e ≠ .joined l) : Inits s e s'
  | begins {s' l} (he : e = .joined l) (hinits : s'.inits = update s.inits s.nextFrame (some l))
      (hreturns : s.initReturns e = []) : Inits s e s'
  | returns {s' i l} (hi : s.inits i = some l) (hinits : s'.inits = update s.inits i none)
      (hreturns : s.initReturns e = l) (hjoined : ∀ l, e ≠ .joined l) : Inits s e s'

/-- What the handlers count on: `joined` comes once, `init` does not throw, and no peer leaves that
`init` has still to show. -/
def Shows (s : Page) : Event → Prop
  | .joined _ => s.rtc.pc = false
  | .rejected i => s.inits i = none
  | .peerLeft p => ¬ s.Awaited p
  | _ => True

theorem inits_described (h : s.Calls) (i : Nat) : Inits s (.described i) (s.step (.described i)) := by
  cases hf : s.frames i with
  | none => exact .same (by simp only [step, hf]) (by simp only [initReturns, hf]) nofun
  | some f =>
    obtain ⟨caller, await⟩ := f
    cases await with
    | setLocalDescription o =>
      have hset := h.setLocalDescription hf
      cases caller with
      | run =>
        refine .same ?_ (by simp only [initReturns, hf]) nofun
        simp only [step, hf]
        exact inits_goesOn hf rfl
      | iceRestart =>
        refine .same ?_ (by simp only [initReturns, hf]) nofun
        simp only [step, hf]
        exact inits_goesOn hf rfl
      | init l =>
        cases haudio : (s.rtc.setLocalDescription o).includesAudio o with
        | true =>
          refine .same ?_ (by simp only [initReturns, hf, haudio, if_true]) nofun
          simp only [step, hf, offerDescribed, haudio, if_true]
          exact inits_goesOn hf rfl
        | false =>
          refine .returns (i := i) (l := l) (inits_of_frame hf) ?_
            (by simp [initReturns, hf, haudio]) nofun
          simp only [step, hf, offerDescribed, haudio, if_false, Bool.false_eq_true]
          rw [inits_afterInit (hset.ends hf nofun), inits_setFrame]
          rfl
    | getUserMedia | createOffer | answer =>
      exact .same (by simp only [step, hf]) (by simp only [initReturns, hf]) nofun

theorem inits_remoteDescribed (h : s.Calls) :
    Inits s .remoteDescribed (s.step .remoteDescribed) := by
  cases hans : s.answering with
  | nil => exact .same (by simp only [step, hans]) (by simp only [initReturns, hans]) nofun
  | cons j rest =>
    cases hres : s.rtc.answerResolver with
    | none =>
      refine .same ?_ (by simp only [initReturns, hans, hres]) nofun
      simp only [step, hans, hres]
      rfl
    | some i =>
      have hset : Calls { s with
          rtc := { s.rtc with answerResolver := none }
          answering := rest
          resolved := s.resolved ++ [(i, j)] } := h.frame rfl rfl rfl le_rfl h.ownMids
      cases hf : s.frames i with
      | none =>
        refine .same ?_ (by simp only [initReturns, hans, hres, hf]) nofun
        simp only [step, hans, hres, resolve, hf]
        rfl
      | some f =>
        obtain ⟨caller, await⟩ := f
        cases await with
        | answer =>
          cases caller with
          | run =>
            refine .same ?_ (by simp only [initReturns, hans, hres, hf]) nofun
            simp only [step, hans, hres, resolve, hf, resume]
            refine (inits_runRenegotiateQueue (hset.ends_run hf) _).trans ?_
            exact inits_ends hf nofun
          | iceRestart =>
            refine .same ?_ (by simp only [initReturns, hans, hres, hf]) nofun
            simp only [step, hans, hres, resolve, hf, resume]
            exact inits_ends hf nofun
          | init l =>
            refine .returns (i := i) (l := l) (inits_of_frame hf) ?_
              (by simp only [initReturns, hans, hres, hf]) nofun
            simp only [step, hans, hres, resolve, hf, resume]
            rw [inits_afterInit (hset.ends hf nofun), inits_setFrame]
            rfl
        | getUserMedia | createOffer | setLocalDescription =>
          refine .same ?_ (by simp only [initReturns, hans, hres, hf]) nofun
          simp only [step, hans, hres, resolve, hf]
          rfl

theorem inits_step (h : s.Calls) (e : Event) (he : s.Shows e) : Inits s e (s.step e) := by
  have hfresh : s.frames s.nextFrame = none := h.fresh _ le_rfl
  cases e with
  | joined l =>
    refine .begins rfl ?_ rfl
    simp only [step, Shows] at he ⊢
    rw [if_neg (by rw [he]; exact Bool.false_ne_true)]
    exact inits_call _ _
  | addRecvTransceiver | answer | error =>
    refine .same ?_ rfl nofun
    first
    | rfl
    | dsimp only [step]
      split <;> rfl
  | renegotiate => exact .same (inits_renegotiate h) rfl nofun
  | peerLeft p =>
    refine .same ?_ rfl nofun
    exact inits_renegotiate (h.grow (WebRTC.grows_markTransceiverInactive s.rtc p))
  | cameraOn =>
    refine .same ?_ rfl nofun
    dsimp only [step]
    split
    · split
      · exact inits_renegotiate (h.grow (WebRTC.grows_enableCamera s.rtc))
      · rfl
    · rfl
  | cameraOff =>
    refine .same ?_ rfl nofun
    dsimp only [step]
    split
    · exact inits_renegotiate (h.grow (WebRTC.grows_disableCamera s.rtc))
    · rfl
  | iceRestart =>
    refine .same ?_ rfl nofun
    dsimp only [step]
    split
    · exact inits_calls hfresh rfl
    · rfl
  | userMedia i granted =>
    refine .same ?_ rfl nofun
    dsimp only [step]
    split
    · rename_i caller hf
      refine (inits_goesOn (s := { s with rtc := _ }) hf ?_)
      cases caller <;> rfl
    · rfl
  | offerCreated i =>
    refine .same ?_ rfl nofun
    dsimp only [step]
    split
    · rename_i caller hf
      refine inits_goesOn hf ?_
      cases caller <;> rfl
    · rfl
  | described i => exact inits_described h i
  | rejected i =>
    refine .same ?_ rfl nofun
    have hends : ∀ caller await, s.frames i = some ⟨caller, await⟩ →
        (s.throws i caller).inits = s.inits := by
      intro caller await hf
      cases caller with
      | init l =>
        rw [Shows, inits_of_frame hf] at he
        cases he
      | run => exact inits_ends (s := { s with rtc := _ }) hf nofun
      | iceRestart => exact inits_ends hf nofun
    dsimp only [step]
    split
    · rename_i caller hf
      exact hends caller _ hf
    · rename_i caller o hf
      exact hends caller _ hf
    · rfl
  | remoteDescribed => exact inits_remoteDescribed h

/-- What is awaited after the step or shown by it, is what was awaited or has joined. -/
theorem awaited_step (h : s.Calls) {e : Event} (he : s.Shows e) :
    ((s.step e).Awaited p ∨ p ∈ s.initReturns e) ↔
      (s.Awaited p ∨ ∃ l, e = .joined l ∧ p ∈ l) := by
  have hinits := inits_step h e he
  generalize s.step e = s' at hinits ⊢
  cases hinits with
  | same hsame hreturns hjoined =>
    unfold Awaited
    rw [hsame, hreturns]
    simp [hjoined]
  | @begins l hj hnew hreturns =>
    subst hj
    have hfresh := inits_fresh (h.fresh _ le_rfl)
    unfold Awaited
    rw [hnew, hreturns]
    constructor
    · rintro (⟨j, l', hj, hp⟩ | hp)
      · by_cases hjn : j = s.nextFrame
        · rw [hjn, Function.update_self] at hj
          obtain rfl := Option.some.inj hj
          exact .inr ⟨_, rfl, hp⟩
        · rw [Function.update_of_ne hjn] at hj
          exact .inl ⟨j, l', hj, hp⟩
      · cases hp
    · rintro (⟨j, l', hj, hp⟩ | ⟨l', hl, hp⟩)
      · refine .inl ⟨j, l', ?_, hp⟩
        have hjn : j ≠ s.nextFrame := by
          rintro rfl
          rw [hfresh] at hj
          cases hj
        rw [Function.update_of_ne hjn, hj]
      · obtain rfl : l = l' := by injection hl
        exact .inl ⟨s.nextFrame, l, Function.update_self .., hp⟩
  | @returns i l hi hend hreturns hjoined =>
    unfold Awaited
    rw [hend, hreturns]
    constructor
    · rintro (⟨j, l', hj, hp⟩ | hp)
      · by_cases hji : j = i
        · rw [hji, Function.update_self] at hj
          cases hj
        · rw [Function.update_of_ne hji] at hj
          exact .inl ⟨j, l', hj, hp⟩
      · exact .inl ⟨i, l, hi, hp⟩
    · rintro (⟨j, l', hj, hp⟩ | ⟨l', hl, -⟩)
      · by_cases hji : j = i
        · rw [hji, hi] at hj
          obtain rfl := Option.some.inj hj
          exact .inr hp
        · exact .inl ⟨j, l', by rw [Function.update_of_ne hji, hj], hp⟩
      · exact absurd hl (hjoined l')

end Page

/-! ## The tiles -/

namespace UI

variable {tiles : List Tile} {id p : String}

theorem mem_addVideo : p ∈ (addVideo tiles id).map (·.id) ↔ p ∈ tiles.map (·.id) ∨ p = id := by
  unfold addVideo
  split
  · rename_i h
    exact ⟨.inl, fun hp => hp.elim (fun hp => hp) fun he => he ▸ h⟩
  · rw [List.map_append, List.mem_append, List.map_singleton, List.mem_singleton]

theorem mem_foldl_addVideo (l : List String) :
    p ∈ (l.foldl addVideo tiles).map (·.id) ↔ p ∈ tiles.map (·.id) ∨ p ∈ l := by
  induction l generalizing tiles with
  | nil => simp
  | cons id l ih => rw [List.foldl_cons, ih, mem_addVideo, List.mem_cons, or_assoc]

theorem mem_removeVideo :
    p ∈ (removeVideo tiles id).map (·.id) ↔ p ∈ tiles.map (·.id) ∧ p ≠ id := by
  simp only [removeVideo, List.mem_map, List.mem_filter, decide_eq_true_eq]
  constructor
  · rintro ⟨tile, ⟨hmem, hne⟩, rfl⟩
    exact ⟨⟨tile, hmem, rfl⟩, hne⟩
  · rintro ⟨⟨tile, hmem, rfl⟩, hne⟩
    exact ⟨tile, ⟨hmem, hne⟩, rfl⟩

end UI

/-- What an event says of a peer: that it is there, or that it has left. -/
def Event.news (p : String) : Event → Option Bool
  | .joined existing => if p ∈ existing then some true else none
  | .addRecvTransceiver peerId _ => if p = peerId then some true else none
  | .peerLeft peerId => if p = peerId then some false else none
  | _ => none

/-- The last news of the peer is that it is there. -/
def Expected (p : String) (es : List Event) : Prop :=
  (es.filterMap (Event.news p)).getLast? = some true

theorem expected_snoc {p : String} {es : List Event} {e : Event} :
    Expected p (es ++ [e]) ↔ (e.news p = some true ∨ e.news p = none ∧ Expected p es) := by
  unfold Expected
  rw [List.filterMap_append]
  cases he : e.news p with
  | none => simp [he]
  | some b => cases b <;> simp [he]

namespace Screen

variable {s : Screen} {p : String}

/-- The peers, and `local`, whose tiles are in the grid. -/
def shown (s : Screen) : List String := s.tiles.map (·.id)

/-- Tracks come at any time. -/
def Shows (s : Screen) : ScreenEvent → Prop
  | .page e => s.page.Shows e
  | .track _ => True

theorem page_ontrack (s : Screen) (t : Nat) : (s.ontrack t).page = s.page := by
  unfold ontrack
  split
  · rfl
  · split
    · rfl
    · split <;> rfl

theorem shown_ontrack (s : Screen) (t : Nat) : (s.ontrack t).shown = s.shown := by
  unfold ontrack
  split
  · rfl
  · split
    · rfl
    · split
      · rfl
      · unfold shown
        rw [List.map_map]
        refine List.map_congr_left fun tile _ => ?_
        dsimp only [Function.comp]
        split <;> rfl

/-- The tile is there, or comes when `init` returns. -/
def Promised (s : Screen) (p : String) : Prop := p ∈ s.shown ∨ s.page.Awaited p

theorem promised_page (h : s.page.Calls) {e : Event} (he : s.page.Shows e) (hp : p ≠ "local") :
    (s.step (.page e)).Promised p ↔
      (e.news p = some true ∨ e.news p = none ∧ s.Promised p) := by
  have haw := Page.awaited_step (p := p) h he
  unfold Promised shown step at *
  dsimp only at *
  cases e with
  | joined l =>
    have hreturns : s.page.initReturns (.joined l) = [] := rfl
    rw [hreturns] at haw
    simp only [List.not_mem_nil, or_false, Event.joined.injEq, exists_eq_left'] at haw
    rw [tilesAfter, UI.mem_addVideo, haw]
    by_cases hl : p ∈ l
    · simp [Event.news, hl]
    · simp [Event.news, hl, hp]
  | addRecvTransceiver peerId ks =>
    have hreturns : s.page.initReturns (.addRecvTransceiver peerId ks) = [] := rfl
    rw [hreturns] at haw
    simp only [List.not_mem_nil, or_false, reduceCtorEq, false_and, exists_const] at haw
    rw [tilesAfter, UI.mem_addVideo, haw]
    by_cases hpe : p = peerId
    · simp [Event.news, hpe]
    · simp [Event.news, hpe]
  | peerLeft peerId =>
    have hreturns : s.page.initReturns (.peerLeft peerId) = [] := rfl
    rw [hreturns] at haw
    simp only [List.not_mem_nil, or_false, reduceCtorEq, false_and, exists_const] at haw
    rw [tilesAfter, UI.mem_removeVideo, haw]
    by_cases hpe : p = peerId
    · subst hpe
      have hnot : ¬ s.page.Awaited p := he
      simp [Event.news, hnot]
    · simp [Event.news, hpe]
  | renegotiate | cameraOn | cameraOff | iceRestart | userMedia | offerCreated | described
  | rejected | answer | error | remoteDescribed =>
    simp only [reduceCtorEq, false_and, exists_const, or_false] at haw
    change (p ∈ ((s.page.initReturns _).foldl UI.addVideo s.tiles).map (·.id) ∨ _) ↔ _
    rw [UI.mem_foldl_addVideo, or_assoc, or_comm (a := p ∈ Page.initReturns _ _), haw]
    simp [Event.news]

/-! ### Runs -/

theorem calls_screen (es : List ScreenEvent) : (exec step {} es).page.Calls :=
  Runs.exec_inv' (I := fun s : Screen => s.page.Calls) (fun s e h => by
    cases e with
    | page e => exact h.step e
    | track t => rw [step, page_ontrack]; exact h) es Page.calls_start

theorem promised_exec (hp : p ≠ "local") (es : List ScreenEvent) (h : Meets step Shows {} es) :
    (exec step {} es).Promised p ↔ Expected p (es.filterMap pageEvent) := by
  induction es using List.reverseRecOn with
  | nil => simp [Promised, shown, Page.Awaited, Page.inits, Expected]
  | append_singleton es e ih =>
    obtain ⟨hes, he, -⟩ := Runs.meets_append.1 h
    rw [Runs.exec_append, List.filterMap_append]
    cases e with
    | page e =>
      have hstep := promised_page (calls_screen es) he hp
      rw [ih hes] at hstep
      exact hstep.trans expected_snoc.symm
    | track t =>
      have htrack : ((exec step {} es).ontrack t).Promised p ↔ (exec step {} es).Promised p := by
        unfold Promised
        rw [shown_ontrack, page_ontrack]
      have hnone : [ScreenEvent.track t].filterMap pageEvent = [] := rfl
      rw [hnone, List.append_nil]
      exact htrack.trans (ih hes)

/-- With no `init` in progress, the tiles are those of the peers whose last news was not that they
left. -/
theorem shown_iff (hp : p ≠ "local") (es : List ScreenEvent) (h : Meets step Shows {} es)
    (hinit : ∀ i, (exec step {} es).page.inits i = none) :
    p ∈ (exec step {} es).shown ↔ Expected p (es.filterMap pageEvent) := by
  rw [← promised_exec hp es h, Promised]
  refine ⟨.inl, fun hs => hs.resolve_right ?_⟩
  rintro ⟨i, l, hi, -⟩
  rw [hinit i] at hi
  cases hi

end Screen

end Namecon
