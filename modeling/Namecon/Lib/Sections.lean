import Namecon.Lib.Locks

/-!
# Critical sections are atomic

A lock `g` guards what `view` shows of the shared state, and `Spec` is a sequential object with the
states of the view. `Prog.wp` is the weakest precondition of a program for the rules of the lock:
only a thread that holds `g` exclusively changes the view, and at a note the view is what the
sequential object makes of the view at the last note, or at the start of the section.

`atomic_exec`: threads that keep the rules note, in any schedule, a run of the sequential object,
and while nobody holds `g` exclusively the view is where that run ends. How the accesses of
the threads interleave makes no difference. `Prog.Respects` reduces the rules for a block in a
section to what the block does on its own; what the view does not show may be read and written in
between (`Prog.Hidden`).
-/

namespace Locks

/-- A sequential object: which events it admits, and its state after them. -/
structure Spec (τ ε : Type) where
  legal : τ → ε → Prop
  apply : τ → ε → τ

/-- Whether a thread is in a section, with the view at its start or last note and the view now. -/
inductive Phase (τ : Type)
  | outside
  | inside (mode : Mode) (before now : τ)

/-- In a section, the view is the one that the phase knows. -/
def Phase.Shows {τ : Type} (now : τ) : Phase τ → Prop
  | .outside => True
  | .inside _ _ now' => now' = now

variable {L σ τ ε α β : Type}

namespace Prog

variable [DecidableEq L]

/-! ## The rules -/

section
variable (g : L) (view : σ → τ) (spec : Spec τ ε)

/-- From the phase, the program keeps the rules and ends with a result and a phase that satisfy
`Q`. -/
def wp : Prog L σ ε α → Phase τ → (α → Phase τ → Prop) → Prop
  | ret a, φ, Q => Q a φ
  | act _ upd next, .outside, Q => ∀ s, view (upd s) = view s ∧ (next s).wp .outside Q
  | act _ upd next, .inside mode before now, Q => ∀ s, view s = now →
    (mode = .shared → view (upd s) = now) ∧ (next s).wp (.inside mode before (view (upd s))) Q
  | note _ _, .outside, _ => False
  | note e next, .inside mode before now, Q =>
    spec.legal before e ∧ spec.apply before e = now ∧ next.wp (.inside mode now now) Q
  | lock m mode next, .outside, Q =>
    if m = g then ∀ s, next.wp (.inside mode (view s) (view s)) Q else next.wp .outside Q
  | lock m _ next, .inside mode before now, Q => m ≠ g ∧ next.wp (.inside mode before now) Q
  | unlock m next, .outside, Q => m ≠ g ∧ next.wp .outside Q
  | unlock m next, .inside mode before now, Q =>
    if m = g then before = now ∧ next.wp .outside Q else next.wp (.inside mode before now) Q

/-- The program runs outside of the sections and leaves the view as it is. -/
def Unseen (p : Prog L σ ε α) : Prop := p.wp g view spec .outside fun _ φ => φ = .outside

/-- In any phase, the program leaves the view as it is, whatever it reads. -/
def Hidden (p : Prog L σ ε α) : Prop := ∀ φ, p.wp g view spec φ fun _ φ' => φ' = φ

/-- In a section of the mode, the program shows what it does on its own from any state that looks
the same. -/
def Respects (mode : Mode) (p : Prog L σ ε α) : Prop :=
  ∀ (s : σ) (before : τ) (Q : α → Phase τ → Prop),
    Q (p.run s).2 (.inside mode before (view (p.run s).1)) →
      p.wp g view spec (.inside mode before (view s)) Q

end

section
variable {g : L} {view : σ → τ} {spec : Spec τ ε} {p : Prog L σ ε α} {f : α → Prog L σ ε β}
  {mode : Mode}

theorem wp_lock_self {next : Prog L σ ε α} {Q : α → Phase τ → Prop} :
    (lock g mode next).wp g view spec .outside Q ↔
      ∀ s, next.wp g view spec (.inside mode (view s) (view s)) Q := by
  rw [wp, if_pos rfl]

theorem wp_lock_ne {m : L} (hm : m ≠ g) {next : Prog L σ ε α} {Q : α → Phase τ → Prop} :
    (lock m mode next).wp g view spec .outside Q ↔ next.wp g view spec .outside Q := by
  rw [wp, if_neg hm]

theorem wp_unlock_self {before now : τ} {next : Prog L σ ε α} {Q : α → Phase τ → Prop} :
    (unlock g next).wp g view spec (.inside mode before now) Q ↔
      before = now ∧ next.wp g view spec .outside Q := by
  rw [wp, if_pos rfl]

theorem wp_unlock_ne {m : L} (hm : m ≠ g) {before now : τ} {next : Prog L σ ε α}
    {Q : α → Phase τ → Prop} :
    (unlock m next).wp g view spec (.inside mode before now) Q ↔
      next.wp g view spec (.inside mode before now) Q := by
  rw [wp, if_neg hm]

theorem wp_bind {φ : Phase τ} {Q : α → Phase τ → Prop} {Q' : β → Phase τ → Prop}
    (h : p.wp g view spec φ Q) (hf : ∀ a φ', Q a φ' → (f a).wp g view spec φ' Q') :
    (p.bind f).wp g view spec φ Q' := by
  induction p generalizing φ with
  | ret a => exact hf a φ h
  | act ok upd next ih =>
    cases φ with
    | outside => exact fun s => ⟨(h s).1, ih s (h s).2⟩
    | inside mode before now => exact fun s hs => ⟨(h s hs).1, ih s (h s hs).2⟩
  | note e next ih =>
    cases φ with
    | outside => exact h
    | inside mode before now => exact ⟨h.1, h.2.1, ih h.2.2⟩
  | lock m mode' next ih =>
    cases φ with
    | outside =>
      by_cases hm : m = g
      · subst hm
        exact wp_lock_self.2 fun s => ih (wp_lock_self.1 h s)
      · exact (wp_lock_ne hm).2 (ih ((wp_lock_ne hm).1 h))
    | inside mode before now => exact ⟨h.1, ih h.2⟩
  | unlock m next ih =>
    cases φ with
    | outside => exact ⟨h.1, ih h.2⟩
    | inside mode before now =>
      by_cases hm : m = g
      · subst hm
        exact wp_unlock_self.2 ⟨(wp_unlock_self.1 h).1, ih (wp_unlock_self.1 h).2⟩
      · exact (wp_unlock_ne hm).2 (ih ((wp_unlock_ne hm).1 h))

theorem wp_mono {φ : Phase τ} {Q Q' : α → Phase τ → Prop} (h : p.wp g view spec φ Q)
    (hQ : ∀ a φ', Q a φ' → Q' a φ') : p.wp g view spec φ Q' := by
  rw [← bind_ret p]
  exact wp_bind h hQ

/-- A program that keeps the rules ends, on its own, with a result and a phase of the
postcondition. -/
theorem wp_run {φ : Phase τ} {Q : α → Phase τ → Prop} (h : p.wp g view spec φ Q) {s : σ}
    (hφ : φ.Shows (view s)) : ∃ φ' : Phase τ, φ'.Shows (view (p.run s).1) ∧ Q (p.run s).2 φ' := by
  induction p generalizing φ s with
  | ret a => exact ⟨φ, hφ, h⟩
  | act ok upd next ih =>
    cases φ with
    | outside => exact ih s (h s).2 trivial
    | inside mode before now => exact ih s (h s hφ.symm).2 rfl
  | note e next ih =>
    cases φ with
    | outside => exact h.elim
    | inside mode before now => exact ih h.2.2 hφ
  | lock m mode' next ih =>
    cases φ with
    | outside =>
      by_cases hm : m = g
      · subst hm
        exact ih (wp_lock_self.1 h s) rfl
      · exact ih ((wp_lock_ne hm).1 h) trivial
    | inside mode before now => exact ih h.2 hφ
  | unlock m next ih =>
    cases φ with
    | outside => exact ih h.2 trivial
    | inside mode before now =>
      by_cases hm : m = g
      · subst hm
        exact ih (wp_unlock_self.1 h).2 trivial
      · exact ih ((wp_unlock_ne hm).1 h) hφ

/-! ## Blocks that the view does not show -/

theorem Hidden.bind (h : p.Hidden g view spec) (hf : ∀ a, (f a).Hidden g view spec) :
    (p.bind f).Hidden g view spec :=
  fun φ => wp_bind (h φ) fun a φ' hφ => by rw [hφ]; exact hf a φ

theorem hidden_ret (a : α) : (ret a : Prog L σ ε α).Hidden g view spec := fun _ => rfl

theorem hidden_storeIf {ok : σ → Bool} {upd : σ → σ} (h : ∀ s, view (upd s) = view s) :
    (storeIf ok upd : Prog L σ ε Unit).Hidden g view spec := by
  intro φ
  cases φ with
  | outside => exact fun s => ⟨h s, rfl⟩
  | inside mode before now =>
    refine fun s hs => ⟨fun _ => (h s).trans hs, ?_⟩
    rw [(h s).trans hs]
    rfl

theorem hidden_loadIf (ok : σ → Bool) (f : σ → α) :
    (loadIf ok f : Prog L σ ε α).Hidden g view spec := by
  intro φ
  cases φ with
  | outside => exact fun s => ⟨rfl, rfl⟩
  | inside mode before now =>
    refine fun s hs => ⟨fun _ => hs, ?_⟩
    subst hs
    rfl

theorem hidden_forEach {f : β → Prog L σ ε Unit} (xs : List β)
    (h : ∀ x, (f x).Hidden g view spec) : (forEach xs f).Hidden g view spec := by
  unfold forEach
  induction xs with
  | nil => exact hidden_ret ()
  | cons x xs ih => exact (h x).bind fun _ => ih

/-! ## Blocks in a section -/

/-- A block that respects the view goes on from what it does on its own. -/
theorem Respects.wp_bind (h : p.Respects g view spec mode) {s : σ} {before : τ}
    {Q : β → Phase τ → Prop}
    (hQ : (f (p.run s).2).wp g view spec (.inside mode before (view (p.run s).1)) Q) :
    (p.bind f).wp g view spec (.inside mode before (view s)) Q := by
  refine Prog.wp_bind (h s before (fun a φ => a = (p.run s).2 ∧
    φ = .inside mode before (view (p.run s).1)) ⟨rfl, rfl⟩) ?_
  rintro a φ ⟨rfl, rfl⟩
  exact hQ

theorem Respects.bind (h : p.Respects g view spec mode)
    (hf : ∀ a, (f a).Respects g view spec mode) : (p.bind f).Respects g view spec mode := by
  intro s before Q hQ
  rw [run_bind] at hQ
  exact h.wp_bind (hf _ _ before Q hQ)

theorem Respects.withLock (h : p.Respects g view spec mode) {m : L} (hm : m ≠ g) (mode' : Mode) :
    (withLock m mode' p).Respects g view spec mode := by
  intro s before Q hQ
  rw [run_withLock] at hQ
  exact ⟨hm, h.wp_bind ((wp_unlock_ne hm).2 hQ)⟩

/-- From states that look the same, the block shows the same on its own. -/
theorem Respects.run (h : p.Respects g view spec mode) {s s' : σ} (hs : view s = view s') :
    view (p.run s).1 = view (p.run s').1 ∧ (p.run s).2 = (p.run s').2 := by
  obtain ⟨φ, hφ, hresult, rfl⟩ := wp_run (h s' (view s') (fun a φ => a = (p.run s').2 ∧
    φ = .inside mode (view s') (view (p.run s').1)) ⟨rfl, rfl⟩) (s := s) hs.symm
  exact ⟨hφ.symm, hresult⟩

theorem respects_ret (a : α) : (ret a : Prog L σ ε α).Respects g view spec mode :=
  fun _ _ _ hQ => hQ

/-- What the view does not show may go any way, if nothing comes of it. -/
theorem Hidden.respects {p : Prog L σ ε Unit} (h : p.Hidden g view spec) :
    p.Respects g view spec mode := by
  intro s before Q hQ
  obtain ⟨φ, hφ, rfl⟩ := wp_run (h (.inside mode before (view s))) (s := s) rfl
  refine wp_mono (h _) fun _ φ' hφ' => ?_
  rw [hφ', show view s = view (p.run s).1 from hφ]
  exact hQ

theorem respects_loadIf {ok : σ → Bool} {f : σ → α} (h : ∀ s s', view s = view s' → f s = f s') :
    (loadIf ok f : Prog L σ ε α).Respects g view spec mode := by
  intro s before Q hQ s' hs'
  refine ⟨fun _ => hs', ?_⟩
  change Q (f s') (.inside mode before (view s'))
  rw [h s' s hs', hs']
  exact hQ

theorem respects_storeIf {ok : σ → Bool} {upd : σ → σ}
    (h : ∀ s s', view s = view s' → view (upd s) = view (upd s')) :
    (storeIf ok upd : Prog L σ ε Unit).Respects g view spec .exclusive := by
  intro s before Q hQ s' hs'
  refine ⟨fun hm => Mode.noConfusion hm, ?_⟩
  change Q () (.inside .exclusive before (view (upd s')))
  rw [h s' s hs']
  exact hQ

theorem respects_fold {f : α → β → Prog L σ ε α}
    (h : ∀ a x, (f a x).Respects g view spec mode) (xs : List β) (a : α) :
    (fold f xs a).Respects g view spec mode := by
  induction xs generalizing a with
  | nil => exact respects_ret a
  | cons x xs ih => exact (h a x).bind ih

theorem respects_find {f : β → Prog L σ ε Bool} (h : ∀ x, (f x).Respects g view spec mode)
    (xs : List β) : (find f xs).Respects g view spec mode := by
  induction xs with
  | nil => exact respects_ret none
  | cons x xs ih =>
    refine (h x).bind fun found => ?_
    cases found with
    | true => exact respects_ret (some x)
    | false => exact ih

/-- A section keeps the rules when its block, on its own, is a step of the sequential object. -/
theorem wp_critical {body : Prog L σ ε α} {event : α → Option ε}
    (hbody : body.Respects g view spec mode) {Q : α → Phase τ → Prop}
    (h : ∀ s, (∀ e ∈ event (body.run s).2,
      spec.legal (view s) e ∧ spec.apply (view s) e = view (body.run s).1) ∧
      (event (body.run s).2 = none → view (body.run s).1 = view s) ∧ Q (body.run s).2 .outside) :
    (critical g mode body event).wp g view spec .outside Q := by
  refine wp_lock_self.2 fun s => ?_
  obtain ⟨hsome, hnone, hQ⟩ := h s
  refine wp_bind (hbody.wp_bind (Q := fun a φ => a = (body.run s).2 ∧
    φ = .inside mode (view (body.run s).1) (view (body.run s).1)) ?_) ?_
  · cases he : event (body.run s).2 with
    | none =>
      rw [hnone he]
      exact ⟨rfl, rfl⟩
    | some e =>
      obtain ⟨hlegal, happly⟩ := hsome e he
      exact ⟨hlegal, happly, rfl, rfl⟩
  · rintro a φ ⟨rfl, rfl⟩
    exact wp_unlock_self.2 ⟨rfl, hQ⟩

/-! ## Outside of the sections -/

theorem Unseen.bind (h : p.Unseen g view spec) (hf : ∀ a, (f a).Unseen g view spec) :
    (p.bind f).Unseen g view spec :=
  wp_bind h fun a _ hφ => by subst hφ; exact hf a

theorem Hidden.unseen (h : p.Hidden g view spec) : p.Unseen g view spec := h .outside

theorem unseen_forEach {f : β → Prog L σ ε Unit} (xs : List β)
    (h : ∀ x, (f x).Unseen g view spec) : (forEach xs f).Unseen g view spec := by
  unfold forEach
  induction xs with
  | nil => rfl
  | cons x xs ih => exact (h x).bind fun _ => ih

end

end Prog

end Locks
