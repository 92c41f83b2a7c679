import Mathlib.Data.List.Forall2
import Namecon.Lib.Runs

/-!
# Simulation

Two deterministic systems with the same labels, where each step also emits something. `Simulates`
says that steps taken from related states lead to related states and emit related things, as long as
they meet a condition; `Simulates.run` is the same for runs, step by step (`trace`).
-/

namespace Runs

variable {σ τ ι ω ω' : Type*}

/-- What each step of a run emits. -/
def trace (step : σ → ι → σ) (out : σ → ι → ω) : σ → List ι → List ω
  | _, [] => []
  | s, i :: l => out s i :: trace step out (step s i) l

/-- Two systems that take the same steps. -/
def both (step : σ → ι → σ) (spec : τ → ι → τ) (x : σ × τ) (i : ι) : σ × τ :=
  (step x.1 i, spec x.2 i)

/-- Below the condition `G`, the relation `R` of states is kept by every step, and what the two
steps emit is related by `E`. -/
structure Simulates (step : σ → ι → σ) (out : σ → ι → ω) (spec : τ → ι → τ) (specOut : τ → ι → ω')
    (G : σ × τ → ι → Prop) (R : σ → τ → Prop) (E : ω → ω' → Prop) : Prop where
  step : ∀ s t i, R s t → G (s, t) i → R (step s i) (spec t i)
  out : ∀ s t i, R s t → G (s, t) i → E (out s i) (specOut t i)

theorem Simulates.run {step : σ → ι → σ} {out : σ → ι → ω} {spec : τ → ι → τ} {specOut : τ → ι → ω'}
    {G : σ × τ → ι → Prop} {R : σ → τ → Prop} {E : ω → ω' → Prop}
    (h : Simulates step out spec specOut G R E) {s : σ} {t : τ} {l : List ι} (hR : R s t)
    (hl : Meets (both step spec) G (s, t) l) : R (exec step s l) (exec spec t l) ∧
      List.Forall₂ E (trace step out s l) (trace spec specOut t l) := by
  induction l generalizing s t with
  | nil => exact ⟨hR, .nil⟩
  | cons i l ih =>
    obtain ⟨hexec, htrace⟩ := ih (h.step s t i hR hl.1) hl.2
    exact ⟨hexec, .cons (h.out s t i hR hl.1) htrace⟩

end Runs
