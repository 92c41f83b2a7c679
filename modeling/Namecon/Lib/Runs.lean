import Mathlib.Data.List.Induction

/-!
# Runs of a deterministic system

A system is a step function `step : σ → ι → σ`; a label `ι` names the operation and carries every
choice the environment makes for it, so a run is a list of labels. `exec` is the state a run ends
in, `Always P` says that `P` holds in every state the run passes, and `Meets G` that every step is
taken from a state that meets `G`.

* `exec_inv`, `always_of_inv`: what every step that meets `G` preserves holds along every run that
  meets `G` (`exec_inv'`, `always_of_inv'`: without a condition).
* `meets_congr`, `meets_congr_of`, `meets_congr_below`: conditions equal under an invariant are met
  by the same runs.
* `always_iff_meets`, `always_iff_meets_of`: where `G` says of each step exactly whether `P`
  survives it, `P` holds along a run if and only if the run meets `G`; `last_iff_meets_of`: where
  `P`, once lost, does not come back, it is enough that it holds in the end.
* `outputs` is the log of a run whose steps emit; `exec_outputs_inv`: invariants of the state and
  the log; `countP_outputs_le_one`: what a step emits only once, and only while the state is not
  spent, a run emits once.
-/

namespace Runs

variable {σ ι : Type*} (step : σ → ι → σ)

/-- The state in which a run ends. -/
def exec : σ → List ι → σ
  | s, [] => s
  | s, i :: l => exec (step s i) l

/-- `P` holds in every state of the run, its first and its last included. -/
def Always (P : σ → Prop) : σ → List ι → Prop
  | s, [] => P s
  | s, i :: l => P s ∧ Always P (step s i) l

/-- Every step of the run is taken from a state where it meets `G`. -/
def Meets (G : σ → ι → Prop) : σ → List ι → Prop
  | _, [] => True
  | s, i :: l => G s i ∧ Meets G (step s i) l

/-- Whether a run meets a condition that can be decided. -/
def decideMeets (G : σ → ι → Prop) [∀ s i, Decidable (G s i)] : ∀ s l, Decidable (Meets step G s l)
  | _, [] => .isTrue trivial
  | s, i :: l => @instDecidableAnd _ _ (inferInstanceAs (Decidable (G s i)))
    (decideMeets G (step s i) l)

instance {G : σ → ι → Prop} [∀ s i, Decidable (G s i)] {s : σ} {l : List ι} :
    Decidable (Meets step G s l) := decideMeets step G s l

variable {step}

@[simp] theorem exec_nil (s : σ) : exec step s [] = s := rfl

@[simp] theorem exec_cons (s : σ) (i : ι) (l : List ι) :
    exec step s (i :: l) = exec step (step s i) l := rfl

@[simp] theorem exec_append (s : σ) (l l' : List ι) :
    exec step s (l ++ l') = exec step (exec step s l) l' := by
  induction l generalizing s with
  | nil => rfl
  | cons i l ih => exact ih (step s i)

@[simp] theorem meets_nil (G : σ → ι → Prop) (s : σ) : Meets step G s [] := trivial

@[simp] theorem meets_cons {G : σ → ι → Prop} {s : σ} {i : ι} {l : List ι} :
    Meets step G s (i :: l) ↔ G s i ∧ Meets step G (step s i) l := Iff.rfl

theorem meets_append {G : σ → ι → Prop} {s : σ} {l l' : List ι} :
    Meets step G s (l ++ l') ↔ Meets step G s l ∧ Meets step G (exec step s l) l' := by
  induction l generalizing s with
  | nil => simp
  | cons i l ih => rw [List.cons_append, meets_cons, meets_cons, ih, and_assoc, exec_cons]

/-- A run of a system, seen through `f`, is a run of another. -/
theorem meets_map {τ : Type*} {step' : τ → ι → τ} (f : σ → τ)
    (hf : ∀ s i, f (step s i) = step' (f s) i) {G : τ → ι → Prop} {s : σ} {l : List ι} :
    Meets step (fun s => G (f s)) s l ↔ Meets step' G (f s) l := by
  induction l generalizing s with
  | nil => exact Iff.rfl
  | cons i l ih => rw [meets_cons, meets_cons, ih, hf]

/-- A condition on the labels alone is met by every run of such labels. -/
theorem meets_of_forall {G : ι → Prop} {s : σ} {l : List ι} (h : ∀ i ∈ l, G i) :
    Meets step (fun _ => G) s l := by
  induction l generalizing s with
  | nil => trivial
  | cons i l ih => exact ⟨h i (.head _), ih fun j hj => h j (.tail _ hj)⟩

theorem Meets.and {G G' : σ → ι → Prop} {s : σ} {l : List ι} (h : Meets step G s l)
    (h' : Meets step G' s l) : Meets step (fun s i => G s i ∧ G' s i) s l := by
  induction l generalizing s with
  | nil => trivial
  | cons i l ih => exact ⟨⟨h.1, h'.1⟩, ih h.2 h'.2⟩

theorem Meets.mono {G G' : σ → ι → Prop} (hG : ∀ s i, G s i → G' s i) {s : σ} {l : List ι}
    (h : Meets step G s l) : Meets step G' s l := by
  induction l generalizing s with
  | nil => trivial
  | cons i l ih => exact ⟨hG s i h.1, ih h.2⟩

theorem Always.last {P : σ → Prop} {s : σ} {l : List ι} (h : Always step P s l) :
    P (exec step s l) := by
  induction l generalizing s with
  | nil => exact h
  | cons i l ih => exact ih h.2

theorem Always.mono {P Q : σ → Prop} (hPQ : ∀ s, P s → Q s) {s : σ} {l : List ι}
    (h : Always step P s l) : Always step Q s l := by
  induction l generalizing s with
  | nil => exact hPQ s h
  | cons i l ih => exact ⟨hPQ s h.1, ih h.2⟩

/-! ## Invariants -/

section
variable {I : σ → Prop} {G : σ → ι → Prop} (hI : ∀ s i, I s → G s i → I (step s i))
include hI

theorem always_of_inv {s : σ} {l : List ι} (hs : I s) (hl : Meets step G s l) :
    Always step I s l := by
  induction l generalizing s with
  | nil => exact hs
  | cons i l ih => exact ⟨hs, ih (hI s i hs hl.1) hl.2⟩

theorem exec_inv {s : σ} {l : List ι} (hs : I s) (hl : Meets step G s l) : I (exec step s l) :=
  (always_of_inv hI hs hl).last

end

theorem always_of_inv' {I : σ → Prop} (hI : ∀ s i, I s → I (step s i)) {s : σ} (l : List ι)
    (hs : I s) : Always step I s l :=
  always_of_inv (G := fun _ _ => True) (fun s i h _ => hI s i h) hs
    (meets_of_forall fun _ _ => trivial)

theorem exec_inv' {I : σ → Prop} (hI : ∀ s i, I s → I (step s i)) {s : σ} (l : List ι)
    (hs : I s) : I (exec step s l) :=
  (always_of_inv' hI l hs).last

theorem meets_of_inv {I : σ → Prop} {G : σ → ι → Prop} (hI : ∀ s i, I s → I (step s i))
    (hG : ∀ s i, I s → G s i) {s : σ} (l : List ι) (hs : I s) : Meets step G s l := by
  induction l generalizing s with
  | nil => trivial
  | cons i l ih => exact ⟨hG s i hs, ih (hI s i hs)⟩

/-- Conditions that an invariant makes equal on every step are met by the same runs; `L` are the
labels that keep the invariant. -/
theorem meets_congr_of {I : σ → Prop} {L : ι → Prop} {G G' : σ → ι → Prop}
    (hI : ∀ s i, L i → I s → I (step s i)) (hG : ∀ s i, I s → (G s i ↔ G' s i)) {s : σ}
    {l : List ι} (hl : ∀ i ∈ l, L i) (hs : I s) : Meets step G s l ↔ Meets step G' s l := by
  induction l generalizing s with
  | nil => exact Iff.rfl
  | cons i l ih =>
    have hs' := hI s i (hl i (.head _)) hs
    exact and_congr (hG s i hs) (ih (fun j hj => hl j (.tail _ hj)) hs')

theorem meets_congr {I : σ → Prop} {G G' : σ → ι → Prop} (hI : ∀ s i, I s → I (step s i))
    (hG : ∀ s i, I s → (G s i ↔ G' s i)) {s : σ} {l : List ι} (hs : I s) :
    Meets step G s l ↔ Meets step G' s l :=
  meets_congr_of (L := fun _ => True) (fun s i _ => hI s i) hG (fun _ _ => trivial) hs

/-- Conditions that are equal below an invariant which they keep. -/
theorem meets_congr_below {I : σ → Prop} {G G' : σ → ι → Prop}
    (hI : ∀ s i, I s → G' s i → I (step s i)) (hG : ∀ s i, I s → (G s i ↔ G' s i)) {s : σ}
    {l : List ι} (hs : I s) : Meets step G s l ↔ Meets step G' s l := by
  induction l generalizing s with
  | nil => exact Iff.rfl
  | cons i l ih =>
    rw [meets_cons, meets_cons, hG s i hs]
    exact and_congr_right fun hi => ih (hI s i hs hi)

/-- **Exact conditions.** When, below an invariant `I`, a step that meets `D` keeps `P` exactly when
it meets `G`, the states of a run of such steps all satisfy `P` exactly when its steps all meet
`G`. -/
theorem always_iff_meets_of {I P : σ → Prop} {D G : σ → ι → Prop}
    (hI : ∀ s i, I s → D s i → I (step s i))
    (hP : ∀ s i, I s → D s i → P s → (P (step s i) ↔ G s i)) {s : σ} {l : List ι}
    (hl : Meets step D s l) (hs : I s) (hp : P s) : Always step P s l ↔ Meets step G s l := by
  induction l generalizing s with
  | nil => exact iff_of_true hp trivial
  | cons i l ih =>
    constructor
    · intro h
      have hp' : P (step s i) := by cases l with
        | nil => exact h.2
        | cons j l => exact h.2.1
      exact ⟨(hP s i hs hl.1 hp).1 hp', (ih hl.2 (hI s i hs hl.1) hp').1 h.2⟩
    · intro h
      have hp' := (hP s i hs hl.1 hp).2 h.1
      exact ⟨hp, (ih hl.2 (hI s i hs hl.1) hp').2 h.2⟩

theorem always_iff_meets {I P : σ → Prop} {G : σ → ι → Prop} (hI : ∀ s i, I s → I (step s i))
    (hP : ∀ s i, I s → P s → (P (step s i) ↔ G s i)) {s : σ} {l : List ι} (hs : I s) (hp : P s) :
    Always step P s l ↔ Meets step G s l :=
  always_iff_meets_of (D := fun _ _ => True) (fun s i h _ => hI s i h)
    (fun s i h _ hp => hP s i h hp) (meets_of_forall fun _ _ => trivial) hs hp

/-- What is lost and does not come back is missing in the end. -/
theorem not_last_of_lost {I P : σ → Prop} {D : σ → ι → Prop}
    (hI : ∀ s i, I s → D s i → I (step s i))
    (hlost : ∀ s i, I s → D s i → ¬ P s → ¬ P (step s i)) {s : σ} {l : List ι}
    (hl : Meets step D s l) (hs : I s) (hp : ¬ P s) : ¬ P (exec step s l) := by
  induction l generalizing s with
  | nil => exact hp
  | cons i l ih => exact ih hl.2 (hI s i hs hl.1) (hlost s i hs hl.1 hp)

/-- The exact condition for what holds in the end, of a `P` that does not come back. -/
theorem last_iff_meets_of {I P : σ → Prop} {D G : σ → ι → Prop}
    (hI : ∀ s i, I s → D s i → I (step s i))
    (hP : ∀ s i, I s → D s i → P s → (P (step s i) ↔ G s i))
    (hlost : ∀ s i, I s → D s i → ¬ P s → ¬ P (step s i)) {s : σ} {l : List ι}
    (hl : Meets step D s l) (hs : I s) (hp : P s) : P (exec step s l) ↔ Meets step G s l := by
  induction l generalizing s with
  | nil => exact iff_of_true hp trivial
  | cons i l ih =>
    have hs' := hI s i hs hl.1
    rw [meets_cons, ← hP s i hs hl.1 hp]
    by_cases hp' : P (step s i)
    · exact (ih hl.2 hs' hp').trans (iff_and_self.2 fun _ => hp')
    · have hlast := not_last_of_lost hI hlost hl.2 hs' hp'
      exact iff_of_false hlast fun h => hp' h.1

/-! ## Logs -/

section
variable {ω : Type*} (step) (out : σ → ι → List ω)

/-- What the steps of a run emit, in order. -/
def outputs : σ → List ι → List ω
  | _, [] => []
  | s, i :: l => out s i ++ outputs (step s i) l

end

section
variable {ω : Type*} {out : σ → ι → List ω}

theorem outputs_append (s : σ) (l l' : List ι) : outputs step out s (l ++ l') =
    outputs step out s l ++ outputs step out (exec step s l) l' := by
  induction l generalizing s with
  | nil => rfl
  | cons i l ih => rw [List.cons_append, outputs, ih, outputs, List.append_assoc, exec_cons]

/-- What every step keeps of the state, what was emitted and the steps taken holds along every run;
`P` is a condition on the run as a whole. -/
theorem exec_outputs_inv {I : σ → List ω → List ι → Prop} {P : List ι → Prop}
    (hP : ∀ l i, P (l ++ [i]) → P l)
    (hI : ∀ s log l i, I s log l → P (l ++ [i]) → I (step s i) (log ++ out s i) (l ++ [i]))
    {s : σ} {l : List ι} (hs : I s [] []) (hl : P l) :
    I (exec step s l) (outputs step out s l) l := by
  induction l using List.reverseRecOn with
  | nil => exact hs
  | append_singleton l i ih =>
    rw [exec_append, outputs_append]
    simpa [outputs] using hI _ _ l i (ih (hP l i hl)) hl

end

section
variable {ω : Type*} {out : σ → ι → List ω} {I S : σ → Prop} {f : ω → Bool}
  (hI : ∀ s i, I s → I (step s i))
  (hspent : ∀ s i, I s → S s → (out s i).countP f = 0 ∧ S (step s i))
include hI hspent

theorem countP_outputs_spent {s : σ} (hs : I s) (h : S s) (l : List ι) :
    (outputs step out s l).countP f = 0 := by
  induction l generalizing s with
  | nil => rfl
  | cons i l ih =>
    obtain ⟨hzero, h⟩ := hspent s i hs h
    rw [outputs, List.countP_append, hzero, ih (hI s i hs) h]

theorem countP_outputs_le_one
    (honce : ∀ s i, I s → (out s i).countP f ≤ 1 ∧ (0 < (out s i).countP f → S (step s i)))
    {s : σ} (hs : I s) (l : List ι) : (outputs step out s l).countP f ≤ 1 := by
  induction l generalizing s with
  | nil => exact Nat.zero_le 1
  | cons i l ih =>
    obtain ⟨hle, hpos⟩ := honce s i hs
    rw [outputs, List.countP_append]
    rcases Nat.eq_zero_or_pos ((out s i).countP f) with hzero | hone
    · rw [hzero, Nat.zero_add]
      exact ih (hI s i hs)
    · rw [countP_outputs_spent hI hspent (hI s i hs) (hpos hone) l]
      exact hle

end

end Runs
