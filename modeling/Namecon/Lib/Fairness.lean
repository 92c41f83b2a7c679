import Mathlib.Order.WellFounded
import Namecon.Lib.Runs

/-!
# Fair schedules

An endless run of a system in which parties take turns. `Progress` says that a step leaves a part of
the state alone (`view`) or lowers its rank, and that, until the view is `Done`, some party lowers
the rank with its next turn, whenever that comes. A schedule in which every party has turns again
and again then ends in a state that is done (`Progress.reaches`), in whatever order the turns come.
-/

namespace Runs

variable {σ ι κ β α : Type*}

/-- The first `n` steps of a schedule. -/
def upTo (ops : ℕ → ι) (n : ℕ) : List ι := (List.range n).map ops

theorem upTo_add (ops : ℕ → ι) (m n : ℕ) :
    upTo ops (m + n) = upTo ops m ++ upTo (fun i => ops (m + i)) n := by
  unfold upTo
  rw [List.range_add, List.map_append, List.map_map]
  rfl

theorem upTo_succ (ops : ℕ → ι) (n : ℕ) : upTo ops (n + 1) = upTo ops n ++ [ops n] :=
  upTo_add ops n 1

/-- `G` are the labels of the schedule, `I` is an invariant, `turn k` are the turns of `k`. -/
structure Progress [LT α] (step : σ → ι → σ) (G : ι → Prop) (I : σ → Prop) (view : σ → β)
    (rank : β → α) (turn : κ → ι → Prop) (Done : β → Prop) : Prop where
  inv : ∀ s i, I s → G i → I (step s i)
  descends : ∀ s i, I s → G i →
    view (step s i) = view s ∨ rank (view (step s i)) < rank (view s)
  moves : ∀ s, I s → ¬ Done (view s) → ∃ k, ∀ s' i, I s' → view s' = view s → G i → turn k i →
    rank (view (step s' i)) < rank (view s)

section

variable [Preorder α] {step : σ → ι → σ} {G : ι → Prop} {I : σ → Prop} {view : σ → β}
  {rank : β → α} {turn : κ → ι → Prop} {Done : β → Prop}

/-- A step of a schedule that has not yet lowered the rank leaves it with the view it had. -/
theorem Progress.view_or_lower (h : Progress step G I view rank turn Done) {s : σ} (hs : I s)
    {ops : ℕ → ι} (hops : ∀ n, G (ops n)) (n : ℕ) : I (exec step s (upTo ops n)) ∧
      (view (exec step s (upTo ops n)) = view s ∨
        ∃ m ≤ n, rank (view (exec step s (upTo ops m))) < rank (view s)) := by
  induction n with
  | zero => exact ⟨hs, .inl rfl⟩
  | succ n ih =>
    obtain ⟨hinv, hview⟩ := ih
    rw [upTo_succ, exec_append]
    refine ⟨h.inv _ _ hinv (hops n), ?_⟩
    rcases hview with hview | ⟨m, hm, hlow⟩
    · rcases h.descends _ _ hinv (hops n) with hsame | hlow
      · exact .inl (hsame.trans hview)
      · refine .inr ⟨n + 1, le_refl _, ?_⟩
        rw [upTo_succ, exec_append, ← hview]
        exact hlow
    · exact .inr ⟨m, Nat.le_succ_of_le hm, hlow⟩

/-- **A fair schedule gets there.** -/
theorem Progress.reaches [WellFoundedLT α] (h : Progress step G I view rank turn Done) {s : σ}
    (hs : I s) (ops : ℕ → ι) (hops : ∀ n, G (ops n))
    (hfair : ∀ k n, ∃ m, n ≤ m ∧ turn k (ops m)) :
    ∃ n, Done (view (exec step s (upTo ops n))) := by
  induction hr : rank (view s) using WellFoundedLT.induction generalizing s ops with
  | ind r ih =>
    by_cases hdone : Done (view s)
    · exact ⟨0, hdone⟩
    · -- the rank is lower when the party that can move has had its turn
      have hlow : ∃ m, rank (view (exec step s (upTo ops m))) < rank (view s) := by
        obtain ⟨k, hk⟩ := h.moves s hs hdone
        obtain ⟨m, -, hm⟩ := hfair k 0
        obtain ⟨hinv, hview | ⟨m', -, hlow⟩⟩ := h.view_or_lower hs hops m
        · refine ⟨m + 1, ?_⟩
          rw [upTo_succ, exec_append]
          exact hk _ _ hinv hview (hops m) hm
        · exact ⟨m', hlow⟩
      obtain ⟨m, hlow⟩ := hlow
      obtain ⟨n, hn⟩ := ih _ (hr ▸ hlow) (h.view_or_lower hs hops m).1 (fun i => ops (m + i))
        (fun n => hops (m + n))
        (fun k n => by
          obtain ⟨m', hle, hm'⟩ := hfair k (m + n)
          obtain ⟨i, rfl⟩ := Nat.exists_eq_add_of_le (Nat.le_trans (Nat.le_add_right m n) hle)
          exact ⟨i, by omega, hm'⟩) rfl
      exact ⟨m + n, by rw [upTo_add, exec_append]; exact hn⟩

end

end Runs
