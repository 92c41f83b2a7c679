import Mathlib.Data.List.Basic

/-!
# Loops in rounds

A loop over states of any kind: it ends at the first state that does not fit and goes on at `next`
otherwise, where less is `left` to do. `visits s` are the states in which its rounds begin, from `s`
on.

* `walk_fuel`: fuel for what is left is enough.
* `visits_cons`, `visits_stop`: what one round does; `fits_induction` is induction over the rounds.
-/

universe u

/-- A loop: `Fits` is its condition, `next` its body, and `left` bounds the rounds to come. -/
structure Rounds (σ : Type u) where
  Fits : σ → Prop
  next : σ → σ
  left : σ → Nat
  left_next : ∀ s, Fits s → left (next s) < left s
  decFits : DecidablePred Fits

namespace Rounds

attribute [instance] Rounds.decFits

variable {σ : Type u} {L : Rounds σ} {s : σ} {n m : Nat}

/-- The states at which the body starts, `fuel` of them at most. -/
def walk (L : Rounds σ) : Nat → σ → List σ
  | 0, _ => []
  | fuel + 1, s => if L.Fits s then s :: walk L fuel (L.next s) else []

/-- All states at which the body starts. -/
def visits (L : Rounds σ) (s : σ) : List σ := L.walk (L.left s) s

theorem walk_stop (h : ¬ L.Fits s) (n : Nat) : L.walk n s = [] := by
  cases n with
  | zero => rfl
  | succ n => rw [walk, if_neg h]

theorem not_fits_of_left_le (h : L.left s ≤ 0) : ¬ L.Fits s := fun hfits =>
  Nat.not_lt.2 h (Nat.lt_of_le_of_lt (Nat.zero_le _) (L.left_next s hfits))

theorem walk_fuel (hn : L.left s ≤ n) (hm : L.left s ≤ m) : L.walk n s = L.walk m s := by
  induction n generalizing m s with
  | zero =>
    have hstop := not_fits_of_left_le hn
    rw [walk_stop hstop, walk_stop hstop]
  | succ n ih =>
    cases m with
    | zero =>
      have hstop := not_fits_of_left_le hm
      rw [walk_stop hstop, walk_stop hstop]
    | succ m =>
      rw [walk, walk]
      split
      · rename_i h
        have hlt := L.left_next s h
        rw [ih (m := m) (by omega) (by omega)]
      · rfl

theorem visits_cons (h : L.Fits s) : L.visits s = s :: L.visits (L.next s) := by
  have hlt := L.left_next s h
  obtain ⟨n, hn⟩ : ∃ n, L.left s = n + 1 := ⟨L.left s - 1, by omega⟩
  rw [visits, hn, walk, if_pos h, walk_fuel (m := L.left (L.next s)) (by omega) (Nat.le_refl _)]
  rfl

theorem visits_stop (h : ¬ L.Fits s) : L.visits s = [] := walk_stop h _

/-- Induction over the rounds of the loop. -/
theorem fits_induction (L : Rounds σ) {motive : σ → Prop}
    (stop : ∀ s, ¬ L.Fits s → motive s)
    (round : ∀ s, L.Fits s → motive (L.next s) → motive s) (s : σ) : motive s := by
  induction hn : L.left s using Nat.strongRecOn generalizing s with
  | ind n ih =>
    by_cases h : L.Fits s
    · exact round s h (ih _ (by rw [← hn]; exact L.left_next s h) _ rfl)
    · exact stop s h

end Rounds
