import Mathlib.Data.List.GetD

/-!
# Checked reads

Code that reads a buffer by index, as a computation that fails where an index is outside the buffer
or a loop has not ended when its fuel is spent. A computation that returns has read in bounds and
ended; `Returns` says that one does, and `returns_bind` and `returns_mapM` when a composed one does.
-/

namespace Checked

/-- What stops a checked computation. -/
inductive Fault
  | outOfBounds (i : Nat)
  | outOfFuel
deriving DecidableEq, Repr

universe u

/-- A value, or the fault that came before it. -/
abbrev Result (β : Type u) := Except Fault β

variable {α β γ : Type u} {buf : List α} {i n : Nat}

/-- `buf[i]`. -/
def read (buf : List α) (i : Nat) : Result α :=
  match buf[i]? with
  | some a => .ok a
  | none => .error (.outOfBounds i)

/-- The `n` elements from `i` on, as a copy reads them. -/
def readSlice (buf : List α) (i n : Nat) : Result (List α) :=
  if i + n ≤ buf.length then .ok ((buf.drop i).take n) else .error (.outOfBounds (i + n - 1))

/-- The computation reads in bounds and ends. -/
def Returns (x : Result β) : Prop := ∃ b, x = .ok b

theorem read_ok (h : i < buf.length) (d : α) : read buf i = .ok (buf.getD i d) := by
  rw [read, List.getElem?_eq_getElem h, List.getD_eq_getElem _ _ h]

theorem read_error (h : buf.length ≤ i) : read buf i = .error (.outOfBounds i) := by
  rw [read, List.getElem?_eq_none h]

theorem readSlice_ok (h : i + n ≤ buf.length) :
    readSlice buf i n = .ok ((buf.drop i).take n) := if_pos h

theorem ok_bind (b : β) (f : β → Result γ) : (Except.ok b >>= f) = f b := rfl

@[simp] theorem returns_ok (b : β) : Returns (.ok b : Result β) := ⟨b, rfl⟩

@[simp] theorem not_returns_error (e : Fault) : ¬ Returns (.error e : Result β) := by
  rintro ⟨b, h⟩
  cases h

theorem returns_read : Returns (read buf i) ↔ i < buf.length := by
  constructor
  · intro h
    refine Nat.lt_of_not_le fun hi => ?_
    rw [read_error hi] at h
    exact not_returns_error _ h
  · intro h
    rw [read, List.getElem?_eq_getElem h]
    exact returns_ok _

theorem returns_bind {x : Result β} {f : β → Result γ} :
    Returns (x >>= f) ↔ ∃ b, x = .ok b ∧ Returns (f b) := by
  cases x with
  | error e => exact ⟨fun h => absurd h (not_returns_error e), fun ⟨_, h, _⟩ => by cases h⟩
  | ok b => exact ⟨fun h => ⟨b, rfl, h⟩, fun ⟨_, h, h'⟩ => by cases h; exact h'⟩

@[simp] theorem returns_bind_ok {x : Result β} {f : β → γ} :
    Returns (x >>= fun b => .ok (f b)) ↔ Returns x := by
  rw [returns_bind]
  exact exists_congr fun b => and_iff_left (returns_ok (f b))

/-! ## A computation for each element of a list -/

variable {l : List α} {f : α → Result β}

theorem returns_mapM : Returns (l.mapM f) ↔ ∀ x ∈ l, Returns (f x) := by
  induction l with
  | nil => simp [pure, Except.pure]
  | cons x l ih =>
    rw [List.mapM_cons, List.forall_mem_cons, ← ih, returns_bind]
    constructor
    · rintro ⟨b, hb, hrest⟩
      exact ⟨⟨b, hb⟩, returns_bind_ok.1 hrest⟩
    · rintro ⟨⟨b, hb⟩, hrest⟩
      exact ⟨b, hb, returns_bind_ok.2 hrest⟩

theorem mapM_ok {g : α → β} (h : ∀ x ∈ l, f x = .ok (g x)) : l.mapM f = .ok (l.map g) := by
  induction l with
  | nil => rfl
  | cons x l ih =>
    rw [List.forall_mem_cons] at h
    rw [List.mapM_cons, h.1, ok_bind, ih h.2]
    rfl

end Checked
