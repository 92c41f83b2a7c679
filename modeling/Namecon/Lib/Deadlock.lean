import Mathlib.Data.DFinsupp.WellFounded
import Mathlib.SetTheory.Ordinal.Family
import Namecon.Lib.Fairness
import Namecon.Lib.Locks

/-!
# Locks taken in order

`Prog.Ordered`: a program asks for a lock only while every lock it holds has a lower rank, gives
back only what it holds, and all of it in the end. Threads that do so never wait for each other in a
circle (`Ordered.not_stuck`). A program is a well-founded tree, so in a schedule in which every
thread has turns again and again all of them end (`all_finish`).
-/

namespace Locks

open Function (update)
open Runs (exec upTo)

variable {ι L σ ε α β : Type}

namespace Prog

section
variable (rank : L → ℕ)

/-- With the locks `held`, the program keeps the order and ends with locks that satisfy `Q`. -/
def Ordered : Prog L σ ε α → (L → Prop) → ((L → Prop) → Prop) → Prop
  | ret _, held, Q => Q held
  | act _ _ next, held, Q => ∀ s, (next s).Ordered held Q
  | note _ next, held, Q => next.Ordered held Q
  | lock m _ next, held, Q =>
    (∀ m', held m' → rank m' < rank m) ∧ next.Ordered (fun m' => m' = m ∨ held m') Q
  | unlock m next, held, Q => held m ∧ next.Ordered (fun m' => m' ≠ m ∧ held m') Q

/-- The program keeps the order and gives back the locks it takes. -/
def Balanced (held : L → Prop) (p : Prog L σ ε α) : Prop := p.Ordered rank held fun h => h = held

end

variable {rank : L → ℕ} {held : L → Prop} {p : Prog L σ ε α} {f : α → Prog L σ ε β}

theorem Ordered.bind {Q Q' : (L → Prop) → Prop} (h : p.Ordered rank held Q)
    (hf : ∀ a held', Q held' → (f a).Ordered rank held' Q') : (p.bind f).Ordered rank held Q' := by
  induction p generalizing held with
  | ret a => exact hf a held h
  | act ok upd next ih => exact fun s => ih s (h s)
  | note e next ih => exact ih h
  | lock m mode next ih => exact ⟨h.1, ih h.2⟩
  | unlock m next ih => exact ⟨h.1, ih h.2⟩

theorem Ordered.mono {Q Q' : (L → Prop) → Prop} (h : p.Ordered rank held Q)
    (hQ : ∀ held', Q held' → Q' held') : p.Ordered rank held Q' := by
  have hret := h.bind (f := ret) fun a held' => hQ held'
  rwa [bind_ret] at hret

theorem Balanced.bind (h : p.Balanced rank held) (hf : ∀ a, (f a).Balanced rank held) :
    (p.bind f).Balanced rank held :=
  Ordered.bind h fun a held' he => by subst he; exact hf a

theorem balanced_ret (a : α) : (ret a : Prog L σ ε α).Balanced rank held := rfl

theorem balanced_loadIf (ok : σ → Bool) (f : σ → α) :
    (loadIf ok f : Prog L σ ε α).Balanced rank held :=
  fun _ => rfl

theorem balanced_storeIf (ok : σ → Bool) (upd : σ → σ) :
    (storeIf ok upd : Prog L σ ε Unit).Balanced rank held :=
  fun _ => rfl

theorem balanced_store (upd : σ → σ) : (store upd : Prog L σ ε Unit).Balanced rank held :=
  balanced_storeIf _ upd

theorem balanced_fold {f : α → β → Prog L σ ε α} (h : ∀ a x, (f a x).Balanced rank held)
    (xs : List β) (a : α) : (fold f xs a).Balanced rank held := by
  induction xs generalizing a with
  | nil => rfl
  | cons x xs ih => exact (h a x).bind ih

theorem balanced_forEach {f : β → Prog L σ ε Unit} (xs : List β)
    (h : ∀ x, (f x).Balanced rank held) : (forEach xs f).Balanced rank held :=
  balanced_fold (fun _ => h) xs ()

theorem balanced_find {f : β → Prog L σ ε Bool} (h : ∀ x, (f x).Balanced rank held)
    (xs : List β) : (find f xs).Balanced rank held := by
  induction xs with
  | nil => rfl
  | cons x xs ih =>
    refine (h x).bind fun found => ?_
    cases found with
    | true => rfl
    | false => exact ih

/-- A lock that is taken for a block, above the locks that are held. -/
theorem Balanced.withLock {m : L} {mode : Mode} (hm : ∀ m', held m' → rank m' < rank m)
    (h : p.Balanced rank fun m' => m' = m ∨ held m') : (withLock m mode p).Balanced rank held := by
  refine ⟨hm, Ordered.bind h fun a held' he => ?_⟩
  subst he
  refine ⟨.inl rfl, funext fun m' => propext ⟨fun h => h.2.resolve_left h.1, fun h => ⟨?_, .inr h⟩⟩⟩
  rintro rfl
  exact absurd (hm _ ‹held _›) (lt_irrefl _)

theorem balanced_critical {m : L} {mode : Mode} (hm : ∀ m', held m' → rank m' < rank m)
    (h : p.Balanced rank fun m' => m' = m ∨ held m') (event : α → Option ε) :
    (critical m mode p event).Balanced rank held := by
  refine Balanced.withLock hm (h.bind fun a => ?_)
  cases event a with
  | none => rfl
  | some e => rfl

/-- How long the program can go on. -/
noncomputable def depth : Prog L σ ε α → Ordinal.{0}
  | ret _ => 0
  | act _ _ next => ⨆ s, (next s).depth + 1
  | note _ next => next.depth + 1
  | lock _ _ next => next.depth + 1
  | unlock _ next => next.depth + 1

end Prog

namespace Pool

variable {c : Pool ι L σ ε} {i j : ι} {m : L} {mode : Mode}

/-- Thread `i` has returned. -/
def Finished (c : Pool ι L σ ε) (i : ι) : Prop := c.prog i = .ret ()

/-- The thread waits for a lock. -/
def Blocked (c : Pool ι L σ ε) (i : ι) : Prop :=
  ∃ m mode next, c.prog i = .lock m mode next ∧ ¬ c.Free m mode

/-- Every thread keeps the order with the locks it holds. -/
def Ordered (rank : L → ℕ) (c : Pool ι L σ ε) : Prop :=
  ∀ i, (c.prog i).Ordered rank (fun m => ∃ mode, (i, mode) ∈ c.held m) fun held => ∀ m, ¬ held m

variable {rank : L → ℕ}

/-- Who waits for a lock waits for a thread that holds it and has not ended. -/
theorem Ordered.holder (h : c.Ordered rank) (hfree : ¬ c.Free m mode) :
    ∃ j, ¬ c.Finished j ∧ ∃ mode, (j, mode) ∈ c.held m := by
  unfold Free at hfree
  push Not at hfree
  obtain ⟨⟨j, mode'⟩, hmem, -⟩ := hfree
  refine ⟨j, fun hfin => ?_, mode', hmem⟩
  have hj := h j
  rw [hfin] at hj
  exact hj m ⟨mode', hmem⟩

/-- **No circular wait.** While a thread has something to do, some thread can go on. -/
theorem Ordered.not_stuck [Finite L] (h : c.Ordered rank) (hi : ¬ c.Finished i) :
    ∃ j, ¬ c.Finished j ∧ ¬ c.Blocked j := by
  by_contra hno
  push Not at hno
  -- each lock waited for has a holder that waits for a lock of higher rank
  have hup : ∀ n : ℕ, ∃ m : L, n ≤ rank m ∧ ∃ j mode next, c.prog j = .lock m mode next ∧
      ¬ c.Free m mode := by
    intro n
    induction n with
    | zero =>
      obtain ⟨m, mode, next, hp, hfree⟩ := hno i hi
      exact ⟨m, Nat.zero_le _, i, mode, next, hp, hfree⟩
    | succ n ih =>
      obtain ⟨m, hm, j, mode, next, hp, hfree⟩ := ih
      obtain ⟨k, hk, hheld⟩ := h.holder hfree
      obtain ⟨m', mode', next', hp', hfree'⟩ := hno k hk
      have hordered := h k
      rw [hp'] at hordered
      exact ⟨m', Nat.lt_of_le_of_lt hm (hordered.1 m hheld), k, mode', next', hp', hfree'⟩
  obtain ⟨bound, hbound⟩ := (Set.finite_range rank).bddAbove
  obtain ⟨m, hm, -⟩ := hup (bound + 1)
  have hle : rank m ≤ bound := hbound (Set.mem_range_self m)
  omega

/-- How long the threads can go on. -/
noncomputable def depth (c : Pool ι L σ ε) (j : ι) : Ordinal.{0} :=
  if c.crashed then 0 else (c.prog j).depth

theorem depth_of_crashed (h : c.crashed = true) (j : ι) : c.depth j = 0 := if_pos h

theorem depth_of_running (h : ¬ c.crashed = true) (j : ι) : c.depth j = (c.prog j).depth := if_neg h

/-! ## Turns -/

variable [DecidableEq ι]

/-- What the thread `i` does leaves the others the locks they hold. -/
theorem Ordered.other (h : c.Ordered rank) {s : σ} {p : Prog L σ ε Unit}
    {held : L → List (ι × Mode)} {notes : List (ι × ε)} {crashed : Bool}
    (hi : p.Ordered rank (fun m => ∃ mode, (i, mode) ∈ held m) fun held => ∀ m, ¬ held m)
    (hother : ∀ j ≠ i, ∀ m mode, (j, mode) ∈ held m ↔ (j, mode) ∈ c.held m) :
    Ordered rank ⟨s, update c.prog i p, held, notes, crashed⟩ := by
  intro j
  by_cases hj : j = i
  · subst hj
    dsimp only
    rw [Function.update_self]
    exact hi
  · dsimp only
    rw [Function.update_of_ne hj]
    simp only [hother j hj]
    exact h j

variable [DecidableEq L]

theorem Ordered.turn (h : c.Ordered rank) (i : ι) : (c.turn i).Ordered rank := by
  have hi := h i
  unfold Pool.turn
  cases hp : c.prog i with
  | ret a => exact h
  | act ok upd next =>
    rw [hp] at hi
    dsimp only
    split
    · exact h.other (hi c.shared) fun _ _ _ _ => Iff.rfl
    · exact h
  | note e next =>
    rw [hp] at hi
    exact h.other hi fun _ _ _ _ => Iff.rfl
  | lock m mode next =>
    rw [hp] at hi
    dsimp only
    split
    · refine h.other (cast (congrArg (fun held => next.Ordered rank held _) ?_) hi.2)
        fun j hj m' mode' => ?_
      · refine funext fun m' => propext ?_
        by_cases hm : m' = m
        · subst hm
          rw [Function.update_self]
          exact ⟨fun _ => ⟨mode, .head _⟩, fun _ => .inl rfl⟩
        · rw [Function.update_of_ne hm]
          exact ⟨fun h => h.resolve_left hm, .inr⟩
      · by_cases hm : m' = m
        · subst hm
          rw [Function.update_self, List.mem_cons]
          exact or_iff_right fun he => hj (congrArg Prod.fst he)
        · rw [Function.update_of_ne hm]
    · exact h
  | unlock m next =>
    rw [hp] at hi
    refine h.other (cast (congrArg (fun held => next.Ordered rank held _) ?_) hi.2)
      fun j hj m' mode' => ?_
    · refine funext fun m' => propext ?_
      by_cases hm : m' = m
      · subst hm
        simp
      · simp [hm]
    · by_cases hm : m' = m
      · subst hm
        rw [Function.update_self, List.mem_filter]
        exact and_iff_left (by simpa using hj)
      · rw [Function.update_of_ne hm]

theorem Ordered.step (h : c.Ordered rank) (i : ι) : (c.step i).Ordered rank :=
  Pool.step_inv h (h.turn i)

/-- A turn of a thread that is not blocked brings it nearer to its end, or the run is at its end. -/
theorem depth_step (hrun : ¬ c.crashed = true) (hi : ¬ c.Finished i) (hfree : ¬ c.Blocked i) :
    (c.step i).depth < c.depth := by
  have hcrash : 0 < (c.prog i).depth → Pool.depth { c with crashed := true } < c.depth := fun hp =>
    Pi.lt_def.2 ⟨fun j => (depth_of_crashed rfl j).trans_le zero_le, i,
      ((depth_of_crashed rfl i).trans_lt hp).trans_eq (depth_of_running hrun i).symm⟩
  have hlt : ∀ (s : σ) (p : Prog L σ ε Unit) (held : L → List (ι × Mode)) (notes : List (ι × ε)),
      p.depth < (c.prog i).depth →
        depth ⟨s, update c.prog i p, held, notes, c.crashed⟩ < c.depth := fun s p held notes hp => by
    have hrunning : ∀ j, depth ⟨s, update c.prog i p, held, notes, c.crashed⟩ j =
        (update c.prog i p j).depth := fun j => if_neg hrun
    refine Pi.lt_def.2 ⟨fun j => ?_, i, ?_⟩
    · rw [hrunning, depth_of_running hrun]
      by_cases hj : j = i
      · subst hj
        dsimp only
        rw [Function.update_self]
        exact hp.le
      · dsimp only
        rw [Function.update_of_ne hj]
    · rw [hrunning, depth_of_running hrun, Function.update_self]
      exact hp
  rw [step_eq_turn hrun]
  unfold turn
  cases hp : c.prog i with
  | ret a => exact absurd hp hi
  | act ok upd next =>
    have hbelow : (next c.shared).depth < (c.prog i).depth := by
      rw [hp]
      exact Ordinal.lt_iSup_add_one (fun s => (next s).depth) c.shared
    dsimp only
    split
    · exact hlt _ _ _ _ hbelow
    · exact hcrash (zero_le.trans_lt hbelow)
  | note e next =>
    refine hlt _ _ _ _ ?_
    rw [hp]
    exact lt_add_one _
  | lock m mode next =>
    dsimp only
    rw [if_pos (by_contra fun hn => hfree ⟨m, mode, next, hp, hn⟩)]
    refine hlt _ _ _ _ ?_
    rw [hp]
    exact lt_add_one _
  | unlock m next =>
    refine hlt _ _ _ _ ?_
    rw [hp]
    exact lt_add_one _

theorem step_of_stuck (h : c.Finished i ∨ c.Blocked i) : c.step i = c := by
  refine step_inv (I := fun c' => c' = c) rfl ?_
  unfold turn
  rcases h with hp | ⟨m, mode, next, hp, hfree⟩
  · rw [show c.prog i = .ret () from hp]
  · rw [hp]
    exact if_neg hfree

/-- **All threads end** in every schedule in which each has turns again and again, if the run does
not end at an undefined access. -/
theorem all_finish [Finite ι] [Finite L] (h : c.Ordered rank) (sched : ℕ → ι)
    (hfair : ∀ i n, ∃ k, n ≤ k ∧ sched k = i) :
    ∃ n, (exec step c (upTo sched n)).crashed = true ∨
      ∀ i, (exec step c (upTo sched n)).Finished i := by
  have hprogress : Runs.Progress (σ := Pool ι L σ ε) step (fun _ => True) (Ordered rank) id
      depth (fun i k => k = i) fun c => c.crashed = true ∨ ∀ i, c.Finished i := {
    inv := fun c i h _ => h.step i
    descends := fun c i _ _ => by
      by_cases hcrashed : c.crashed = true
      · exact .inl (step_of_crashed hcrashed i)
      by_cases hstuck : c.Finished i ∨ c.Blocked i
      · exact .inl (step_of_stuck hstuck)
      · exact .inr (depth_step hcrashed (fun h => hstuck (.inl h)) fun h => hstuck (.inr h))
    moves := fun c h hdone => by
      obtain ⟨hrun, hdone⟩ := not_or.1 hdone
      obtain ⟨i, hi⟩ := not_forall.1 hdone
      obtain ⟨j, hj, hfree⟩ := h.not_stuck hi
      refine ⟨j, fun c' k _ hc' _ hk => ?_⟩
      obtain rfl : c' = c := hc'
      subst hk
      exact depth_step hrun hj hfree }
  exact hprogress.reaches h sched (fun _ => trivial) hfair

end Pool

end Locks
