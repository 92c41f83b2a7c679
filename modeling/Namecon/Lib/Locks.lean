import Mathlib.Logic.Function.Basic
import Namecon.Lib.Runs

/-!
# Threads that share a state under locks

`Prog` is what a thread still has to do: accesses to the shared state, each of which may look at the
state to decide how it goes on, the operations of reader-writer locks, and notes, which record an
event and change nothing. An access may be undefined in a state, as one to an object that has been
destroyed. `Pool` is a number of threads; a step is a turn of one of them, which does nothing while
the lock it asks for is not free. With an access that is undefined the run is at its end.

`Prog.run` is a program on its own. `Prog.Emits` speaks of the events that a program notes on any of
its ways, and `Pool.emits_exec` says that these are the ones a thread notes, whatever the schedule.
-/

namespace Locks

open Function (update)
open Runs (exec)

/-- How a lock is taken: together with other readers, or alone. -/
inductive Mode
  | shared
  | exclusive
deriving DecidableEq, Repr

/-- A program on the shared state `σ` with the locks `L`, the events `ε` and a result. An access
`act` is defined where `ok` says so. -/
inductive Prog (L σ ε α : Type) : Type
  | ret (a : α)
  | act (ok : σ → Bool) (upd : σ → σ) (next : σ → Prog L σ ε α)
  | note (e : ε) (next : Prog L σ ε α)
  | lock (m : L) (mode : Mode) (next : Prog L σ ε α)
  | unlock (m : L) (next : Prog L σ ε α)

variable {ι L σ ε α β : Type}

namespace Prog

/-- The program, and behind it what `f` makes of its value. -/
def bind : Prog L σ ε α → (α → Prog L σ ε β) → Prog L σ ε β
  | ret a, f => f a
  | act ok upd next, f => act ok upd fun s => (next s).bind f
  | note e next, f => note e (next.bind f)
  | lock m mode next, f => lock m mode (next.bind f)
  | unlock m next, f => unlock m (next.bind f)

instance : Monad (Prog L σ ε) where
  pure := ret
  bind := bind

theorem bind_ret (p : Prog L σ ε α) : p.bind ret = p := by
  induction p with
  | ret a => rfl
  | act ok upd next ih => exact congrArg (act ok upd) (funext ih)
  | note e next ih => exact congrArg (note e) ih
  | lock m mode next ih => exact congrArg (lock m mode) ih
  | unlock m next ih => exact congrArg (unlock m) ih

/-- A look at the shared state. -/
def load (f : σ → α) : Prog L σ ε α := act (fun _ => true) id fun s => ret (f s)

/-- A look that is defined where `ok` says so. -/
def loadIf (ok : σ → Bool) (f : σ → α) : Prog L σ ε α := act ok id fun s => ret (f s)

/-- An access that writes. -/
def store (upd : σ → σ) : Prog L σ ε Unit := act (fun _ => true) upd fun _ => ret ()

/-- A change that is defined where `ok` says so. -/
def storeIf (ok : σ → Bool) (upd : σ → σ) : Prog L σ ε Unit := act ok upd fun _ => ret ()

/-- What is undefined in every state. -/
def crash : Prog L σ ε Unit := act (fun _ => false) id fun _ => ret ()

/-- Records an event; the memory stays as it is. -/
def emit (e : ε) : Prog L σ ε Unit := note e (ret ())

/-- `std::lock_guard`, and the wrappers like it. -/
def withLock (m : L) (mode : Mode) (body : Prog L σ ε α) : Prog L σ ε α :=
  lock m mode (body.bind fun a => unlock m (ret a))

/-- A loop over a list that carries a value on. -/
def fold (f : α → β → Prog L σ ε α) : List β → α → Prog L σ ε α
  | [], a => ret a
  | x :: xs, a => (f a x).bind (fold f xs)

/-- A loop over `xs`. -/
def forEach (xs : List β) (f : β → Prog L σ ε Unit) : Prog L σ ε Unit :=
  fold (fun _ => f) xs ()

/-- A loop that ends at the first element that passes the test. -/
def find (f : β → Prog L σ ε Bool) : List β → Prog L σ ε (Option β)
  | [] => ret none
  | x :: xs => (f x).bind fun found => if found then ret (some x) else find f xs

/-- A section under `g`: the block, and the event that its result stands for, if any. -/
def critical (g : L) (mode : Mode) (body : Prog L σ ε α) (event : α → Option ε) : Prog L σ ε α :=
  withLock g mode (body.bind fun a => ((event a).elim (ret ()) emit).bind fun _ => ret a)

/-! ## A program on its own -/

/-- The state and the result when no other thread is there and every access is defined. -/
def run : Prog L σ ε α → σ → σ × α
  | ret a, s => (s, a)
  | act _ upd next, s => (next s).run (upd s)
  | note _ next, s => next.run s
  | lock _ _ next, s => next.run s
  | unlock _ next, s => next.run s

@[simp] theorem run_bind (p : Prog L σ ε α) (f : α → Prog L σ ε β) (s : σ) :
    (p.bind f).run s = (f (p.run s).2).run (p.run s).1 := by
  induction p generalizing s with
  | ret a => rfl
  | act ok upd next ih => exact ih s (upd s)
  | note e next ih => exact ih s
  | lock m mode next ih => exact ih s
  | unlock m next ih => exact ih s

@[simp] theorem run_withLock (m : L) (mode : Mode) (body : Prog L σ ε α) (s : σ) :
    (withLock m mode body).run s = body.run s := by
  change (body.bind _).run s = _
  rw [run_bind]
  rfl

@[simp] theorem run_critical (g : L) (mode : Mode) (body : Prog L σ ε α) (event : α → Option ε)
    (s : σ) : (critical g mode body event).run s = body.run s := by
  unfold critical
  rw [run_withLock, run_bind, run_bind]
  cases event (body.run s).2 <;> rfl

@[simp] theorem run_fold_nil (f : α → β → Prog L σ ε α) (a : α) (s : σ) :
    (fold f [] a).run s = (s, a) := rfl

@[simp] theorem run_fold_cons (f : α → β → Prog L σ ε α) (x : β) (xs : List β) (a : α) (s : σ) :
    (fold f (x :: xs) a).run s = (fold f xs ((f a x).run s).2).run ((f a x).run s).1 :=
  run_bind _ _ s

/-- A fold whose rounds only look is that of the list. -/
theorem run_fold (f : α → β → Prog L σ ε α) (g : α → β → α) (xs : List β) (a : α) (s : σ)
    (h : ∀ a x, (f a x).run s = (s, g a x)) : (fold f xs a).run s = (s, xs.foldl g a) := by
  induction xs generalizing a with
  | nil => rfl
  | cons x xs ih => rw [run_fold_cons, h, ih, List.foldl_cons]

/-- A search whose test only looks is that of the list. -/
theorem run_find (f : β → Prog L σ ε Bool) (g : β → Bool) (xs : List β) (s : σ)
    (h : ∀ x, (f x).run s = (s, g x)) : (find f xs).run s = (s, xs.find? g) := by
  induction xs with
  | nil => rfl
  | cons x xs ih =>
    rw [find, run_bind, h, List.find?_cons]
    cases g x with
    | true => rfl
    | false => exact ih

/-! ## What a program notes -/

/-- Each way through the program ends with a result and a list of events that satisfy `Q`. -/
def Emits : Prog L σ ε α → (α → List ε → Prop) → Prop
  | ret a, Q => Q a []
  | act _ _ next, Q => ∀ s, (next s).Emits Q
  | note e next, Q => next.Emits fun a es => Q a (e :: es)
  | lock _ _ next, Q => next.Emits Q
  | unlock _ next, Q => next.Emits Q

theorem Emits.bind {p : Prog L σ ε α} {f : α → Prog L σ ε β} {Q : α → List ε → Prop}
    {Q' : β → List ε → Prop} (h : p.Emits Q)
    (hf : ∀ a es, Q a es → (f a).Emits fun b es' => Q' b (es ++ es')) : (p.bind f).Emits Q' := by
  induction p generalizing Q Q' with
  | ret a => exact hf a [] h
  | act ok upd next ih => exact fun s => ih s (h s) hf
  | note e next ih => exact ih h fun a es => hf a (e :: es)
  | lock m mode next ih => exact ih h hf
  | unlock m next ih => exact ih h hf

theorem Emits.mono {p : Prog L σ ε α} {Q Q' : α → List ε → Prop} (h : p.Emits Q)
    (hQ : ∀ a es, Q a es → Q' a es) : p.Emits Q' := by
  induction p generalizing Q Q' with
  | ret a => exact hQ a [] h
  | act ok upd next ih => exact fun s => ih s (h s) hQ
  | note e next ih => exact ih h fun a es => hQ a (e :: es)
  | lock m mode next ih => exact ih h hQ
  | unlock m next ih => exact ih h hQ

/-- There is a way through the program. -/
theorem Emits.exists [Nonempty σ] {p : Prog L σ ε α} {Q : α → List ε → Prop} (h : p.Emits Q) :
    ∃ a es, Q a es := by
  induction p generalizing Q with
  | ret a => exact ⟨a, [], h⟩
  | act ok upd next ih => exact ih (Classical.arbitrary σ) (h _)
  | note e next ih =>
    obtain ⟨a, es, hes⟩ := ih h
    exact ⟨a, e :: es, hes⟩
  | lock m mode next ih => exact ih h
  | unlock m next ih => exact ih h

/-- No events. -/
def Silent (p : Prog L σ ε α) : Prop := p.Emits fun _ es => es = []

theorem Silent.bind {p : Prog L σ ε α} {f : α → Prog L σ ε β} (h : p.Silent)
    (hf : ∀ a, (f a).Silent) : (p.bind f).Silent :=
  Emits.bind h fun a es hes => Emits.mono (hf a) fun b es' hes' => by rw [hes, hes']; rfl

theorem Silent.withLock {p : Prog L σ ε α} (h : p.Silent) (m : L) (mode : Mode) :
    (withLock m mode p).Silent :=
  Silent.bind h fun _ => rfl

theorem emits_critical {body : Prog L σ ε α} (h : body.Silent) (g : L) (mode : Mode)
    (event : α → Option ε) :
    (critical g mode body event).Emits fun a es => es = (event a).toList := by
  refine Emits.bind (Q := fun a es => es = (event a).toList)
    (Emits.bind h fun a es hes => ?_) fun a es hes => ?_
  · subst hes
    cases he : event a with
    | none => exact congrArg Option.toList he.symm
    | some e => exact congrArg Option.toList he.symm
  · exact (List.append_nil es).trans hes

theorem silent_loadIf (ok : σ → Bool) (f : σ → α) : (loadIf ok f : Prog L σ ε α).Silent :=
  fun _ => rfl

theorem silent_storeIf (ok : σ → Bool) (upd : σ → σ) : (storeIf ok upd : Prog L σ ε Unit).Silent :=
  fun _ => rfl

theorem silent_store (upd : σ → σ) : (store upd : Prog L σ ε Unit).Silent := silent_storeIf _ upd

theorem silent_fold {f : α → β → Prog L σ ε α} (h : ∀ a x, (f a x).Silent) (xs : List β) (a : α) :
    (fold f xs a).Silent := by
  induction xs generalizing a with
  | nil => rfl
  | cons x xs ih => exact (h a x).bind ih

theorem silent_find {f : β → Prog L σ ε Bool} (h : ∀ x, (f x).Silent) (xs : List β) :
    (find f xs).Silent := by
  induction xs with
  | nil => rfl
  | cons x xs ih =>
    refine (h x).bind fun found => ?_
    cases found with
    | true => rfl
    | false => exact ih

/-- A loop notes what its rounds note, one after the other. -/
theorem emits_forEach {f : β → Prog L σ ε Unit} {view : ε → α} {g : β → List α} (xs : List β)
    (h : ∀ x, (f x).Emits fun _ es => es.map view = g x) :
    (forEach xs f).Emits fun _ es => es.map view = xs.flatMap g := by
  unfold forEach
  induction xs with
  | nil => rfl
  | cons x xs ih =>
    refine (h x).bind fun _ es hes => ih.mono fun _ es' hes' => ?_
    rw [List.map_append, hes, hes', List.flatMap_cons]

end Prog

/-! ## Threads -/

/-- `held` are the threads that hold a lock, `notes` the history of the events; `crashed` says that
an access was undefined. -/
structure Pool (ι L σ ε : Type) where
  shared : σ
  prog : ι → Prog L σ ε Unit
  held : L → List (ι × Mode) := fun _ => []
  notes : List (ι × ε) := []
  crashed : Bool := false

namespace Pool

/-- Whether the lock can be had: readers share it, a writer has it alone. -/
def Free (c : Pool ι L σ ε) (m : L) (mode : Mode) : Prop :=
  ∀ h ∈ c.held m, mode = .shared ∧ h.2 = .shared

instance (c : Pool ι L σ ε) (m : L) (mode : Mode) : Decidable (c.Free m mode) :=
  inferInstanceAs (Decidable (∀ h ∈ c.held m, _ ∧ _))

variable [DecidableEq ι]

/-- The events of the thread `i`. -/
def noted (c : Pool ι L σ ε) (i : ι) : List ε := (c.notes.filter fun n => n.1 = i).map Prod.snd

theorem noted_append (c : Pool ι L σ ε) (i j : ι) (e : ε) :
    ((c.notes ++ [(i, e)]).filter fun n => n.1 = j).map Prod.snd =
      c.noted j ++ if i = j then [e] else [] := by
  rw [List.filter_append, List.map_append]
  by_cases hj : i = j <;> simp [noted, hj]

variable [DecidableEq L]

/-- What the thread `i` does in its turn. -/
def turn (c : Pool ι L σ ε) (i : ι) : Pool ι L σ ε :=
  match c.prog i with
  | .ret () => c
  | .act ok upd next =>
    if ok c.shared then { c with shared := upd c.shared, prog := update c.prog i (next c.shared) }
    else { c with crashed := true }
  | .note e next => { c with prog := update c.prog i next, notes := c.notes ++ [(i, e)] }
  | .lock m mode next =>
    if c.Free m mode then
      { c with prog := update c.prog i next, held := update c.held m ((i, mode) :: c.held m) }
    else c
  | .unlock m next =>
    { c with
      prog := update c.prog i next
      held := update c.held m ((c.held m).filter fun h => h.1 ≠ i) }

/-- A turn of the thread `i`, if the run is not at its end. -/
def step (c : Pool ι L σ ε) (i : ι) : Pool ι L σ ε := if c.crashed then c else c.turn i

theorem step_of_crashed {c : Pool ι L σ ε} (h : c.crashed = true) (i : ι) : c.step i = c :=
  if_pos h

theorem step_eq_turn {c : Pool ι L σ ε} (h : ¬ c.crashed = true) (i : ι) : c.step i = c.turn i :=
  if_neg h

/-- What every turn preserves, a step preserves. -/
theorem step_inv {I : Pool ι L σ ε → Prop} {c : Pool ι L σ ε} {i : ι} (h : I c)
    (hturn : I (c.turn i)) : I (c.step i) := by
  by_cases hcrashed : c.crashed = true
  · rwa [step_of_crashed hcrashed]
  · rwa [step_eq_turn hcrashed]

/-- **Each thread notes what its program notes**, in any schedule. -/
theorem emits_exec {P : ι → List ε → Prop} {c : Pool ι L σ ε} (hnew : c.notes = [])
    (h : ∀ i, (c.prog i).Emits fun _ es => P i es) (sched : List ι) (i : ι) :
    ((exec step c sched).prog i).Emits fun _ es => P i ((exec step c sched).noted i ++ es) := by
  refine Runs.exec_inv' (I := fun c : Pool ι L σ ε =>
    ∀ i, (c.prog i).Emits fun _ es => P i (c.noted i ++ es)) (fun c k hc => ?_) sched
      (fun j => ?_) i
  · have hk := hc k
    have hrest : ∀ p : Prog L σ ε Unit, (p.Emits fun _ es => P k (c.noted k ++ es)) →
        ∀ j, (update c.prog k p j).Emits fun _ es => P j (c.noted j ++ es) := fun p hp =>
      (Function.forall_update_iff _ fun j (q : Prog L σ ε Unit) =>
        q.Emits fun _ es => P j (c.noted j ++ es)).2 ⟨hp, fun j _ => hc j⟩
    refine step_inv (I := fun c : Pool ι L σ ε =>
      ∀ i, (c.prog i).Emits fun _ es => P i (c.noted i ++ es)) hc ?_
    unfold turn
    cases hp : c.prog k with
    | ret a => exact hc
    | act ok upd next =>
      rw [hp] at hk
      dsimp only
      split
      · exact hrest _ (hk c.shared)
      · exact hc
    | note e next =>
      rw [hp] at hk
      intro j
      unfold noted
      dsimp only
      rw [noted_append]
      by_cases hj : j = k
      · subst hj
        rw [Function.update_self, if_pos rfl]
        simp only [List.append_assoc, List.singleton_append]
        exact hk
      · rw [Function.update_of_ne hj, if_neg (Ne.symm hj), List.append_nil]
        exact hc j
    | lock m mode next =>
      rw [hp] at hk
      dsimp only
      split
      · exact hrest _ hk
      · exact hc
    | unlock m next =>
      rw [hp] at hk
      exact hrest _ hk
  · have hnone : c.noted j = [] := by rw [noted, hnew]; rfl
    rw [hnone]
    exact h j

end Pool

end Locks
