import Namecon.Lib.Sections

/-!
# Threads that keep the rules of a lock

`Atomic` is what holds of a pool of threads that keep the rules of the lock `g` (`Prog.wp`): it
knows the phase of each thread and the state `abs` of the sequential object after the events noted
so far.
`Atomic.turn` is a turn of a thread, one lemma for each kind of operation, and `atomic_exec` the
runs.
-/

namespace Locks

open Function (update)
open Runs (exec Meets)

variable {ι L σ τ ε : Type} [DecidableEq L]

/-- The entry of the thread `i` in the list of those that hold the lock. -/
def Phase.entry (i : ι) : Phase τ → List (ι × Mode)
  | .outside => []
  | .inside mode _ _ => [(i, mode)]

/-- The program is run in the phase and ends outside of the sections. -/
def Phase.Runs (g : L) (view : σ → τ) (spec : Spec τ ε) (φ : Phase τ) (p : Prog L σ ε Unit) :
    Prop :=
  p.wp g view spec φ fun _ φ' => φ' = .outside

/-- A section that is under way began, or noted its last event, in the state `abs`, and the view is
what it has made of it. -/
def Phase.Agrees (abs now : τ) : Phase τ → Prop
  | .outside => True
  | .inside _ before now' => before = abs ∧ now' = now

variable [DecidableEq ι]

/-- The threads are in the phases `phase`, and what they have noted ends in `abs`. -/
structure Atomic (g : L) (view : σ → τ) (spec : Spec τ ε) (c : Pool ι L σ ε) (phase : ι → Phase τ)
    (abs : τ) : Prop where
  runs : ∀ i, (phase i).Runs g view spec (c.prog i)
  entries : ∀ i, (c.held g).filter (fun h => h.1 = i) = (phase i).entry i
  alone : ∀ i, (i, .exclusive) ∈ c.held g → c.held g = [(i, .exclusive)]
  agrees : ∀ i, (phase i).Agrees abs (view c.shared)
  settled : (∀ i, (i, .exclusive) ∉ c.held g) → view c.shared = abs

namespace Atomic

variable {g : L} {view : σ → τ} {spec : Spec τ ε} {c : Pool ι L σ ε} {phase : ι → Phase τ}
  {abs before now : τ} {i j : ι} {mode : Mode}

theorem outside_of_not_mem (h : Atomic g view spec c phase abs)
    (hi : ∀ mode, (i, mode) ∉ c.held g) : phase i = .outside := by
  have hentry := h.entries i
  cases hphase : phase i with
  | outside => rfl
  | inside mode before now =>
    rw [hphase] at hentry
    have hmem : (i, mode) ∈ (c.held g).filter fun h => h.1 = i := by
      rw [hentry]
      exact .head _
    exact absurd ((List.mem_filter.1 hmem).1) (hi mode)

theorem mem_of_inside (h : Atomic g view spec c phase abs)
    (hi : phase i = .inside mode before now) : (i, mode) ∈ c.held g := by
  have hentry := h.entries i
  rw [hi] at hentry
  have hmem : (i, mode) ∈ (c.held g).filter fun h => h.1 = i := by
    rw [hentry]
    exact .head _
  exact (List.mem_filter.1 hmem).1

/-- While one thread writes, the others are outside. -/
theorem outside_of_writer (h : Atomic g view spec c phase abs)
    (hi : phase i = .inside .exclusive before now) (hj : j ≠ i) : phase j = .outside := by
  refine h.outside_of_not_mem fun mode hmem => ?_
  rw [h.alone i (h.mem_of_inside hi)] at hmem
  exact hj (congrArg Prod.fst (List.mem_singleton.1 hmem))

/-- While a thread reads, nobody writes. -/
theorem settled_of_reader (h : Atomic g view spec c phase abs)
    (hi : phase i = .inside .shared before now) (j : ι) : (j, .exclusive) ∉ c.held g := by
  intro hmem
  have hi' := h.mem_of_inside hi
  rw [h.alone j hmem] at hi'
  exact Mode.noConfusion (congrArg Prod.snd (List.mem_singleton.1 hi'))

theorem runs_update (h : Atomic g view spec c phase abs) {p : Prog L σ ε Unit} {φ : Phase τ}
    (hp : φ.Runs g view spec p) (j : ι) :
    (update phase i φ j).Runs g view spec (update c.prog i p j) := by
  by_cases hj : j = i
  · subst hj
    rw [Function.update_self, Function.update_self]
    exact hp
  · rw [Function.update_of_ne hj, Function.update_of_ne hj]
    exact h.runs j

/-! ## A turn of a thread -/

theorem act_outside (h : Atomic g view spec c phase abs) (hi : phase i = .outside)
    {p : Prog L σ ε Unit} {s : σ} (hs : view s = view c.shared)
    (hp : Phase.outside.Runs g view spec p) :
    Atomic g view spec { c with shared := s, prog := update c.prog i p } phase abs where
  runs j := by
    have := h.runs_update (i := i) hp j
    rwa [← hi, Function.update_eq_self] at this
  entries := h.entries
  alone := h.alone
  agrees j := by
    dsimp only
    rw [hs]
    exact h.agrees j
  settled hno := hs.trans (h.settled hno)

theorem act_inside (h : Atomic g view spec c phase abs) (hi : phase i = .inside mode before now)
    {p : Prog L σ ε Unit} {s : σ} (hread : mode = .shared → view s = now)
    (hp : (Phase.inside mode before (view s)).Runs g view spec p) :
    Atomic g view spec { c with shared := s, prog := update c.prog i p }
      (update phase i (.inside mode before (view s))) abs where
  runs := h.runs_update hp
  entries j := by
    rw [h.entries j]
    by_cases hj : j = i
    · subst hj
      rw [hi, Function.update_self]
      rfl
    · rw [Function.update_of_ne hj]
  alone := h.alone
  agrees j := by
    have hagree := h.agrees i
    rw [hi] at hagree
    by_cases hj : j = i
    · subst hj
      rw [Function.update_self]
      exact ⟨hagree.1, rfl⟩
    · rw [Function.update_of_ne hj]
      cases mode with
      | shared =>
        have hs : view s = view c.shared := (hread rfl).trans hagree.2
        dsimp only
        rw [hs]
        exact h.agrees j
      | exclusive =>
        rw [h.outside_of_writer hi hj]
        trivial
  settled hno := by
    cases mode with
    | shared =>
      have hagree := h.agrees i
      rw [hi] at hagree
      exact ((hread rfl).trans hagree.2).trans (h.settled hno)
    | exclusive => exact absurd (h.mem_of_inside hi) (hno i)

theorem note_inside (h : Atomic g view spec c phase abs) (hi : phase i = .inside mode before now)
    {p : Prog L σ ε Unit} {e : ε} (happly : spec.apply before e = now)
    (hp : (Phase.inside mode now now).Runs g view spec p) :
    Atomic g view spec { c with prog := update c.prog i p, notes := c.notes ++ [(i, e)] }
      (update phase i (.inside mode now now)) (spec.apply abs e) := by
  have hagree := h.agrees i
  rw [hi] at hagree
  obtain ⟨rfl, rfl⟩ := hagree
  rw [happly]
  refine ⟨h.runs_update hp, fun j => ?_, h.alone, fun j => ?_, fun _ => rfl⟩
  · rw [h.entries j]
    by_cases hj : j = i
    · subst hj
      rw [hi, Function.update_self]
      rfl
    · rw [Function.update_of_ne hj]
  · by_cases hj : j = i
    · subst hj
      rw [Function.update_self]
      exact ⟨rfl, rfl⟩
    · rw [Function.update_of_ne hj]
      cases mode with
      | shared =>
        have hsame := h.settled (h.settled_of_reader hi)
        have hagree := h.agrees j
        rw [← hsame] at hagree
        exact hagree
      | exclusive =>
        rw [h.outside_of_writer hi hj]
        trivial

theorem lock_self (h : Atomic g view spec c phase abs) (hi : phase i = .outside)
    (hfree : c.Free g mode) {p : Prog L σ ε Unit}
    (hp : (Phase.inside mode (view c.shared) (view c.shared)).Runs g view spec p) :
    Atomic g view spec
      { c with prog := update c.prog i p, held := update c.held g ((i, mode) :: c.held g) }
      (update phase i (.inside mode (view c.shared) (view c.shared))) abs := by
  have hno : ∀ j, (j, .exclusive) ∉ c.held g := fun j hmem =>
    Mode.noConfusion (hfree _ hmem).2
  have hsettled := h.settled hno
  refine ⟨h.runs_update hp, fun j => ?_, fun j hmem => ?_, fun j => ?_, fun _ => hsettled⟩
  · dsimp only
    rw [Function.update_self]
    by_cases hj : j = i
    · subst hj
      have hentry := h.entries j
      rw [hi] at hentry
      rw [Function.update_self, List.filter_cons_of_pos (by simp), hentry]
      rfl
    · rw [Function.update_of_ne hj, List.filter_cons_of_neg (by simpa using Ne.symm hj)]
      exact h.entries j
  · dsimp only at hmem ⊢
    rw [Function.update_self] at hmem ⊢
    rcases List.mem_cons.1 hmem with heq | hmem
    · cases heq
      -- a lock that is free for a writer is held by nobody
      have hnil : c.held g = [] := List.eq_nil_iff_forall_not_mem.2 fun x hx =>
        Mode.noConfusion (hfree x hx).1
      rw [hnil]
    · exact absurd hmem (hno j)
  · by_cases hj : j = i
    · subst hj
      rw [Function.update_self]
      exact ⟨hsettled, rfl⟩
    · rw [Function.update_of_ne hj]
      exact h.agrees j

theorem unlock_self (h : Atomic g view spec c phase abs) (hi : phase i = .inside mode before now)
    (hnow : before = now) {p : Prog L σ ε Unit} (hp : Phase.outside.Runs g view spec p) :
    Atomic g view spec
      { c with
        prog := update c.prog i p
        held := update c.held g ((c.held g).filter fun h => h.1 ≠ i) }
      (update phase i .outside) abs := by
  have hagree := h.agrees i
  rw [hi] at hagree
  refine ⟨h.runs_update hp, fun j => ?_, fun j hmem => ?_, fun j => ?_, fun _ => ?_⟩
  · dsimp only
    rw [Function.update_self, List.filter_filter]
    by_cases hj : j = i
    · subst hj
      rw [Function.update_self]
      exact List.filter_eq_nil_iff.2 fun x _ => by simp
    · rw [Function.update_of_ne hj, ← h.entries j]
      refine List.filter_congr fun x _ => ?_
      by_cases hx : x.1 = j <;> simp [hx, hj]
  · dsimp only at hmem ⊢
    rw [Function.update_self, List.mem_filter] at hmem
    rw [Function.update_self, h.alone j hmem.1]
    exact List.filter_eq_self.2 fun x hx => (List.mem_singleton.1 hx) ▸ hmem.2
  · by_cases hj : j = i
    · subst hj
      rw [Function.update_self]
      trivial
    · rw [Function.update_of_ne hj]
      exact h.agrees j
  · exact hagree.2.symm.trans (hnow.symm.trans hagree.1)

theorem other_lock (h : Atomic g view spec c phase abs) {p : Prog L σ ε Unit}
    {held : L → List (ι × Mode)} (hheld : held g = c.held g)
    (hp : (phase i).Runs g view spec p) :
    Atomic g view spec { c with prog := update c.prog i p, held := held } phase abs where
  runs j := by
    have := h.runs_update (i := i) hp j
    rwa [Function.update_eq_self] at this
  entries j := by dsimp only; rw [hheld]; exact h.entries j
  alone j := by dsimp only; rw [hheld]; exact h.alone j
  agrees := h.agrees
  settled := by dsimp only; rw [hheld]; exact h.settled

theorem crash (h : Atomic g view spec c phase abs) :
    Atomic g view spec { c with crashed := true } phase abs :=
  ⟨h.runs, h.entries, h.alone, h.agrees, h.settled⟩

/-- A turn keeps what holds, and notes what the sequential object admits. -/
theorem turn (h : Atomic g view spec c phase abs) (i : ι) : ∃ phase' es,
    (c.turn i).notes = c.notes ++ es.map (Prod.mk i) ∧
    Atomic g view spec (c.turn i) phase' (exec spec.apply abs es) ∧
    Meets spec.apply spec.legal abs es := by
  have hi := h.runs i
  have hagree := h.agrees i
  unfold Pool.turn
  cases hp : c.prog i with
  | ret a => exact ⟨phase, [], (List.append_nil _).symm, h, trivial⟩
  | act ok upd next =>
    rw [hp] at hi
    dsimp only
    split
    · cases hphase : phase i with
      | outside =>
        rw [hphase] at hi
        obtain ⟨hview, hnext⟩ := hi c.shared
        exact ⟨phase, [], (List.append_nil _).symm, h.act_outside hphase hview hnext, trivial⟩
      | inside mode before now =>
        rw [hphase] at hi hagree
        obtain ⟨hread, hnext⟩ := hi c.shared hagree.2.symm
        exact ⟨_, [], (List.append_nil _).symm, h.act_inside hphase hread hnext, trivial⟩
    · exact ⟨phase, [], (List.append_nil _).symm, h.crash, trivial⟩
  | note e next =>
    rw [hp] at hi
    cases hphase : phase i with
    | outside =>
      rw [hphase] at hi
      exact hi.elim
    | inside mode before now =>
      rw [hphase] at hi hagree
      obtain ⟨hlegal, happly, hnext⟩ := hi
      exact ⟨_, [e], rfl, h.note_inside hphase happly hnext, hagree.1 ▸ hlegal, trivial⟩
  | lock m mode next =>
    rw [hp] at hi
    dsimp only
    split
    · rename_i hfree
      by_cases hm : m = g
      · subst hm
        cases hphase : phase i with
        | outside =>
          rw [hphase] at hi
          exact ⟨_, [], (List.append_nil _).symm,
            h.lock_self hphase hfree (Prog.wp_lock_self.1 hi c.shared), trivial⟩
        | inside mode' before now =>
          rw [hphase] at hi
          exact absurd rfl hi.1
      · refine ⟨phase, [], (List.append_nil _).symm,
          h.other_lock (Function.update_of_ne (Ne.symm hm) _ _) ?_, trivial⟩
        cases hphase : phase i with
        | outside =>
          rw [hphase] at hi
          exact (Prog.wp_lock_ne hm).1 hi
        | inside mode' before now =>
          rw [hphase] at hi
          exact hi.2
    · exact ⟨phase, [], (List.append_nil _).symm, h, trivial⟩
  | unlock m next =>
    rw [hp] at hi
    cases hphase : phase i with
    | outside =>
      rw [hphase] at hi
      refine ⟨phase, [], (List.append_nil _).symm,
        h.other_lock (Function.update_of_ne (Ne.symm hi.1) _ _) ?_, trivial⟩
      rw [hphase]
      exact hi.2
    | inside mode before now =>
      rw [hphase] at hi
      by_cases hm : m = g
      · subst hm
        obtain ⟨hnow, hnext⟩ := Prog.wp_unlock_self.1 hi
        exact ⟨_, [], (List.append_nil _).symm, h.unlock_self hphase hnow hnext, trivial⟩
      · refine ⟨phase, [], (List.append_nil _).symm,
          h.other_lock (Function.update_of_ne (Ne.symm hm) _ _) ?_, trivial⟩
        rw [hphase]
        exact (Prog.wp_unlock_ne hm).1 hi

theorem step (h : Atomic g view spec c phase abs) (i : ι) : ∃ phase' es,
    (c.step i).notes = c.notes ++ es.map (Prod.mk i) ∧
    Atomic g view spec (c.step i) phase' (exec spec.apply abs es) ∧
    Meets spec.apply spec.legal abs es :=
  Pool.step_inv (I := fun c' => ∃ phase' es, c'.notes = c.notes ++ es.map (Prod.mk i) ∧
    Atomic g view spec c' phase' (exec spec.apply abs es) ∧ Meets spec.apply spec.legal abs es)
    ⟨phase, [], (List.append_nil _).symm, h, trivial⟩ (h.turn i)

/-- Threads that keep the rules and have not started. -/
theorem start {c : Pool ι L σ ε} (hheld : c.held g = [])
    (h : ∀ i, (c.prog i).Unseen g view spec) :
    Atomic g view spec c (fun _ => .outside) (view c.shared) where
  runs := h
  entries i := by rw [hheld]; rfl
  alone i hmem := by rw [hheld] at hmem; cases hmem
  agrees _ := trivial
  settled _ := rfl

end Atomic

variable {g : L} {view : σ → τ} {spec : Spec τ ε} {c : Pool ι L σ ε}

/-- **Sections are atomic.** Threads that keep the rules note, in any schedule, a run of the
sequential object, and while nobody writes the view is the state in which it ends. -/
theorem atomic_exec (hnew : c.notes = []) (hheld : c.held g = [])
    (h : ∀ i, (c.prog i).Unseen g view spec) (sched : List ι) :
    let c' := exec Pool.step c sched
    Meets spec.apply spec.legal (view c.shared) (c'.notes.map Prod.snd) ∧
      ((∀ i, (i, .exclusive) ∉ c'.held g) →
        view c'.shared = exec spec.apply (view c.shared) (c'.notes.map Prod.snd)) := by
  have hinv : Meets spec.apply spec.legal (view c.shared)
      ((exec Pool.step c sched).notes.map Prod.snd) ∧ ∃ phase,
        Atomic g view spec (exec Pool.step c sched) phase
          (exec spec.apply (view c.shared) ((exec Pool.step c sched).notes.map Prod.snd)) := by
    refine Runs.exec_inv' (I := fun c' : Pool ι L σ ε =>
      Meets spec.apply spec.legal (view c.shared) (c'.notes.map Prod.snd) ∧ ∃ phase,
        Atomic g view spec c' phase (exec spec.apply (view c.shared) (c'.notes.map Prod.snd)))
      (fun c' i hc' => ?_) sched ?_
    · obtain ⟨hlegal, phase, hatomic⟩ := hc'
      obtain ⟨phase', es, hnotes, hatomic', hes⟩ := hatomic.step i
      have hsnd : (c'.step i).notes.map Prod.snd = c'.notes.map Prod.snd ++ es := by
        rw [hnotes, List.map_append, List.map_map]
        exact congrArg _ (List.map_id es)
      rw [hsnd, Runs.exec_append]
      exact ⟨Runs.meets_append.2 ⟨hlegal, hes⟩, phase', hatomic'⟩
    · rw [hnew]
      exact ⟨trivial, _, Atomic.start hheld h⟩
  obtain ⟨hlegal, phase, hatomic⟩ := hinv
  exact ⟨hlegal, hatomic.settled⟩

end Locks
