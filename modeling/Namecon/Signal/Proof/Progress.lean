import Mathlib.Data.DFinsupp.WellFounded
import Namecon.Lib.Fairness
import Namecon.Signal.Proof.Readiness
import Namecon.Signal.Proof.Sequential

/-!
# Handlers return

Any number of handlers run at once and wait for each other's locks. A goroutine that holds a lock
waits for none, so, as long as a handler runs, there is one that does not wait (`exists_moving`),
and each of its steps lowers its rank (`advance_rank_of_not_waits`). When no frame comes any more
and no connection ends, every handler comes to its end under every fair schedule
(`handlers_return`): there is no deadlock, and no handler makes another one run forever. Here an
`RLock` waits for no `Lock` that is waiting; no goroutine that holds a lock comes to another.
-/

namespace Namecon

open Function (update)
open Runs (exec upTo)

/-- The step starts no handler: it is neither a frame nor the end of a connection. -/
def HubOp.StartsNone : HubOp → Prop
  | .message _ _ _ | .hangUp _ => False
  | _ => True

namespace ReadPump

/-- Where a handler stands, if one is running. -/
def running (pc : ReadPump) : Option ReadPump := if pc.Idle then none else some pc

theorem running_eq_none {pc : ReadPump} : pc.running = none ↔ pc.Idle := by
  unfold running
  split
  · rename_i hidle
    exact iff_of_true rfl hidle
  · rename_i hbusy
    exact iff_of_false (by simp) hbusy

theorem running_of_not_idle {pc : ReadPump} (h : ¬ pc.Idle) : pc.running = some pc := if_neg h

theorem eq_of_running {pc pc' : ReadPump} (hpc : ¬ pc.Idle) (h : pc'.running = pc.running) :
    pc' = pc := by
  rw [running_of_not_idle hpc] at h
  unfold running at h
  split at h
  · cases h
  · exact Option.some.inj h

/-- The rank of a handler, `(0, 0)` if none is running. -/
def rankOf (r : Option ReadPump) : ℕ ×ₗ ℕ := r.elim (toLex (0, 0)) rank

theorem rankOf_running (pc : ReadPump) : rankOf pc.running = pc.rank := by
  by_cases hidle : pc.Idle
  · rw [running_eq_none.2 hidle]
    cases pc with
    | readMessage => rfl
    | ended => rfl
    | _ => exact hidle.elim
  · rw [running_of_not_idle hidle]
    rfl

end ReadPump

namespace Hub

variable {h h' : Hub} {op : HubOp} {c t : ClientRef} {n : ℕ}

/-- Where the handler of each client stands. -/
def running (h : Hub) (c : ClientRef) : Option ReadPump := (h.client c).pc.running

/-! ## One step -/

theorem waits_of_idle (hc : (h.client c).pc.Idle) : h.Waits (h.client c).pc := by
  cases hpc : (h.client c).pc with
  | readMessage => trivial
  | ended => trivial
  | _ => rw [hpc] at hc; exact hc.elim

theorem advance_of_waits (hw : h.Waits (h.client c).pc) (env : HubEnv) : h.advance c env = h := by
  cases hpc : (h.client c).pc with
  | readMessage => simp only [advance, hpc]
  | ended => simp only [advance, hpc]
  | insert room p =>
    have hheld : h.roomHeld room = true := by simpa [hpc, Waits] using hw
    simp only [advance, hpc, hheld, if_true]
  | delete room last =>
    have hheld : h.roomHeld room = true := by simpa [hpc, Waits] using hw
    simp only [advance, hpc, hheld, if_true]
  | unregister last =>
    have hheld : h.hubHeld = true := by simpa [hpc, Waits] using hw
    simp only [advance, hpc, hheld, if_true]
  | _ => rw [hpc] at hw; exact hw.elim

/-- Only its own steps move a handler on. -/
theorem running_step (hs : h.Staged) (hop : op.StartsNone) (ht : ∀ env, op ≠ .advance t env) :
    (h.step op).running t = h.running t := by
  have hmoves := h.moves op
  unfold running
  generalize h.step op = h' at hmoves
  cases hmoves with
  | stay => rfl
  | createRoom => rfl
  | packet => rfl
  | serveWS =>
    by_cases he : t = h.nextClient
    · rw [he, hs.unborn _ (le_refl _)]
      simp only [Function.update_self]
      rfl
    · simp only [Function.update_of_ne he]
  | @write c msg rest hsend =>
    by_cases he : t = c
    · rw [he]
      simp only [Function.update_self]
    · simp only [Function.update_of_ne he]
  | @act _ c x s ha =>
    by_cases he : t = c
    · rw [← he] at ha
      cases ha with
      | answer => exact hop.elim
      | join => exact hop.elim
      | leave => exact hop.elim
      | hangUp => exact hop.elim
      | _ => exact absurd rfl (ht _)
    · simp only [Function.update_of_ne he]
  | @visit c env roomId msg u todo next hpc hroom hne hopen =>
    have he : t ≠ c := fun he => ht env (by rw [he])
    simp only [Function.update_of_ne he]
    by_cases hu : t = u
    · rw [hu, Function.update_self, Client.push_pc]
    · rw [Function.update_of_ne hu]
  | @unregister c env last hpc hfree =>
    have he : t ≠ c := fun he => ht env (by rw [he])
    simp only [goto, modifyClient_ne he]

/-- The ranks of the handlers of the first `n` clients. -/
def ranks (n : ℕ) (v : ClientRef → Option ReadPump) (i : Fin n) : ℕ ×ₗ ℕ := ReadPump.rankOf (v i)

/-- A step of a goroutine that does not wait lowers the ranks. -/
theorem ranks_advance (hs : h.Staged) (hc : c < n) (hw : ¬ h.Waits (h.client c).pc)
    (env : HubEnv) : ranks n (h.step (.advance c env)).running < ranks n h.running := by
  have hlow : ranks n (h.step (.advance c env)).running ⟨c, hc⟩ < ranks n h.running ⟨c, hc⟩ := by
    unfold ranks running
    rw [ReadPump.rankOf_running, ReadPump.rankOf_running]
    exact advance_rank_of_not_waits hs hw env
  refine Pi.lt_def.2 ⟨fun i => ?_, ⟨c, hc⟩, hlow⟩
  by_cases hi : i.val = c
  · obtain rfl : i = ⟨c, hc⟩ := Fin.ext hi
    exact hlow.le
  · have hsame : (h.step (.advance c env)).running i = h.running i :=
      running_step hs trivial fun _ he => hi (by cases he; rfl)
    unfold ranks
    rw [hsame]

/-- A step leaves the handlers where they stand, or lowers their ranks. -/
theorem running_or_ranks (hs : h.Staged) (hunborn : ∀ c, n ≤ c → (h.client c).pc.Idle)
    (hop : op.StartsNone) :
    (h.step op).running = h.running ∨ ranks n (h.step op).running < ranks n h.running := by
  by_cases hadv : ∃ c env, op = .advance c env
  · obtain ⟨c, env, rfl⟩ := hadv
    by_cases hw : h.Waits (h.client c).pc
    · exact .inl (congrArg running (advance_of_waits hw env))
    · have hc : c < n := by
        by_contra hlt
        exact hw (waits_of_idle (hunborn c (Nat.not_lt.1 hlt)))
      exact .inr (ranks_advance hs hc hw env)
  · exact .inl (funext fun t => running_step hs hop fun env he => hadv ⟨t, env, he⟩)

/-- A goroutine that is in no handler stays so. -/
theorem idle_step (hs : h.Staged) (hop : op.StartsNone) (hc : (h.client c).pc.Idle) :
    ((h.step op).client c).pc.Idle := by
  by_cases hadv : ∃ env, op = .advance c env
  · obtain ⟨env, rfl⟩ := hadv
    have hstay : h.step (.advance c env) = h := advance_of_waits (waits_of_idle hc) env
    rw [hstay]
    exact hc
  · rw [← ReadPump.running_eq_none] at hc ⊢
    exact (running_step hs hop fun env he => hadv ⟨env, he⟩).trans hc

/-! ## Somebody moves -/

/-- A goroutine that holds a lock does not wait for another. -/
theorem not_waits_of_holds (hpc : (h.client c).pc.holdsHub = true ∨
    ∃ room, (h.client c).pc.holdsRoom room = true) : ¬ h.Waits (h.client c).pc := by
  cases hp : (h.client c).pc with
  | broadcast => exact id
  | addConsumer => exact id
  | _ =>
    rw [hp] at hpc
    rcases hpc with hpc | ⟨_, hpc⟩ <;> cases hpc

/-- When no goroutine holds a lock, those in a handler do not wait. -/
theorem not_waits_of_free (hhub : h.hubHeld = false) (hroom : ∀ room, h.roomHeld room = false)
    (hc : ¬ (h.client c).pc.Idle) : ¬ h.Waits (h.client c).pc := by
  intro hwait
  cases hpc : (h.client c).pc with
  | readMessage => rw [hpc] at hc; exact hc trivial
  | ended => rw [hpc] at hc; exact hc trivial
  | insert room p => simp only [hpc, Waits, hroom, Bool.false_eq_true] at hwait
  | delete room last => simp only [hpc, Waits, hroom, Bool.false_eq_true] at hwait
  | unregister last => simp only [hpc, Waits, hhub, Bool.false_eq_true] at hwait
  | _ => rw [hpc] at hwait; exact hwait

/-- While a handler runs, one of them does not wait, and it does not begin to wait before it has
had its turn. -/
theorem exists_moving (hc : ¬ (h.client c).pc.Idle) :
    ∃ k, ¬ (h.client k).pc.Idle ∧
      ∀ h' : Hub, h'.running = h.running → ¬ h'.Waits (h'.client k).pc := by
  by_cases hheld : ∃ k, (h.client k).pc.holdsHub = true ∨
      ∃ room, (h.client k).pc.holdsRoom room = true
  · obtain ⟨k, hk⟩ := hheld
    have hbusy : ¬ (h.client k).pc.Idle := by
      intro hidle
      cases hp : (h.client k).pc with
      | readMessage => rw [hp] at hk; rcases hk with hk | ⟨_, hk⟩ <;> cases hk
      | ended => rw [hp] at hk; rcases hk with hk | ⟨_, hk⟩ <;> cases hk
      | _ => rw [hp] at hidle; exact hidle
    refine ⟨k, hbusy, fun h' hsame => not_waits_of_holds ?_⟩
    rw [ReadPump.eq_of_running hbusy (congrFun hsame k)]
    exact hk
  · -- no lock is held, nor is one where the handlers stand the same
    have hfree : ∀ h' : Hub, h'.running = h.running → ∀ k,
        (h'.client k).pc.holdsHub = false ∧ ∀ room, (h'.client k).pc.holdsRoom room = false := by
      intro h' hsame k
      by_cases hbusy : (h.client k).pc.Idle
      · have hidle : (h'.client k).pc.Idle := by
          rw [← ReadPump.running_eq_none] at hbusy ⊢
          exact (congrFun hsame k).trans hbusy
        cases hp : (h'.client k).pc with
        | readMessage => exact ⟨rfl, fun _ => rfl⟩
        | ended => exact ⟨rfl, fun _ => rfl⟩
        | _ => rw [hp] at hidle; exact hidle.elim
      · rw [ReadPump.eq_of_running hbusy (congrFun hsame k)]
        exact ⟨Bool.eq_false_iff.2 fun hk => hheld ⟨k, .inl hk⟩,
          fun room => Bool.eq_false_iff.2 fun hk => hheld ⟨k, .inr ⟨room, hk⟩⟩⟩
    refine ⟨c, hc, fun h' hsame => not_waits_of_free ?_ (fun room => ?_) ?_⟩
    · exact List.any_eq_false.2 fun t _ => by simp [(hfree h' hsame t).1]
    · exact List.any_eq_false.2 fun t _ => by simp [(hfree h' hsame t).2 room]
    · rw [ReadPump.eq_of_running hc (congrFun hsame c)]
      exact hc

/-! ## Runs -/

/-- The invariant of the schedule: the clients that came after the first `n` run no handler. -/
structure Quiet (n : ℕ) (h : Hub) : Prop where
  staged : h.Staged
  unborn : ∀ c, n ≤ c → (h.client c).pc.Idle

theorem Quiet.step (hq : h.Quiet n) (hop : op.StartsNone) : (h.step op).Quiet n :=
  ⟨hq.staged.step op, fun c hc => idle_step hq.staged hop (hq.unborn c hc)⟩

theorem progress (n : ℕ) : Runs.Progress Hub.step HubOp.StartsNone (Quiet n) running (ranks n)
    (fun (i : Fin n) op => ∃ env, op = .advance i env) (fun v => ∀ c, v c = none) where
  inv _ _ hq hop := hq.step hop
  descends _ _ hq hop := running_or_ranks hq.staged hq.unborn hop
  moves h hq hbusy := by
    obtain ⟨c, hc⟩ := not_forall.1 hbusy
    obtain ⟨k, hk, hmove⟩ := exists_moving (h := h) (c := c)
      fun hidle => hc (ReadPump.running_eq_none.2 hidle)
    have hlt : k < n := by
      by_contra hle
      exact hk (hq.unborn k (Nat.not_lt.1 hle))
    refine ⟨⟨k, hlt⟩, fun h' op hq' hsame _ hturn => ?_⟩
    obtain ⟨env, rfl⟩ := hturn
    rw [← hsame]
    exact ranks_advance hq'.staged hlt (hmove h' hsame) env

/-- When no handler is running, none is from then on. -/
theorem Quiet.stays_idle (hq : h.Quiet n) (hidle : ∀ c, (h.client c).pc.Idle) {sched : ℕ → HubOp}
    (hquiet : ∀ m, (sched m).StartsNone) (m : ℕ) :
    (exec Hub.step h (upTo sched m)).Quiet n ∧
      ∀ c, ((exec Hub.step h (upTo sched m)).client c).pc.Idle := by
  induction m with
  | zero => exact ⟨hq, hidle⟩
  | succ m ih =>
    rw [Runs.upTo_succ, Runs.exec_append]
    exact ⟨ih.1.step (hquiet m), fun c => idle_step ih.1.staged (hquiet m) (ih.2 c)⟩

/-- **Every handler returns.** Whatever has run so far, however many handlers are in progress and
whoever waits for whom: when no frame comes any more and no connection ends, and every goroutine has
turns again and again, there is a moment from which on no handler runs. -/
theorem handlers_return (ops : List HubOp) (sched : ℕ → HubOp)
    (hquiet : ∀ n, (sched n).StartsNone)
    (hfair : ∀ c < (exec Hub.step {} ops).nextClient, ∀ n, ∃ m, n ≤ m ∧
      ∃ env, sched m = .advance c env) :
    ∃ n, ∀ m, n ≤ m → (exec Hub.step {} (ops ++ upTo sched m)).Idle := by
  have hstaged : (exec Hub.step {} ops).Staged :=
    Runs.exec_inv' (fun _ op hs => hs.step op) ops staged_start
  have hstart : (exec Hub.step {} ops).Quiet (exec Hub.step {} ops).nextClient :=
    ⟨hstaged, fun c hc => by rw [hstaged.unborn c hc]; trivial⟩
  generalize (exec Hub.step {} ops).nextClient = n at hfair hstart
  obtain ⟨m, hdone⟩ := (progress n).reaches hstart sched hquiet fun i k => hfair i i.isLt k
  have hquietm := ((progress n).view_or_lower hstart hquiet m).1
  refine ⟨m, fun m' hle c _ => ?_⟩
  obtain ⟨k, rfl⟩ := Nat.exists_eq_add_of_le hle
  rw [Runs.upTo_add, ← List.append_assoc, Runs.exec_append, Runs.exec_append]
  exact (hquietm.stays_idle (fun c => ReadPump.running_eq_none.1 (hdone c))
    (fun i => hquiet (m + i)) k).2 c

/-- Two clients whose joins are in progress at once. -/
def joining : List HubOp :=
  [Logged.roomMade, .serveWS, .serveWS, .message 0 (fun _ _ v => (none, v)) (.join "100000" "a"),
    .message 1 (fun _ _ v => (none, v)) (.join "100000" "b")]

theorem handlers_return_joining :
    ∃ n, ∀ m, n ≤ m → (exec Hub.step {} (joining ++
      upTo (fun m => .advance (m % 2) (Logged.quietEnv (m % 2 + 1))) m)).Idle :=
  handlers_return joining _ (fun _ => trivial) fun c hc n => by
    have hmod : (2 * n + c) % 2 = c := by
      rw [Nat.mul_add_mod]
      exact Nat.mod_eq_of_lt hc
    exact ⟨2 * n + c, by omega, Logged.quietEnv (c + 1), by simp only [hmod]⟩

end Hub

end Namecon
