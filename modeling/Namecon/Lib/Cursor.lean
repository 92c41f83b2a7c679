import Namecon.Lib.ListFacts
import Namecon.Lib.Rounds

/-!
# Loops that move an offset

A loop over a buffer that keeps an offset, which every round moves up (`Lib/Rounds.lean`). `visits p`
are the offsets of its rounds, from `p` on.

* `next_le`: a round ends before any later one begins.
* `getLast?_filterMap_visits`: what a loop that overwrites a variable leaves in it.
-/

/-- A loop whose state is a position that grows in every round and stays below `stop`. -/
structure Cursor where
  Fits : Nat → Prop
  next : Nat → Nat
  stop : Nat
  lt_next : ∀ p, p < next p
  lt_stop : ∀ p, Fits p → p < stop
  decFits : DecidablePred Fits

namespace Cursor

variable {C : Cursor} {p q n : Nat}

/-- The rounds of a cursor: what is left is the distance to `stop`. -/
def rounds (C : Cursor) : Rounds Nat where
  Fits := C.Fits
  next := C.next
  left p := C.stop - p
  left_next p h := by
    have hlt := C.lt_next p
    have hstop := C.lt_stop p h
    omega
  decFits := C.decFits

/-- The offsets of the rounds from `p` on. -/
def visits (C : Cursor) (p : Nat) : List Nat := C.rounds.visits p

theorem not_fits_of_stop_le (h : C.stop ≤ p) : ¬ C.Fits p := fun hfits =>
  Nat.not_lt.2 h (C.lt_stop p hfits)

theorem visits_cons (h : C.Fits p) : C.visits p = p :: C.visits (C.next p) :=
  Rounds.visits_cons (L := C.rounds) h

theorem visits_stop (h : ¬ C.Fits p) : C.visits p = [] := Rounds.visits_stop (L := C.rounds) h

/-- Induction over the rounds of the loop. -/
theorem fits_induction (C : Cursor) {motive : Nat → Prop}
    (stop : ∀ p, ¬ C.Fits p → motive p)
    (round : ∀ p, C.Fits p → motive (C.next p) → motive p) (p : Nat) : motive p :=
  C.rounds.fits_induction stop round p

theorem mem_visits (h : q ∈ C.visits p) : C.Fits q ∧ p ≤ q := by
  induction p using C.fits_induction with
  | stop p hp => rw [visits_stop hp] at h; cases h
  | round p hp ih =>
    rw [visits_cons hp, List.mem_cons] at h
    rcases h with rfl | h
    · exact ⟨hp, Nat.le_refl q⟩
    · exact ⟨(ih h).1, Nat.le_of_lt (Nat.lt_of_lt_of_le (C.lt_next p) (ih h).2)⟩

/-- A round ends before any later one begins. -/
theorem next_le (ha : p ∈ C.visits n) (hb : q ∈ C.visits n) (hlt : p < q) : C.next p ≤ q := by
  induction n using C.fits_induction with
  | stop n hn => rw [visits_stop hn] at ha; cases ha
  | round n hn ih =>
    rw [visits_cons hn, List.mem_cons] at ha hb
    rcases hb with rfl | hb
    · rcases ha with rfl | ha
      · exact absurd hlt (Nat.lt_irrefl p)
      · have hle := (mem_visits ha).2
        have hq := C.lt_next q
        omega
    · rcases ha with rfl | ha
      · exact (mem_visits hb).2
      · exact ih ha hb

/-! ## Overwritten variables -/

variable {β : Type*} {w : Nat → Option β}

/-- A variable that is written in the rounds where `w` has a value holds the value of the last of
them. -/
theorem getLast?_filterMap_visits {b : β} :
    ((C.visits p).filterMap w).getLast? = some b ↔
      ∃ q ∈ C.visits p, w q = some b ∧ ∀ q' ∈ C.visits p, q < q' → w q' = none := by
  induction p using C.fits_induction with
  | stop p hp => rw [visits_stop hp]; simp
  | round p hp ih =>
    have hlater : ∀ q ∈ C.visits (C.next p), p < q := fun q hq =>
      Nat.lt_of_lt_of_le (C.lt_next p) (mem_visits hq).2
    rw [visits_cons hp, ListFacts.getLast?_filterMap_cons, Option.or_eq_some_iff, ih,
      List.getLast?_eq_none_iff, List.filterMap_eq_nil_iff]
    constructor
    · rintro (⟨q, hq, hb, hnone⟩ | ⟨hnone, hb⟩)
      · refine ⟨q, .tail _ hq, hb, fun q' hq' hlt => ?_⟩
        rcases List.mem_cons.1 hq' with rfl | hq'
        · exact absurd (hlater q hq) (Nat.lt_asymm hlt)
        · exact hnone q' hq' hlt
      · refine ⟨p, .head _, hb, fun q' hq' hlt => ?_⟩
        rcases List.mem_cons.1 hq' with rfl | hq'
        · exact absurd hlt (Nat.lt_irrefl q')
        · exact hnone q' hq'
    · rintro ⟨q, hq, hb, hnone⟩
      rcases List.mem_cons.1 hq with rfl | hq
      · exact .inr ⟨fun q' hq' => hnone q' (.tail _ hq') (hlater q' hq'), hb⟩
      · exact .inl ⟨q, hq, hb, fun q' hq' => hnone q' (.tail _ hq')⟩

end Cursor
