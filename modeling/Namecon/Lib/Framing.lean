import Namecon.Lib.Rounds

/-!
# Self-delimiting records

A buffer is a concatenation of records, each with a header that gives its size. `Framing α` says how
the size is read; `visits p` is the loop over the records of `p` (`Lib/Rounds.lean`): it stops where
no header is left or the record claims more than what is left.

* `visits_cons`, `visits_stop`: what one round does; `fits_induction` is induction over the rounds.
* `mem_visits`: a record that is visited fits.
* `visits_append`: a complete record in front of a buffer is visited first.
* `eq_append_of_visits`, `visits_replace`: what stands before a record that is visited, and that
  what follows it decides nothing about it.
-/

/-- Records laid one behind the other, the size of each told by its first `header` elements. -/
structure Framing (α : Type*) where
  header : Nat
  size : List α → Nat
  header_pos : 0 < header
  header_le : ∀ p, header ≤ size p
  size_congr : ∀ p q, p.take header = q.take header → size p = size q

namespace Framing

variable {α β : Type*} {F : Framing α} {p q r : List α} {x : List α × Nat}

/-- The loop goes into a round at the start of `p`. -/
def Fits (F : Framing α) (p : List α) : Prop := F.header ≤ p.length ∧ F.size p ≤ p.length

instance (F : Framing α) (p : List α) : Decidable (F.Fits p) := inferInstanceAs (Decidable (_ ∧ _))

/-- At most `fuel` records: the rest of the input at each, and the size of the record. -/
def walk (F : Framing α) : Nat → List α → List (List α × Nat)
  | 0, _ => []
  | fuel + 1, p => if F.Fits p then (p, F.size p) :: walk F fuel (p.drop (F.size p)) else []

/-- The records that `p` starts with, each with the rest of the buffer it starts and its size. A
record has at least one element, so the fuel reaches the end (`walk_fuel`). -/
def visits (F : Framing α) (p : List α) : List (List α × Nat) := F.walk p.length p

theorem size_pos (F : Framing α) (p : List α) : 0 < F.size p :=
  Nat.lt_of_lt_of_le F.header_pos (F.header_le p)

theorem length_drop_size (h : F.Fits p) : (p.drop (F.size p)).length < p.length := by
  have hpos := F.size_pos p
  have hle := h.2
  rw [List.length_drop]
  omega

/-- The loop, at what is left of the buffer. -/
def rounds (F : Framing α) : Rounds (List α) where
  Fits := F.Fits
  next p := p.drop (F.size p)
  left := List.length
  left_next _ := length_drop_size
  decFits := inferInstance

theorem walk_eq (F : Framing α) (n : Nat) (p : List α) :
    F.walk n p = (F.rounds.walk n p).map fun p => (p, F.size p) := by
  induction n generalizing p with
  | zero => rfl
  | succ n ih =>
    by_cases h : F.Fits p
    · have hround : F.rounds.walk (n + 1) p = p :: F.rounds.walk n (p.drop (F.size p)) := if_pos h
      rw [walk, if_pos h, ih, hround, List.map_cons]
    · rw [walk, if_neg h, Rounds.walk_stop (L := F.rounds) h]
      rfl

theorem walk_fuel {n m : Nat} (hn : p.length ≤ n) (hm : p.length ≤ m) :
    F.walk n p = F.walk m p := by
  rw [walk_eq, walk_eq, Rounds.walk_fuel (L := F.rounds) hn hm]

theorem visits_cons (h : F.Fits p) :
    F.visits p = (p, F.size p) :: F.visits (p.drop (F.size p)) := by
  have hround : F.rounds.visits p = p :: F.rounds.visits (p.drop (F.size p)) :=
    Rounds.visits_cons (L := F.rounds) h
  rw [visits, visits, walk_eq, walk_eq]
  exact (congrArg _ hround).trans List.map_cons

theorem visits_stop (h : ¬ F.Fits p) : F.visits p = [] := by
  rw [visits, walk_eq, Rounds.walk_stop (L := F.rounds) h, List.map_nil]

/-- Induction over the rounds of the loop. -/
theorem fits_induction (F : Framing α) {motive : List α → Prop}
    (stop : ∀ p, ¬ F.Fits p → motive p)
    (round : ∀ p, F.Fits p → motive (p.drop (F.size p)) → motive p) (p : List α) : motive p :=
  F.rounds.fits_induction stop round p

theorem mem_visits (h : x ∈ F.visits p) : F.Fits x.1 ∧ x.2 = F.size x.1 ∧ x.1 <:+ p := by
  induction p using F.fits_induction with
  | stop p hp => rw [visits_stop hp] at h; cases h
  | round p hp ih =>
    rw [visits_cons hp, List.mem_cons] at h
    rcases h with rfl | h
    · exact ⟨hp, rfl, List.suffix_refl p⟩
    · obtain ⟨hx, hs, hsuf⟩ := ih h
      exact ⟨hx, hs, hsuf.trans (List.drop_suffix _ p)⟩

/-! ## What a record is made of -/

/-- The own elements of a visited record. -/
def own (x : List α × Nat) : List α := x.1.take x.2

/-- The records themselves, each cut to its size. -/
def records (F : Framing α) (p : List α) : List (List α) := (F.visits p).map own

/-- `r` is one record and nothing else. -/
def IsRecord (F : Framing α) (r : List α) : Prop := F.header ≤ r.length ∧ F.size r = r.length

theorem size_append (h : F.header ≤ r.length) (q : List α) : F.size (r ++ q) = F.size r :=
  F.size_congr _ _ (List.take_append_of_le_length h)

theorem size_take {n : Nat} (h : F.header ≤ n) : F.size (p.take n) = F.size p := by
  apply F.size_congr
  rw [List.take_take, Nat.min_eq_left h]

theorem bounds_of_mem_visits (h : x ∈ F.visits p) : F.header ≤ x.2 ∧ x.2 ≤ x.1.length := by
  obtain ⟨hfits, hs, -⟩ := mem_visits h
  rw [hs]
  exact ⟨F.header_le x.1, hfits.2⟩

theorem length_own (h : x ∈ F.visits p) : (own x).length = x.2 := by
  have hle := (bounds_of_mem_visits h).2
  rw [own, List.length_take]
  omega

theorem isRecord_own (h : x ∈ F.visits p) : F.IsRecord (own x) := by
  have hle := (bounds_of_mem_visits h).1
  have hlen := length_own h
  refine ⟨by omega, ?_⟩
  rw [hlen, own, size_take hle, (mem_visits h).2.1]

/-- A visited record starts with its own elements. -/
theorem own_append (x : List α × Nat) : own x ++ x.1.drop x.2 = x.1 := List.take_append_drop _ _

theorem visits_append (h : F.IsRecord r) (q : List α) :
    F.visits (r ++ q) = (r ++ q, r.length) :: F.visits q := by
  have hs : F.size (r ++ q) = r.length := (size_append h.1 q).trans h.2
  have hfits : F.Fits (r ++ q) := by
    have := h.1
    constructor <;> · simp only [List.length_append, hs]; omega
  rw [visits_cons hfits, hs, List.drop_left]

/-- The record behind `rs` is visited behind as many records, whatever follows it. -/
theorem visits_getElem?_append {rs : List (List α)} (h : ∀ r ∈ rs, F.IsRecord r)
    (hr : F.IsRecord r) (q : List α) :
    (F.visits (rs.flatten ++ (r ++ q)))[rs.length]? = some (r ++ q, r.length) := by
  induction rs with
  | nil => rw [List.flatten_nil, List.nil_append, visits_append hr]; rfl
  | cons r' rs ih =>
    rw [List.flatten_cons, List.append_assoc, visits_append (h r' (.head _)), List.length_cons,
      List.getElem?_cons_succ]
    exact ih fun r hr => h r (.tail _ hr)

/-- A visited record stands behind those visited before it. -/
theorem eq_append_of_visits {i : Nat} (h : (F.visits p)[i]? = some x) :
    p = ((F.records p).take i).flatten ++ x.1 := by
  induction p using F.fits_induction generalizing i with
  | stop p hp => rw [visits_stop hp] at h; cases h
  | round p hp ih =>
    have hcons : F.records p = p.take (F.size p) :: F.records (p.drop (F.size p)) := by
      rw [records, visits_cons hp]
      rfl
    rw [visits_cons hp] at h
    rw [hcons]
    cases i with
    | zero =>
      obtain rfl := Option.some.inj h
      rfl
    | succ i =>
      rw [List.take_succ_cons, List.flatten_cons, List.append_assoc, ← ih h]
      exact (List.take_append_drop _ p).symm

theorem isRecord_of_mem_records (h : r ∈ F.records p) : F.IsRecord r := by
  obtain ⟨x, hx, rfl⟩ := List.mem_map.1 h
  exact isRecord_own hx

/-- What stands before a visited record and the record itself, without what follows. -/
def upTo (F : Framing α) (p : List α) (i : Nat) (x : List α × Nat) : List α :=
  ((F.records p).take i).flatten ++ own x

theorem upTo_append {i : Nat} (h : (F.visits p)[i]? = some x) :
    F.upTo p i x ++ x.1.drop x.2 = p := by
  rw [upTo, List.append_assoc, own_append]
  exact (eq_append_of_visits h).symm

theorem take_upTo {i : Nat} (h : (F.visits p)[i]? = some x) :
    p.take (p.length - (x.1.drop x.2).length) = F.upTo p i x := by
  have hsplit := upTo_append h
  have hlen := congrArg List.length hsplit
  rw [List.length_append] at hlen
  conv_lhs => arg 2; rw [← hsplit]
  exact List.take_left' (by omega)

/-- What follows a visited record may be replaced. -/
theorem visits_replace {i : Nat} (h : (F.visits p)[i]? = some x) (q : List α) :
    (F.visits (F.upTo p i x ++ q))[i]? = some (own x ++ q, (own x).length) := by
  have hrecs : ∀ r ∈ (F.records p).take i, F.IsRecord r := fun r hr =>
    isRecord_of_mem_records (List.mem_of_mem_take hr)
  have hcount : ((F.records p).take i).length = i := by
    obtain ⟨hi, -⟩ := List.getElem?_eq_some_iff.1 h
    rw [List.length_take, records, List.length_map]
    omega
  have hat := visits_getElem?_append hrecs (isRecord_own (List.mem_of_getElem? h)) q
  rw [hcount] at hat
  rw [upTo, List.append_assoc]
  exact hat

end Framing
