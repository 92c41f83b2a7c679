import Mathlib.Data.List.TakeWhile

/-!
# Texts read line by line

Over an arbitrary type of characters, with `sep` at the end of a line:

* `lines sep t` is what a loop over `getline` reads from `t`, and `unlines sep ls` writes `ls`, each
  line ended by `sep`; `lines_unlines` reads back what was written.
* `blocks p ls` are the stretches of `ls` that start at a line `p` accepts and end before the next
  one; `blocks_flatMap` reads back what was written block by block.
* `Clash k x`: no text is a prefix of the one and an extension of the other, so what starts with `x`
  does not start with the keyword `k` (`Clash.not_prefix`).
* `readToken space t` is what `>>` reads into a string, and the rest of the text.
* `Parses step ls P Q`: reading `ls` from a state in `P` succeeds and ends in `Q`; `foldlM_inv` is
  the rule for a reading that may fail.
-/

namespace Lines

variable {α : Type*} {sep : α}

/-! ## Lines -/

/-- The lines of a text. What follows the last `sep` is a line unless it is empty. -/
def lines [DecidableEq α] (sep : α) : List α → List (List α)
  | [] => []
  | c :: t =>
    if c = sep then [] :: lines sep t
    else
      match lines sep t with
      | [] => [[c]]
      | l :: ls => (c :: l) :: ls

/-- The lines `ls`, each ended by `sep`. -/
def unlines (sep : α) (ls : List (List α)) : List α := ls.flatMap fun l => l ++ [sep]

section
variable [DecidableEq α] {l : List α} {ls : List (List α)} {t : List α}

theorem lines_append (h : sep ∉ l) (t : List α) :
    lines sep (l ++ sep :: t) = l :: lines sep t := by
  induction l with
  | nil => exact if_pos rfl
  | cons c l ih =>
    have hc : c ≠ sep := fun he => h (he ▸ List.mem_cons_self)
    rw [List.cons_append, lines, if_neg hc, ih fun hl => h (List.mem_cons_of_mem c hl)]

theorem lines_unlines (h : ∀ l ∈ ls, sep ∉ l) : lines sep (unlines sep ls) = ls := by
  induction ls with
  | nil => rfl
  | cons l ls ih =>
    have hl : unlines sep (l :: ls) = l ++ sep :: unlines sep ls := by
      rw [unlines, List.flatMap_cons, List.append_assoc]
      rfl
    rw [hl, lines_append (h l List.mem_cons_self),
      ih fun l' hl' => h l' (List.mem_cons_of_mem l hl')]

theorem sep_not_mem_of_mem_lines (h : l ∈ lines sep t) : sep ∉ l := by
  induction t generalizing l with
  | nil => cases h
  | cons c t ih =>
    by_cases hc : c = sep
    · rw [lines, if_pos hc] at h
      rcases List.mem_cons.1 h with rfl | h
      · exact List.not_mem_nil
      · exact ih h
    · rw [lines, if_neg hc] at h
      have hne : ∀ {l' : List α}, sep ∉ l' → sep ∉ c :: l' := fun hl' hmem =>
        (List.mem_cons.1 hmem).elim (fun he => hc he.symm) hl'
      cases ht : lines sep t with
      | nil =>
        rw [ht] at h
        obtain rfl := List.mem_singleton.1 h
        exact hne List.not_mem_nil
      | cons l' ls' =>
        rw [ht] at h ih
        rcases List.mem_cons.1 h with rfl | h
        · exact hne (ih List.mem_cons_self)
        · exact ih (List.mem_cons_of_mem l' h)

end

/-! ## Blocks -/

/-- The stretches that start with an element `p` accepts. What comes before the first is dropped. -/
def blocks (p : α → Bool) : List α → List (List α)
  | [] => []
  | a :: l => if p a then (a :: l.takeWhile fun b => !p b) :: blocks p l else blocks p l

section
variable {p : α → Bool} {l l' : List α}

theorem blocks_append_of_none (h : ∀ a ∈ l, p a = false) : blocks p (l ++ l') = blocks p l' := by
  induction l with
  | nil => rfl
  | cons a l ih =>
    have ha : ¬ p a = true := Bool.eq_false_iff.1 (h a List.mem_cons_self)
    rw [List.cons_append, blocks, if_neg ha, ih fun b hb => h b (List.mem_cons_of_mem a hb)]

/-- What is written block by block starts with the head of a block, if it is not empty. -/
theorem takeWhile_append_blocks {ι : Type*} {head : ι → α} {body : ι → List α} {is : List ι}
    (hhead : ∀ i ∈ is, p (head i) = true) (hl : ∀ a ∈ l, p a = false) :
    (l ++ is.flatMap fun i => head i :: body i).takeWhile (fun b => !p b) = l := by
  have hl' : ∀ a ∈ l, (!p a) = true := fun a ha => by rw [hl a ha]; rfl
  rw [List.takeWhile_append_of_pos hl']
  cases is with
  | nil => exact List.append_nil l
  | cons i is =>
    rw [List.flatMap_cons, List.cons_append, List.takeWhile_cons, hhead i List.mem_cons_self]
    exact List.append_nil l

theorem blocks_flatMap {ι : Type*} {head : ι → α} {body : ι → List α} {is : List ι}
    (hhead : ∀ i ∈ is, p (head i) = true) (hbody : ∀ i ∈ is, ∀ a ∈ body i, p a = false) :
    blocks p (is.flatMap fun i => head i :: body i) = is.map fun i => head i :: body i := by
  induction is with
  | nil => rfl
  | cons i is ih =>
    have hhead' : ∀ j ∈ is, p (head j) = true := fun j hj => hhead j (List.mem_cons_of_mem i hj)
    have hbody' := hbody i List.mem_cons_self
    rw [List.flatMap_cons, List.cons_append, blocks, if_pos (hhead i List.mem_cons_self),
      takeWhile_append_blocks hhead' hbody', blocks_append_of_none hbody',
      ih hhead' fun j hj => hbody j (List.mem_cons_of_mem i hj), List.map_cons]

end

/-! ## Keywords -/

/-- Neither of the two is a prefix of the other. -/
def Clash [DecidableEq α] (k x : List α) : Prop := ¬ k <+: x ∧ ¬ x <+: k

instance [DecidableEq α] (k x : List α) : Decidable (Clash k x) :=
  inferInstanceAs (Decidable (_ ∧ _))

theorem Clash.not_prefix [DecidableEq α] {k x : List α} (h : Clash k x) (y : List α) :
    ¬ k <+: x ++ y := fun hk =>
  (List.prefix_or_prefix_of_prefix hk (List.prefix_append x y)).elim h.1 h.2

theorem Clash.not_prefix' [DecidableEq α] {k x l : List α} (h : Clash k x) (hl : x <+: l) :
    ¬ k <+: l := by
  obtain ⟨y, rfl⟩ := hl
  exact h.not_prefix y

/-! ## Tokens -/

/-- The next stretch without space, and what follows it. -/
def readToken (space : α → Bool) (t : List α) : Option (List α × List α) :=
  let s := t.dropWhile space
  if s = [] then none else some (s.takeWhile fun c => !space c, s.dropWhile fun c => !space c)

section
variable {space : α → Bool} {tok rest : List α}

/-- A token between leading space and the space that ends it. -/
theorem readToken_append (lead tok rest : List α) {c : α} (hlead : ∀ a ∈ lead, space a = true)
    (htok : ∀ a ∈ tok, space a = false) (hne : tok ≠ []) (hc : space c = true) :
    readToken space (lead ++ tok ++ c :: rest) = some (tok, c :: rest) := by
  have hdrop : (lead ++ tok ++ c :: rest).dropWhile space = tok ++ c :: rest := by
    rw [List.append_assoc, List.dropWhile_append_of_pos hlead]
    cases tok with
    | nil => exact absurd rfl hne
    | cons a tok => rw [List.cons_append, List.dropWhile_cons_of_neg]; simp [htok a]
  have htok' : ∀ a ∈ tok, (!space a) = true := fun a ha => by rw [htok a ha]; rfl
  unfold readToken
  rw [hdrop, if_neg (by simp), List.takeWhile_append_of_pos htok',
    List.dropWhile_append_of_pos htok', List.takeWhile_cons, List.dropWhile_cons, hc]
  exact congrArg (fun t => some (t, c :: rest)) (List.append_nil tok)

theorem readToken_some {t : List α} (h : readToken space t = some (tok, rest)) :
    tok ≠ [] ∧ (∀ a ∈ tok, space a = false) ∧ ∃ lead, t = lead ++ tok ++ rest := by
  unfold readToken at h
  by_cases hs : t.dropWhile space = []
  · rw [if_pos hs] at h
    cases h
  · rw [if_neg hs] at h
    obtain ⟨rfl, rfl⟩ := Prod.mk.inj (Option.some.inj h)
    refine ⟨?_, fun a ha => ?_, t.takeWhile space, ?_⟩
    · obtain ⟨a, s, has⟩ := List.exists_cons_of_ne_nil hs
      have ha : space a = false := by
        have := List.head_dropWhile_not space hs
        simpa [has] using this
      rw [has, List.takeWhile_cons_of_pos (by rw [ha]; rfl)]
      exact List.cons_ne_nil _ _
    · simpa using List.mem_takeWhile_imp ha
    · rw [List.append_assoc, List.takeWhile_append_dropWhile, List.takeWhile_append_dropWhile]

end

/-! ## Reading -/

section
variable {σ ε β ι : Type*} {step : σ → β → Except ε σ} {ls ls' : List β} {P Q R : σ → Prop}

/-- From every state in `P`, reading `ls` succeeds and ends in `Q`. -/
def Parses (step : σ → β → Except ε σ) (ls : List β) (P Q : σ → Prop) : Prop :=
  ∀ s, P s → ∃ s', ls.foldlM step s = .ok s' ∧ Q s'

theorem Parses.nil : Parses step [] P P := fun s hs => ⟨s, rfl, hs⟩

theorem Parses.append (h : Parses step ls P Q) (h' : Parses step ls' Q R) :
    Parses step (ls ++ ls') P R := by
  intro s hs
  obtain ⟨s', hs', hQ⟩ := h s hs
  obtain ⟨s'', hs'', hR⟩ := h' s' hQ
  refine ⟨s'', ?_, hR⟩
  rw [List.foldlM_append, hs']
  exact hs''

theorem Parses.cons {l : β} (h : ∀ s, P s → ∃ s', step s l = .ok s' ∧ Q s')
    (h' : Parses step ls Q R) : Parses step (l :: ls) P R := by
  intro s hs
  obtain ⟨s', hs', hQ⟩ := h s hs
  obtain ⟨s'', hs'', hR⟩ := h' s' hQ
  refine ⟨s'', ?_, hR⟩
  rw [List.foldlM_cons, hs']
  exact hs''

/-- Lines that change nothing. -/
theorem Parses.skip (h : ∀ l ∈ ls, ∀ s, P s → step s l = .ok s) : Parses step ls P P := by
  induction ls with
  | nil => exact .nil
  | cons l ls ih =>
    exact .cons (fun s hs => ⟨s, h l List.mem_cons_self s hs, hs⟩)
      (ih fun l' hl' => h l' (List.mem_cons_of_mem l hl'))

/-- Item by item; `I done` holds when the items `done` have been read. -/
theorem Parses.flatMap {I : List ι → σ → Prop} {f : ι → List β} {is : List ι}
    (h : ∀ done, ∀ i ∈ is, Parses step (f i) (I done) (I (done ++ [i]))) (done : List ι) :
    Parses step (is.flatMap f) (I done) (I (done ++ is)) := by
  induction is generalizing done with
  | nil => rw [List.append_nil]; exact .nil
  | cons i is ih =>
    have hrest := ih (fun done j hj => h done j (List.mem_cons_of_mem i hj)) (done ++ [i])
    rw [List.append_assoc] at hrest
    exact (h done i List.mem_cons_self).append hrest

/-- What every step keeps that succeeds. -/
theorem foldlM_inv {I : σ → Prop} (hI : ∀ s l s', l ∈ ls → I s → step s l = .ok s' → I s')
    {s s' : σ} (hs : I s) (h : ls.foldlM step s = .ok s') : I s' := by
  induction ls generalizing s with
  | nil =>
    obtain rfl := Except.ok.inj h
    exact hs
  | cons l ls ih =>
    rw [List.foldlM_cons] at h
    cases hl : step s l with
    | error e => rw [hl] at h; cases h
    | ok s₁ =>
      rw [hl] at h
      exact ih (fun s l' s' hl' => hI s l' s' (List.mem_cons_of_mem l hl'))
        (hI s l s₁ List.mem_cons_self hs hl) h

end

end Lines
