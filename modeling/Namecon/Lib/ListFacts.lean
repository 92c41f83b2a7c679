import Mathlib.Data.List.Nodup

/-!
# Lists with distinct keys

* `updateFirst p f l` is the loop that applies `f` to the first element `p` accepts and stops. When
  the elements have distinct keys, it applies `f` to the elements with the key of the first match
  (`updateFirst_eq_map`), which is how proofs read it; `filter_updateFirst` and
  `filter_updateFirst_of_not` say what of it a part of the list sees.
* `setKey l k v` is `m[k] = v` and `eraseKey l k` is `m.erase(k)` for a map kept as the list of its
  entries in some order.
* `foldl_ite_cases`, `foldl_ite_eq_iff`: in a loop that overwrites a value, the last one stands.
* `nodup_keys_flatMap`, `nodup_keys_filterMap`: a loop over distinct keys that yields at most one
  value for a key yields values with distinct keys; `filter_key_eq_singleton`: a key picks one.
* `getLast?_filterMap_cons`, `eq_append_of_idxOf?`, `idxOf?_append_cons`: the last value a loop
  writes, and the first occurrence of an element.
* `foldl_update_of_not_mem`, `foldl_update_of_mem`: a loop that writes a map under distinct keys.
-/

namespace ListFacts

variable {α κ : Type*} {p : α → Bool} {f : α → α} {l : List α}

/-- `f` at the first element that satisfies `p`. -/
def updateFirst (p : α → Bool) (f : α → α) (l : List α) : List α :=
  l.replaceF fun a => if p a then some (f a) else none

theorem updateFirst_of_none (h : l.find? p = none) : updateFirst p f l = l :=
  List.replaceF_of_forall_none fun a ha => by
    rw [if_neg (List.find?_eq_none.1 h a ha)]

theorem updateFirst_cons_of_pos {x : α} (hx : p x = true) :
    updateFirst p f (x :: l) = f x :: l := by
  simp [updateFirst, hx]

theorem updateFirst_cons_of_neg {x : α} (hx : p x = false) :
    updateFirst p f (x :: l) = x :: updateFirst p f l := by
  simp [updateFirst, hx]

theorem updateFirst_eq_map [DecidableEq κ] {key : α → κ} (hl : (l.map key).Nodup) {a : α}
    (ha : l.find? p = some a) :
    updateFirst p f l = l.map fun x => if key x = key a then f x else x := by
  induction l with
  | nil => cases ha
  | cons x l ih =>
    rw [List.map_cons, List.nodup_cons] at hl
    rw [List.find?_cons] at ha
    cases hx : p x with
    | false =>
      rw [hx] at ha
      have hne : key x ≠ key a := fun he =>
        hl.1 (he ▸ List.mem_map_of_mem (List.mem_of_find?_eq_some ha))
      rw [updateFirst_cons_of_neg hx, ih hl.2 ha, List.map_cons, if_neg hne]
    | true =>
      rw [hx] at ha
      obtain rfl := Option.some.inj ha
      have hrest : (l.map fun z => if key z = key x then f z else z) = l.map id :=
        List.map_congr_left fun z hz =>
          if_neg fun he : key z = key x => hl.1 (he ▸ List.mem_map_of_mem hz)
      rw [updateFirst_cons_of_pos hx, List.map_cons, if_pos rfl, hrest, List.map_id]

/-- The part of the list that all elements `p` accepts belong to. -/
theorem filter_updateFirst {q : α → Bool} (hp : ∀ a, p a = true → q a = true)
    (hf : ∀ a, q (f a) = q a) : (updateFirst p f l).filter q = updateFirst p f (l.filter q) := by
  induction l with
  | nil => rfl
  | cons a l ih =>
    cases ha : p a with
    | true =>
      have hq := hp a ha
      rw [updateFirst_cons_of_pos ha, List.filter_cons_of_pos ((hf a).trans hq),
        List.filter_cons_of_pos hq, updateFirst_cons_of_pos ha]
    | false =>
      rw [updateFirst_cons_of_neg ha]
      cases hq : q a with
      | true =>
        rw [List.filter_cons_of_pos hq, List.filter_cons_of_pos hq, updateFirst_cons_of_neg ha, ih]
      | false =>
        have hq : ¬ q a = true := by rw [hq]; exact Bool.false_ne_true
        rw [List.filter_cons_of_neg hq, List.filter_cons_of_neg hq, ih]

/-- A part that no element `p` accepts belongs to. -/
theorem filter_updateFirst_of_not {q : α → Bool} (hp : ∀ a, p a = true → q a = false)
    (hf : ∀ a, q (f a) = q a) : (updateFirst p f l).filter q = l.filter q := by
  induction l with
  | nil => rfl
  | cons a l ih =>
    cases ha : p a with
    | true =>
      have hq : ¬ q a = true := by rw [hp a ha]; exact Bool.false_ne_true
      rw [updateFirst_cons_of_pos ha, List.filter_cons_of_neg hq,
        List.filter_cons_of_neg (by rwa [hf])]
    | false => rw [updateFirst_cons_of_neg ha, List.filter_cons, List.filter_cons, ih]

theorem map_updateFirst {κ : Type*} {key : α → κ} (hf : ∀ a, key (f a) = key a) :
    (updateFirst p f l).map key = l.map key := by
  induction l with
  | nil => rfl
  | cons a l ih =>
    cases ha : p a with
    | true => rw [updateFirst_cons_of_pos ha, List.map_cons, List.map_cons, hf]
    | false => rw [updateFirst_cons_of_neg ha, List.map_cons, List.map_cons, ih]

/-- Some element is the last one with `q`, or none has it. -/
theorem exists_last (q : α → Prop) [DecidablePred q] (l : List α) : (∀ a ∈ l, ¬ q a) ∨
    ∃ pre a post, l = pre ++ a :: post ∧ q a ∧ ∀ x ∈ post, ¬ q x := by
  induction l with
  | nil => exact .inl fun _ ha => absurd ha List.not_mem_nil
  | cons x l ih =>
    rcases ih with hnone | ⟨pre, a, post, rfl, ha, hpost⟩
    · by_cases hx : q x
      · exact .inr ⟨[], x, l, rfl, hx, hnone⟩
      · exact .inl fun a ha => (List.mem_cons.1 ha).elim (fun h => h ▸ hx) (hnone a)
    · exact .inr ⟨x :: pre, a, post, rfl, ha, hpost⟩

section
variable {β : Type*} {q : α → Prop} [DecidablePred q] {g : α → β}

theorem foldl_ite_of_none (h : ∀ a ∈ l, ¬ q a) (b : β) :
    l.foldl (fun b a => if q a then g a else b) b = b := by
  induction l with
  | nil => rfl
  | cons x l ih =>
    rw [List.foldl_cons, if_neg (h x (.head _))]
    exact ih fun a ha => h a (.tail _ ha)

theorem foldl_ite_of_last {pre post : List α} {a : α} (ha : q a) (hpost : ∀ x ∈ post, ¬ q x)
    (b : β) : (pre ++ a :: post).foldl (fun b a => if q a then g a else b) b = g a := by
  rw [List.foldl_append, List.foldl_cons, if_pos ha, foldl_ite_of_none hpost]

theorem foldl_ite_cases (q : α → Prop) [DecidablePred q] (g : α → β) (l : List α) (b : β) :
    (l.foldl (fun b a => if q a then g a else b) b = b ∧ ∀ a ∈ l, ¬ q a) ∨
      ∃ a ∈ l, q a ∧ l.foldl (fun b a => if q a then g a else b) b = g a := by
  rcases exists_last q l with hnone | ⟨pre, a, post, rfl, ha, hpost⟩
  · exact .inl ⟨foldl_ite_of_none hnone b, hnone⟩
  · exact .inr ⟨a, List.mem_append_right _ (.head _), ha, foldl_ite_of_last ha hpost b⟩

/-- The loop leaves the value as it was if the last assignment assigns it. -/
theorem foldl_ite_eq_iff (q : α → Prop) [DecidablePred q] (g : α → β) (l : List α) (b : β) :
    l.foldl (fun b a => if q a then g a else b) b = b ↔
      ∀ pre a post, l = pre ++ a :: post → q a → (∀ x ∈ post, ¬ q x) → g a = b := by
  constructor
  · rintro h pre a post rfl ha hpost
    rwa [foldl_ite_of_last ha hpost] at h
  · intro h
    rcases exists_last q l with hnone | ⟨pre, a, post, hl, ha, hpost⟩
    · exact foldl_ite_of_none hnone b
    · rw [hl, foldl_ite_of_last ha hpost]
      exact h pre a post hl ha hpost

end

theorem nodup_keys_flatMap {β : Type*} {l : List κ} (hl : l.Nodup) {f : κ → List β}
    (hf : ∀ k ∈ l, (f k).length ≤ 1) :
    ((l.flatMap fun k => (f k).map (Prod.mk k)).map Prod.fst).Nodup := by
  have hkeys : (l.flatMap fun k => (f k).map (Prod.mk k)).map Prod.fst =
      l.flatMap fun k => (f k).map fun _ => k := by
    rw [List.map_flatMap]
    exact List.flatMap_congr fun k _ => List.map_map
  rw [hkeys, List.nodup_flatMap]
  refine ⟨fun k hk => ?_, hl.imp fun {j k} hjk i hj hk => ?_⟩
  · match f k, hf k hk with
    | [], _ => exact .nil
    | [_], _ => exact List.nodup_singleton k
  · obtain ⟨_, _, rfl⟩ := List.mem_map.1 hj
    obtain ⟨_, _, rfl⟩ := List.mem_map.1 hk
    exact hjk rfl

/-- Among pairs with distinct keys, a key filters out the one pair that has it. -/
theorem filter_key_eq_singleton {β : Type*} [DecidableEq κ] {l : List (κ × β)} {x : κ × β}
    (hl : (l.map Prod.fst).Nodup) (hx : x ∈ l) : l.filter (fun y => y.1 = x.1) = [x] := by
  induction l with
  | nil => cases hx
  | cons y l ih =>
    obtain ⟨hy, hl⟩ := List.nodup_cons.1 hl
    rcases List.mem_cons.1 hx with rfl | hx
    · have hrest : l.filter (fun y => y.1 = x.1) = [] := by
        refine List.filter_eq_nil_iff.2 fun z hz he => hy ?_
        exact of_decide_eq_true he ▸ List.mem_map_of_mem hz
      simp [hrest]
    · have hne : y.1 ≠ x.1 := fun he => hy (he ▸ List.mem_map_of_mem hx)
      rw [List.filter_cons_of_neg (by simpa using hne), ih hl hx]

theorem nodup_keys_filterMap {β : Type*} {key : α → κ} (hl : (l.map key).Nodup) (g : α → Option β) :
    ((l.filterMap fun a => (g a).map (Prod.mk (key a))).map Prod.fst).Nodup := by
  induction l with
  | nil => exact .nil
  | cons a l ih =>
    obtain ⟨ha, hl⟩ := List.nodup_cons.1 hl
    rw [List.filterMap_cons]
    cases g a with
    | none => exact ih hl
    | some b =>
      refine List.nodup_cons.2 ⟨fun hmem => ha ?_, ih hl⟩
      obtain ⟨_, hx, hkey⟩ := List.mem_map.1 hmem
      obtain ⟨a', ha', hga'⟩ := List.mem_filterMap.1 hx
      obtain ⟨b', -, rfl⟩ := Option.map_eq_some_iff.1 hga'
      exact List.mem_map.2 ⟨a', ha', hkey⟩

/-! ## Maps as lists of entries -/

section
variable [DecidableEq κ] {m : List (κ × α)} {k : κ} {v : α} {e : κ × α}

/-- The entries under other keys. -/
def eraseKey (m : List (κ × α)) (k : κ) : List (κ × α) := m.filter (·.1 ≠ k)

/-- `m[k] = v` on an association list; a key that was there moves to the end. -/
def setKey (m : List (κ × α)) (k : κ) (v : α) : List (κ × α) := eraseKey m k ++ [(k, v)]

@[simp] theorem mem_eraseKey : e ∈ eraseKey m k ↔ e ∈ m ∧ e.1 ≠ k := by
  simp [eraseKey]

@[simp] theorem mem_setKey : e ∈ setKey m k v ↔ (e ∈ m ∧ e.1 ≠ k) ∨ e = (k, v) := by
  simp [setKey]

theorem isEmpty_eraseKey : (eraseKey m k).isEmpty = true ↔ ∀ e ∈ m, e.1 = k := by
  rw [List.isEmpty_iff, List.eq_nil_iff_forall_not_mem]
  refine forall_congr' fun e => ?_
  rw [mem_eraseKey]
  tauto

theorem eraseKey_eraseKey (m : List (κ × α)) (k : κ) : eraseKey (eraseKey m k) k = eraseKey m k := by
  unfold eraseKey
  rw [List.filter_filter]
  simp only [Bool.and_self]

theorem mem_keys_eraseKey {j : κ} :
    j ∈ (eraseKey m k).map Prod.fst ↔ j ∈ m.map Prod.fst ∧ j ≠ k := by
  simp only [List.mem_map, mem_eraseKey]
  constructor
  · intro h
    obtain ⟨e, ⟨he, hk⟩, rfl⟩ := h
    exact ⟨⟨e, he, rfl⟩, hk⟩
  · intro h
    obtain ⟨⟨e, he, rfl⟩, hk⟩ := h
    exact ⟨e, ⟨he, hk⟩, rfl⟩

theorem mem_keys_setKey {j : κ} : j ∈ (setKey m k v).map Prod.fst ↔ j ∈ m.map Prod.fst ∨ j = k := by
  rw [setKey, List.map_append, List.mem_append, mem_keys_eraseKey, List.map_singleton,
    List.mem_singleton]
  by_cases hk : j = k
  · exact iff_of_true (.inr hk) (.inr hk)
  · rw [and_iff_left hk]

theorem nodup_eraseKey (h : (m.map Prod.fst).Nodup) : ((eraseKey m k).map Prod.fst).Nodup :=
  h.sublist (List.filter_sublist.map _)

theorem nodup_setKey (h : (m.map Prod.fst).Nodup) : ((setKey m k v).map Prod.fst).Nodup := by
  rw [setKey, List.map_append]
  refine List.Nodup.append (nodup_eraseKey h) (List.nodup_singleton _) fun j hj hk => ?_
  obtain ⟨e, he, rfl⟩ := List.mem_map.1 hj
  exact (mem_eraseKey.1 he).2 (List.mem_singleton.1 hk)

end

/-! ## First and last -/

theorem getLast?_filterMap_cons {β : Type*} (w : α → Option β) (a : α) (l : List α) :
    ((a :: l).filterMap w).getLast? = (l.filterMap w).getLast?.or (w a) := by
  rw [List.filterMap_cons]
  cases w a with
  | none => rw [Option.or_none]
  | some b =>
    rw [List.getLast?_cons]
    cases (l.filterMap w).getLast? <;> rfl

/-- The first occurrence of an element splits the list. -/
theorem eq_append_of_idxOf? [DecidableEq α] {a : α} {i : Nat} (h : l.idxOf? a = some i) :
    l = l.take i ++ a :: l.drop (i + 1) := by
  obtain ⟨hi, ha, -⟩ := List.idxOf?_eq_some_iff.1 h
  conv_lhs => rw [← List.take_append_drop i l, List.drop_eq_getElem_cons hi, ha]

theorem idxOf?_append_cons [DecidableEq α] {a : α} (h : a ∉ l) (r : List α) :
    (l ++ a :: r).idxOf? a = some l.length := by
  induction l with
  | nil => rw [List.nil_append, List.idxOf?_cons, if_pos (beq_self_eq_true a)]; rfl
  | cons x l ih =>
    have hx : (x == a) = false := beq_eq_false_iff_ne.2 fun he => h (he ▸ List.mem_cons_self)
    rw [List.cons_append, List.idxOf?_cons, hx, ih fun hl => h (.tail _ hl)]
    rfl

/-- Entries with one key are one entry. -/
theorem eq_of_key {m : List (κ × α)} {k : κ} {v v' : α} (h : (m.map Prod.fst).Nodup)
    (hv : (k, v) ∈ m) (hv' : (k, v') ∈ m) :
    v = v' :=
  congrArg Prod.snd (List.inj_on_of_nodup_map h hv hv' rfl)

/-- An order in which a map may be walked: the entries, permuted. -/
structure MapRange (κ α : Type*) where
  walk : List (κ × α) → List (κ × α)
  perm : ∀ m, (walk m).Perm m

/-- The order the entries are kept in. -/
def MapRange.kept (κ α : Type*) : MapRange κ α := ⟨id, fun _ => .refl _⟩

/-- Where an element of a list with a new last one stands. -/
theorem snoc_eq_append_cons {α : Type*} {l before after : List α} {a b : α}
    (h : l ++ [a] = before ++ b :: after) : (l = before ∧ a = b ∧ after = []) ∨
      ∃ after', after = after' ++ [a] ∧ l = before ++ b :: after' := by
  rcases after.eq_nil_or_concat' with rfl | ⟨after', c, rfl⟩
  · obtain ⟨rfl, he⟩ := List.append_inj' h rfl
    exact .inl ⟨rfl, List.singleton_inj.1 he, rfl⟩
  · rw [← List.cons_append, ← List.append_assoc] at h
    obtain ⟨rfl, he⟩ := List.append_inj' h rfl
    exact .inr ⟨after', by rw [List.singleton_inj.1 he], rfl⟩

/-- The first element `q` accepts, and the list without it. -/
theorem perm_cons_eraseP {q : α → Bool} {a : α} (h : l.find? q = some a) :
    l.Perm (a :: l.eraseP q) := by
  induction l with
  | nil => cases h
  | cons x l ih =>
    rw [List.find?_cons] at h
    cases hx : q x with
    | true =>
      rw [hx] at h
      obtain rfl := Option.some.inj h
      rw [List.eraseP_cons_of_pos hx]
    | false =>
      rw [hx] at h
      rw [List.eraseP_cons_of_neg (by rw [hx]; exact Bool.false_ne_true)]
      exact ((ih h).cons x).trans (.swap _ _ _)

section
variable {β : Type*} [DecidableEq κ] {key : α → κ} {val : α → β}

/-- A loop of `m[key] = val`. -/
theorem foldl_update_of_not_mem {k : κ} (h : k ∉ l.map key) (m : κ → β) :
    l.foldl (fun m a => Function.update m (key a) (val a)) m k = m k := by
  induction l generalizing m with
  | nil => rfl
  | cons a l ih =>
    rw [List.map_cons, List.mem_cons, not_or] at h
    rw [List.foldl_cons, ih h.2, Function.update_of_ne h.1]

theorem foldl_update_of_mem (hl : (l.map key).Nodup) {a : α} (ha : a ∈ l) (m : κ → β) :
    l.foldl (fun m a => Function.update m (key a) (val a)) m (key a) = val a := by
  induction l generalizing m with
  | nil => cases ha
  | cons x l ih =>
    rw [List.map_cons, List.nodup_cons] at hl
    rw [List.foldl_cons]
    rcases List.mem_cons.1 ha with rfl | ha
    · rw [foldl_update_of_not_mem hl.1, Function.update_self]
    · exact ih hl.2 ha _

end

end ListFacts
