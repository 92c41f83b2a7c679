import Namecon.Lib.Checked

/-!
# Checked writes

`write` is a copy into a buffer of fixed size, a failure where it would end outside. `Writer` is a
buffer that is filled from its start on; `Holds w n l` says that it has the size `n` and that `l`
has been written to it.
-/

namespace Checked

universe u

variable {α : Type u} {buf src l : List α} {i n : Nat}

/-- `src` copied to the offset `i`. -/
def write (buf : List α) (i : Nat) (src : List α) : Result (List α) :=
  if i + src.length ≤ buf.length then .ok (buf.take i ++ src ++ buf.drop (i + src.length))
  else .error (.outOfBounds (i + src.length - 1))

theorem write_ok (h : i + src.length ≤ buf.length) :
    write buf i src = .ok (buf.take i ++ src ++ buf.drop (i + src.length)) := if_pos h

/-- A buffer that is filled from its start. -/
structure Writer (α : Type u) where
  buf : List α
  /-- Where the next copy goes. -/
  len : Nat

/-- A copy to the position, which moves behind it; an error where the buffer is too short. -/
def Writer.append (w : Writer α) (src : List α) : Result (Writer α) := do
  let buf ← write w.buf w.len src
  return ⟨buf, w.len + src.length⟩

/-- One copy behind the other. -/
def Writer.appendAll (w : Writer α) (srcs : List (List α)) : Result (Writer α) :=
  srcs.foldlM Writer.append w

/-- `w` has written `l` so far, into a buffer of `n` elements. -/
structure Holds (w : Writer α) (n : Nat) (l : List α) : Prop where
  starts : l <+: w.buf
  len : w.len = l.length
  size : w.buf.length = n

variable {w : Writer α}

theorem holds_nil (h : buf.length = n) : Holds ⟨buf, 0⟩ n [] := ⟨List.nil_prefix, rfl, h⟩

theorem Holds.append (h : Holds w n l) (src : List α) (hroom : l.length + src.length ≤ n) :
    ∃ w', w.append src = .ok w' ∧ Holds w' n (l ++ src) := by
  obtain ⟨rest, hrest⟩ := h.starts
  have hlen := h.len
  have hsize := h.size
  refine ⟨⟨w.buf.take w.len ++ src ++ w.buf.drop (w.len + src.length), w.len + src.length⟩, ?_,
    ⟨⟨w.buf.drop (w.len + src.length), ?_⟩, ?_, ?_⟩⟩
  · rw [Writer.append, write_ok (by omega), ok_bind]
    rfl
  · rw [hlen, ← hrest, List.take_left]
  · rw [List.length_append, ← hlen]
  · simp only [List.length_append, List.length_take, List.length_drop]
    omega

theorem Holds.appendAll (h : Holds w n l) (srcs : List (List α))
    (hroom : l.length + srcs.flatten.length ≤ n) :
    ∃ w', w.appendAll srcs = .ok w' ∧ Holds w' n (l ++ srcs.flatten) := by
  induction srcs generalizing w l with
  | nil => exact ⟨w, rfl, by rwa [List.flatten_nil, List.append_nil]⟩
  | cons src srcs ih =>
    rw [List.flatten_cons, List.length_append] at hroom
    obtain ⟨w', hw', h'⟩ := h.append src (by omega)
    obtain ⟨w'', hw'', h''⟩ := ih h' (by rw [List.length_append]; omega)
    refine ⟨w'', ?_, ?_⟩
    · rw [Writer.appendAll, List.foldlM_cons, hw', ok_bind]
      exact hw''
    · rwa [List.flatten_cons, ← List.append_assoc]

/-- A copy over what has been written. -/
theorem Holds.write (h : Holds w n l) (i : Nat) (src : List α) (hin : i + src.length ≤ l.length) :
    ∃ buf, write w.buf i src = .ok buf ∧
      Holds ⟨buf, w.len⟩ n (l.take i ++ src ++ l.drop (i + src.length)) := by
  obtain ⟨rest, hrest⟩ := h.starts
  have hle := h.starts.length_le
  refine ⟨_, write_ok (by omega), ⟨⟨rest, ?_⟩, ?_, ?_⟩⟩
  · show _ = w.buf.take i ++ src ++ w.buf.drop (i + src.length)
    rw [← hrest, List.take_append_of_le_length (by omega), List.drop_append_of_le_length hin,
      List.append_assoc (l.take i ++ src)]
  · rw [h.len]
    simp only [List.length_append, List.length_take, List.length_drop]
    omega
  · have hsize := h.size
    simp only [List.length_append, List.length_take, List.length_drop]
    omega

theorem readSlice_all (h : l.length = n) : readSlice l 0 n = .ok l := by
  rw [readSlice_ok (by omega), List.drop_zero, List.take_of_length_le (Nat.le_of_eq h)]

theorem Holds.readSlice (h : Holds w n l) : readSlice w.buf 0 w.len = .ok l := by
  have hle := h.starts.length_le
  rw [h.len, readSlice_ok (by omega), List.drop_zero]
  obtain ⟨rest, hrest⟩ := h.starts
  rw [← hrest, List.take_left]

end Checked
