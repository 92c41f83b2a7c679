import Mathlib.Data.List.Basic

/-!
# Network byte order

The C++ code moves header fields with `memcpy` and `ntohs`/`ntohl`/`htons`/`htonl`. Here `ntohs`
and `ntohl` read a field from its bytes on the wire and `htons` and `htonl` give the bytes of a
field, so each stands for the conversion together with the `memcpy` beside it.
-/

namespace Namecon

/-- What the code has as `const uint8_t*` and a length. -/
abbrev Bytes := List UInt8

/-- The 16-bit field with the bytes `a b` on the wire. -/
def ntohs (a b : UInt8) : UInt16 := UInt16.ofNat (a.toNat * 0x100 + b.toNat)

/-- The 32-bit field with the bytes `a b c d` on the wire. -/
def ntohl (a b c d : UInt8) : UInt32 :=
  UInt32.ofNat (a.toNat * 0x1000000 + b.toNat * 0x10000 + c.toNat * 0x100 + d.toNat)

/-- The two bytes of `htons(v)` in memory. -/
def htons (v : UInt16) : Bytes := [UInt8.ofNat (v.toNat / 0x100), UInt8.ofNat v.toNat]

/-- The four bytes of `htonl(v)` in memory. -/
def htonl (v : UInt32) : Bytes :=
  [UInt8.ofNat (v.toNat / 0x1000000), UInt8.ofNat (v.toNat / 0x10000),
    UInt8.ofNat (v.toNat / 0x100), UInt8.ofNat v.toNat]

@[simp] theorem htonl_length (v : UInt32) : (htonl v).length = 4 := rfl

theorem ofNat_eq_of_mod {n : Nat} {b : UInt8} (h : n % 0x100 = b.toNat) : UInt8.ofNat n = b := by
  apply UInt8.toNat_inj.1
  rw [UInt8.toNat_ofNat']
  exact h

@[simp] theorem htons_ntohs (a b : UInt8) : htons (ntohs a b) = [a, b] := by
  have ha := a.toNat_lt
  have hb := b.toNat_lt
  have hv : (ntohs a b).toNat = a.toNat * 0x100 + b.toNat := by
    rw [ntohs, UInt16.toNat_ofNat']
    exact Nat.mod_eq_of_lt (by omega)
  simp only [htons, hv, List.cons.injEq, and_true]
  exact ⟨ofNat_eq_of_mod (by omega), ofNat_eq_of_mod (by omega)⟩

@[simp] theorem htonl_ntohl (a b c d : UInt8) : htonl (ntohl a b c d) = [a, b, c, d] := by
  have ha := a.toNat_lt
  have hb := b.toNat_lt
  have hc := c.toNat_lt
  have hd := d.toNat_lt
  have hv : (ntohl a b c d).toNat =
      a.toNat * 0x1000000 + b.toNat * 0x10000 + c.toNat * 0x100 + d.toNat := by
    rw [ntohl, UInt32.toNat_ofNat']
    exact Nat.mod_eq_of_lt (by omega)
  simp only [htonl, hv, List.cons.injEq, and_true]
  exact ⟨ofNat_eq_of_mod (by omega), ofNat_eq_of_mod (by omega), ofNat_eq_of_mod (by omega),
    ofNat_eq_of_mod (by omega)⟩

/-- The four bytes of `htonl v`, read back. -/
theorem ntohl_htonl (v : UInt32) :
    ntohl (UInt8.ofNat (v.toNat / 0x1000000)) (UInt8.ofNat (v.toNat / 0x10000))
      (UInt8.ofNat (v.toNat / 0x100)) (UInt8.ofNat v.toNat) = v := by
  have hv := v.toNat_lt
  apply UInt32.toNat_inj.1
  rw [ntohl, UInt32.toNat_ofNat']
  simp only [UInt8.toNat_ofNat']
  omega

/-- The two bytes of `htons v`, read back. -/
theorem ntohs_htons (v : UInt16) :
    ntohs (UInt8.ofNat (v.toNat / 0x100)) (UInt8.ofNat v.toNat) = v := by
  have hv := v.toNat_lt
  apply UInt16.toNat_inj.1
  rw [ntohs, UInt16.toNat_ofNat']
  simp only [UInt8.toNat_ofNat']
  omega

/-- The 32-bit field at offset `i` of `buf`, read as `memcpy` and `ntohl` do. -/
def ntohlAt (buf : Bytes) (i : Nat) : UInt32 :=
  ntohl (buf.getD i 0) (buf.getD (i + 1) 0) (buf.getD (i + 2) 0) (buf.getD (i + 3) 0)

/-- The 16-bit field at offset `i` of `buf`. -/
def ntohsAt (buf : Bytes) (i : Nat) : UInt16 := ntohs (buf.getD i 0) (buf.getD (i + 1) 0)

/-! ## Fields of a part of a buffer -/

theorem getD_take {p : Bytes} {i n : Nat} (h : i < n) : (p.take n).getD i 0 = p.getD i 0 := by
  rw [List.getD_eq_getElem?_getD, List.getElem?_take_of_lt h, ← List.getD_eq_getElem?_getD]

theorem ntohsAt_take {p : Bytes} {i n : Nat} (h : i + 2 ≤ n) :
    ntohsAt (p.take n) i = ntohsAt p i := by
  unfold ntohsAt
  rw [getD_take (by omega), getD_take (by omega)]

theorem ntohlAt_take {p : Bytes} {i n : Nat} (h : i + 4 ≤ n) :
    ntohlAt (p.take n) i = ntohlAt p i := by
  unfold ntohlAt
  rw [getD_take (by omega), getD_take (by omega), getD_take (by omega), getD_take (by omega)]

theorem getD_drop (p : Bytes) (offset i : Nat) :
    (p.drop offset).getD i 0 = p.getD (offset + i) 0 := by
  rw [List.getD_eq_getElem?_getD, List.getElem?_drop, ← List.getD_eq_getElem?_getD]

theorem ntohsAt_drop (p : Bytes) (offset i : Nat) :
    ntohsAt (p.drop offset) i = ntohsAt p (offset + i) := by
  unfold ntohsAt
  rw [getD_drop, getD_drop, Nat.add_assoc]

theorem ntohlAt_drop (p : Bytes) (offset i : Nat) :
    ntohlAt (p.drop offset) i = ntohlAt p (offset + i) := by
  unfold ntohlAt
  rw [getD_drop, getD_drop, getD_drop, getD_drop, Nat.add_assoc, Nat.add_assoc, Nat.add_assoc]

end Namecon
