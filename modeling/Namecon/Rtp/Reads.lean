import Namecon.Lib.Checked
import Namecon.Rtp.Bytes

/-!
# Fields of a buffer, read by read

`readNtohs` and `readNtohl` are the `memcpy` and `ntohs` or `ntohl` of a field with every byte that
is copied checked against the buffer.
-/

namespace Namecon

open Checked (Result Returns read returns_bind returns_ok returns_read read_ok ok_bind)

/-- `ntohs` of the two bytes at `i`. -/
def readNtohs (p : Bytes) (i : Nat) : Result UInt16 := do
  let a ← read p i
  let b ← read p (i + 1)
  return ntohs a b

/-- `ntohl` of the four bytes at `i`. -/
def readNtohl (p : Bytes) (i : Nat) : Result UInt32 := do
  let a ← read p i
  let b ← read p (i + 1)
  let c ← read p (i + 2)
  let d ← read p (i + 3)
  return ntohl a b c d

theorem readNtohs_ok {p : Bytes} {i : Nat} (h : i + 2 ≤ p.length) :
    readNtohs p i = .ok (ntohsAt p i) := by
  unfold readNtohs
  rw [read_ok (by omega) 0, ok_bind, read_ok (by omega) 0]
  rfl

theorem readNtohl_ok {p : Bytes} {i : Nat} (h : i + 4 ≤ p.length) :
    readNtohl p i = .ok (ntohlAt p i) := by
  unfold readNtohl
  rw [read_ok (by omega) 0, ok_bind, read_ok (by omega) 0, ok_bind, read_ok (by omega) 0, ok_bind,
    read_ok (by omega) 0]
  rfl

theorem returns_readNtohl {p : Bytes} {i : Nat} :
    Returns (readNtohl p i) ↔ i + 4 ≤ p.length := by
  constructor
  · intro h
    obtain ⟨_, -, h⟩ := returns_bind.1 h
    obtain ⟨_, -, h⟩ := returns_bind.1 h
    obtain ⟨_, -, h⟩ := returns_bind.1 h
    obtain ⟨d, hd, -⟩ := returns_bind.1 h
    have hlt := returns_read.1 ⟨d, hd⟩
    omega
  · intro h
    rw [readNtohl_ok h]
    exact returns_ok _

end Namecon
