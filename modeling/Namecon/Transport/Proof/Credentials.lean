import Namecon.Transport.Proof.Attributes

/-!
# What valid credentials prove

A packet with valid credentials has a MESSAGE-INTEGRITY under our password (`exists_verifies`) and
a USERNAME for us, on which the loop relies (`exists_relies`). The loop does not end at the
MESSAGE-INTEGRITY, so the one need not cover the other: `covered_iff` says exactly when it does.
-/

namespace Namecon.IceServer

open Cursor (getLast?_filterMap_visits)

variable {ice : IceServer} {lib : IceLib} {data u : Bytes} {p m pos : Nat}

/-- The attribute at `m` is the HMAC under our password of exactly the bytes before it, under the
length of a message that ends with it. -/
structure Verifies (ice : IceServer) (lib : IceLib) (data : Bytes) (m : Nat) : Prop where
  visited : m ∈ attributes data
  type : ntohsAt data m = attrMessageIntegrity
  length : m + 4 + 20 - stunHeaderSize < 2 ^ 16
  value : attrValue data m = lib.hmacSha1 ice.icePwd
    (withLength (data.take m) (UInt16.ofNat (m + 4 + 20 - stunHeaderSize)))

/-- The attribute at `p` is the USERNAME `ufrag:u`, and no attribute behind it is a USERNAME with a
colon: it is the one the loop relies on. -/
structure Relies (ice : IceServer) (data : Bytes) (p : Nat) (u : Bytes) : Prop where
  visited : p ∈ attributes data
  type : ntohsAt data p = attrUsername
  value : attrValue data p = ice.iceUfrag ++ 0x3A :: u
  nonempty : u ≠ []
  last : ∀ q ∈ attributes data, p < q → peerPart data q = none

/-- The USERNAME that the loop relies on is inside the bytes that a MESSAGE-INTEGRITY covers. -/
def Covered (ice : IceServer) (lib : IceLib) (data u : Bytes) : Prop :=
  ∃ m p, ice.Verifies lib data m ∧ ice.Relies data p u ∧ p + 4 + (ntohsAt data (p + 2)).toNat ≤ m

theorem exists_verifies (h : ice.validateCredentials lib data = some u) :
    ∃ m, ice.Verifies lib data m ∧
      ∀ q ∈ attributes data, ntohsAt data q = attrMessageIntegrity → q ≤ m := by
  obtain ⟨hpass, -, -, m, hm, hle, hmac⟩ := validateCredentials_eq_some.1 h
  obtain ⟨m', hvisited, hat, hlast⟩ := getLast?_filterMap_visits.1 hm
  obtain ⟨htype, rfl⟩ := integrityAt_eq_some.1 hat
  refine ⟨m', ⟨hvisited, htype, by simp only [stunHeaderSize]; omega, ?_⟩, fun q hq hmi => ?_⟩
  · have hlen : ntohsAt data (m' + 2) = 20 := (hpass m' hvisited).integrity htype
    rw [attrValue, hlen]
    exact hmac.symm
  · refine Nat.not_lt.1 fun hlt => ?_
    have hsome := integrityAt_eq_some.2 ⟨hmi, rfl⟩
    exact absurd ((hlast q hq hlt).symm.trans hsome) (Option.some_ne_none q).symm

theorem exists_relies (h : ice.validateCredentials lib data = some u) :
    ∃ p, ice.Relies data p u := by
  obtain ⟨hpass, hu, hne, -⟩ := validateCredentials_eq_some.1 h
  obtain ⟨p, hvisited, hat, hlast⟩ := getLast?_filterMap_visits.1 hu
  unfold peerPart at hat
  split at hat
  · rename_i htype
    obtain ⟨colon, hcolon, rfl⟩ := Option.map_eq_some_iff.1 hat
    have hsplit := ListFacts.eq_append_of_idxOf? hcolon
    rw [(hpass p hvisited).username htype colon hcolon] at hsplit
    exact ⟨p, hvisited, htype, hsplit, hne, hlast⟩
  · cases hat

/-- The attribute that is relied on is the last that names a peer. -/
theorem Relies.le (h : ice.Relies data p u) (hpos : pos ∈ attributes data)
    (hsome : (peerPart data pos).isSome) : pos ≤ p :=
  Nat.not_lt.1 fun hlt => by
    rw [h.last pos hpos hlt] at hsome
    cases hsome

theorem Relies.isSome (h : ice.Relies data p u) : (peerPart data p).isSome := by
  have hmem : (0x3A : UInt8) ∈ ice.iceUfrag ++ 0x3A :: u :=
    List.mem_append_right _ List.mem_cons_self
  rw [peerPart, if_pos h.type, Option.isSome_map, h.value]
  exact List.isSome_idxOf?.2 hmem

/-- **What the credentials cover.** Where they are valid, the USERNAME that is relied on is inside
the authenticated bytes exactly when a MESSAGE-INTEGRITY follows every USERNAME with a colon. -/
theorem covered_iff (h : ice.validateCredentials lib data = some u) :
    ice.Covered lib data u ↔ ∀ pos ∈ attributes data, (peerPart data pos).isSome →
      ∃ m ∈ attributes data, ntohsAt data m = attrMessageIntegrity ∧ pos < m := by
  constructor
  · rintro ⟨m, p, hm, hp, hle⟩ pos hpos hsome
    have hposp := hp.le hpos hsome
    exact ⟨m, hm.visited, hm.type, by omega⟩
  · intro hfollows
    obtain ⟨m, hm, hlast⟩ := exists_verifies h
    obtain ⟨p, hp⟩ := exists_relies h
    obtain ⟨m', hm', htype, hlt⟩ := hfollows p hp.visited hp.isSome
    have hend : (cursor data).next p ≤ m :=
      Cursor.next_le hp.visited hm.visited (Nat.lt_of_lt_of_le hlt (hlast m' hm' htype))
    have hnext : (cursor data).next p =
      (p + 4 + (ntohsAt data (p + 2)).toNat + 3) / 4 * 4 := rfl
    exact ⟨m, p, hm, hp, by omega⟩

/-! ## A USERNAME behind the MESSAGE-INTEGRITY -/

/-- A request with the attributes `attrs`. -/
def requestOf (attrs : Bytes) : Bytes :=
  htons bindingRequest ++ htons (UInt16.ofNat attrs.length) ++ htonl stunMagicCookie ++
    List.replicate 12 7 ++ attrs

/-- The USERNAME `s:a` and a MESSAGE-INTEGRITY. -/
def signedName : Bytes :=
  htons attrUsername ++ htons 3 ++ [0x73, 0x3A, 0x61, 0] ++ htons attrMessageIntegrity ++ htons 20 ++
    List.replicate 20 0

theorem covered_signedName : shortServer.Covered zeroLib (requestOf signedName) [0x61] :=
  (covered_iff (by decide)).2 (by decide)

/-- The same with the USERNAME `s:b` behind it. -/
def appendedName : Bytes := requestOf (signedName ++ htons attrUsername ++ htons 3 ++
  [0x73, 0x3A, 0x62, 0])

theorem not_covered_appendedName : ¬ ∀ (ice : IceServer) (lib : IceLib) (data u : Bytes),
    ice.validateCredentials lib data = some u → ice.Covered lib data u := by
  intro h
  obtain ⟨m, p, hm, hp, hle⟩ := h shortServer zeroLib appendedName [0x62] (by decide)
  have hattrs : attributes appendedName = [20, 28, 52] := by decide
  have hpv := hattrs ▸ hp.visited
  have hmv := hattrs ▸ hm.visited
  have hp52 : p = 52 := by
    rcases List.mem_cons.1 hpv with rfl | hpv
    · exact absurd hp.value (by decide)
    · rcases List.mem_cons.1 hpv with rfl | hpv
      · exact absurd hp.type (by decide)
      · exact List.mem_singleton.1 hpv
  have hm52 : m ≤ 52 := (by decide : ∀ m ∈ [20, 28, 52], m ≤ 52) m hmv
  omega

end Namecon.IceServer
