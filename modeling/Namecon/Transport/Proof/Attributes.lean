import Mathlib.Algebra.Group.Nat.Defs
import Namecon.Lib.Cursor
import Namecon.Transport.IceServer

/-!
# The attributes of a STUN packet

* `attributes data`: the offsets the attribute loop of `validateCredentials` visits.
* `scanAttributes_eq_some`: the loop passes when every attribute it visits does, and keeps the
  offset of the last MESSAGE-INTEGRITY and the peer part of the last USERNAME with a colon.
* `validateCredentials_eq_some`: when the credentials are valid, and for which peer.
-/

namespace Namecon.IceServer

open ListFacts (getLast?_filterMap_cons)

variable {ice : IceServer} {lib : IceLib} {ufrag data u : Bytes} {pos fuel : Nat} {s s' : Scan}

/-- The attribute loop as a loop that moves `pos`. -/
def cursor (data : Bytes) : Cursor where
  Fits pos := pos + 4 + (ntohsAt data (pos + 2)).toNat ≤ data.length
  next pos := (pos + 4 + (ntohsAt data (pos + 2)).toNat + 3) / 4 * 4
  stop := data.length
  lt_next pos := by omega
  lt_stop pos h := by omega
  decFits := fun _ => inferInstanceAs (Decidable (_ ≤ _))

/-- The offsets of the attributes. -/
def attributes (data : Bytes) : List Nat := (cursor data).visits stunHeaderSize

theorem withLength_append (type len len' : UInt16) (cookie id rest : Bytes) :
    withLength (htons type ++ htons len ++ cookie ++ id ++ rest) len' =
      htons type ++ htons len' ++ cookie ++ id ++ rest := rfl

theorem length_withLength {buf : Bytes} (h : 4 ≤ buf.length) (len : UInt16) :
    (withLength buf len).length = buf.length := by
  simp only [withLength, List.length_append, List.length_take, List.length_drop, htons,
    List.length_cons, List.length_nil]
  omega

/-! ## One attribute -/

/-- The part of a USERNAME behind its first colon. -/
def peerPart (data : Bytes) (pos : Nat) : Option Bytes :=
  if ntohsAt data pos = attrUsername then
    ((attrValue data pos).idxOf? 0x3A).map fun colon => (attrValue data pos).drop (colon + 1)
  else none

/-- The offset of a MESSAGE-INTEGRITY. -/
def integrityAt (data : Bytes) (pos : Nat) : Option Nat :=
  if ntohsAt data pos = attrMessageIntegrity then some pos else none

theorem integrityAt_eq_some {m : Nat} :
    integrityAt data pos = some m ↔ ntohsAt data pos = attrMessageIntegrity ∧ pos = m := by
  unfold integrityAt
  by_cases hmi : ntohsAt data pos = attrMessageIntegrity
  · rw [if_pos hmi, Option.some_inj, and_iff_right hmi]
  · rw [if_neg hmi]
    exact iff_of_false (Option.some_ne_none m).symm fun h => hmi h.1

/-- The attribute does not make the loop fail: a USERNAME with a colon has our ufrag before it, and
a MESSAGE-INTEGRITY has 20 bytes. -/
structure Passes (ufrag data : Bytes) (pos : Nat) : Prop where
  username : ntohsAt data pos = attrUsername → ∀ colon,
    (attrValue data pos).idxOf? 0x3A = some colon → (attrValue data pos).take colon = ufrag
  integrity : ntohsAt data pos = attrMessageIntegrity → ntohsAt data (pos + 2) = 20

/-- What an attribute that passes leaves in the variables of the loop. -/
def note (data : Bytes) (pos : Nat) (s : Scan) : Scan :=
  ⟨(peerPart data pos).getD s.peerUfrag, (integrityAt data pos).or s.miAttrStart⟩

theorem readUsername_eq_some (huser : ntohsAt data pos = attrUsername) :
    readUsername ufrag (attrValue data pos) s = some s' ↔
      Passes ufrag data pos ∧ s' = note data pos s := by
  have hmi : ntohsAt data pos ≠ attrMessageIntegrity := by rw [huser]; decide
  unfold readUsername note peerPart integrityAt
  rw [if_pos huser, if_neg hmi]
  cases hcolon : (attrValue data pos).idxOf? 0x3A with
  | none =>
    have hpass : Passes ufrag data pos :=
      ⟨fun _ colon h => absurd (hcolon.symm.trans h) (Option.some_ne_none colon).symm,
        fun h => absurd h hmi⟩
    exact ⟨fun h => ⟨hpass, (Option.some.inj h).symm⟩, fun h => congrArg some h.2.symm⟩
  | some colon =>
    dsimp only
    by_cases heq : (attrValue data pos).take colon = ufrag
    · have hpass : Passes ufrag data pos :=
        ⟨fun _ colon' h => Option.some.inj (hcolon.symm.trans h) ▸ heq, fun h => absurd h hmi⟩
      rw [if_neg (not_not.2 heq)]
      exact ⟨fun h => ⟨hpass, (Option.some.inj h).symm⟩, fun h => congrArg some h.2.symm⟩
    · rw [if_pos heq]
      exact ⟨fun h => absurd h (Option.some_ne_none s').symm,
        fun h => absurd (h.1.username huser colon hcolon) heq⟩

theorem readAttribute_eq_some : readAttribute ufrag data pos s = some s' ↔
    Passes ufrag data pos ∧ s' = note data pos s := by
  unfold readAttribute
  by_cases huser : ntohsAt data pos = attrUsername
  · exact (if_pos huser).congr_left.trans (readUsername_eq_some huser)
  · dsimp only
    rw [if_neg huser]
    have hpeer : peerPart data pos = none := if_neg huser
    by_cases hmi : ntohsAt data pos = attrMessageIntegrity
    · rw [if_pos hmi, note, hpeer, integrityAt, if_pos hmi]
      by_cases hlen : ntohsAt data (pos + 2) = 20
      · rw [if_neg (not_not.2 hlen)]
        exact ⟨fun h => ⟨⟨fun h => absurd h huser, fun _ => hlen⟩, (Option.some.inj h).symm⟩,
          fun h => congrArg some h.2.symm⟩
      · rw [if_pos hlen]
        exact ⟨fun h => absurd h (Option.some_ne_none s').symm,
          fun h => absurd (h.1.integrity hmi) hlen⟩
    · rw [if_neg hmi, note, hpeer, integrityAt, if_neg hmi]
      exact ⟨fun h => ⟨⟨fun h => absurd h huser, fun h => absurd h hmi⟩, (Option.some.inj h).symm⟩,
        fun h => congrArg some h.2.symm⟩

/-! ## The loop -/

/-- The loop from `pos` on, over the offsets it visits. -/
def scanFrom (ufrag data : Bytes) (pos : Nat) (s : Scan) : Option Scan :=
  ((cursor data).visits pos).foldlM (fun s pos => readAttribute ufrag data pos s) s

theorem scanFrom_cons (h : (cursor data).Fits pos) : scanFrom ufrag data pos s =
    (readAttribute ufrag data pos s).bind (scanFrom ufrag data ((cursor data).next pos)) := by
  unfold scanFrom
  rw [Cursor.visits_cons h]
  rfl

theorem scanFrom_stop (h : ¬ (cursor data).Fits pos) : scanFrom ufrag data pos s = some s := by
  unfold scanFrom
  rw [Cursor.visits_stop h]
  rfl

theorem scanAttributes_eq (h : data.length ≤ pos + fuel) :
    scanAttributes ufrag data fuel pos s = scanFrom ufrag data pos s := by
  induction fuel generalizing pos s with
  | zero => exact (scanFrom_stop (Cursor.not_fits_of_stop_le h)).symm
  | succ fuel ih =>
    have hlt := (cursor data).lt_next pos
    by_cases hfits : (cursor data).Fits pos
    · have hle : pos + 4 + (ntohsAt data (pos + 2)).toNat ≤ data.length := hfits
      rw [scanAttributes, if_neg (by omega), scanFrom_cons hfits]
      cases readAttribute ufrag data pos s with
      | none => rfl
      | some s' => exact ih (by omega)
    · have hle : ¬ pos + 4 + (ntohsAt data (pos + 2)).toNat ≤ data.length := hfits
      rw [scanAttributes, if_pos (by omega), scanFrom_stop hfits]

theorem foldlM_readAttribute (l : List Nat) :
    l.foldlM (fun s pos => readAttribute ufrag data pos s) s = some s' ↔
      (∀ pos ∈ l, Passes ufrag data pos) ∧
        s' = ⟨(l.filterMap (peerPart data)).getLast?.getD s.peerUfrag,
          (l.filterMap (integrityAt data)).getLast?.or s.miAttrStart⟩ := by
  induction l generalizing s with
  | nil => exact ⟨fun h => ⟨fun _ h => absurd h List.not_mem_nil, (Option.some.inj h).symm⟩,
      fun h => congrArg some h.2.symm⟩
  | cons pos l ih =>
    rw [List.foldlM_cons, Option.bind_eq_bind, Option.bind_eq_some_iff, List.forall_mem_cons,
      getLast?_filterMap_cons, getLast?_filterMap_cons]
    simp only [readAttribute_eq_some, ih]
    constructor
    · rintro ⟨_, ⟨hpos, rfl⟩, hl, rfl⟩
      refine ⟨⟨hpos, hl⟩, ?_⟩
      rw [note, Option.getD_or, Option.or_assoc]
    · rintro ⟨⟨hpos, hl⟩, rfl⟩
      refine ⟨_, ⟨hpos, rfl⟩, hl, ?_⟩
      rw [note, Option.getD_or, Option.or_assoc]

/-- **What the loop keeps**, of a packet whose attributes it all passes. -/
theorem scanAttributes_eq_some : scanAttributes ufrag data data.length stunHeaderSize {} = some s ↔
    (∀ pos ∈ attributes data, Passes ufrag data pos) ∧
      s = ⟨((attributes data).filterMap (peerPart data)).getLast?.getD [],
        ((attributes data).filterMap (integrityAt data)).getLast?⟩ := by
  rw [scanAttributes_eq (Nat.le_add_left _ _), scanFrom, foldlM_readAttribute, Option.or_none]
  rfl

/-- **Valid credentials.** Every attribute passes, the last USERNAME with a colon names the peer, and
the last MESSAGE-INTEGRITY is the HMAC of the bytes before it. -/
theorem validateCredentials_eq_some : ice.validateCredentials lib data = some u ↔
    (∀ pos ∈ attributes data, Passes ice.iceUfrag data pos) ∧
      ((attributes data).filterMap (peerPart data)).getLast? = some u ∧ u ≠ [] ∧
      ∃ m, ((attributes data).filterMap (integrityAt data)).getLast? = some m ∧ m ≤ 4096 ∧
        lib.hmacSha1 ice.icePwd (hmacInput data m) = (data.drop (m + 4)).take 20 := by
  unfold validateCredentials
  cases hscan : scanAttributes ice.iceUfrag data data.length stunHeaderSize {} with
  | none =>
    refine iff_of_false (Option.some_ne_none u).symm fun h => ?_
    have hsome := scanAttributes_eq_some.2 ⟨h.1, rfl⟩
    exact absurd (hscan.symm.trans hsome) (Option.some_ne_none _).symm
  | some s =>
    obtain ⟨hpass, rfl⟩ := scanAttributes_eq_some.1 hscan
    dsimp only
    rw [and_iff_right hpass]
    cases hm : ((attributes data).filterMap (integrityAt data)).getLast? with
    | none =>
      refine iff_of_false (Option.some_ne_none u).symm ?_
      rintro ⟨-, -, m, hm', -⟩
      exact absurd hm' (Option.some_ne_none m).symm
    | some m =>
      cases hu : ((attributes data).filterMap (peerPart data)).getLast? with
      | none =>
        exact iff_of_false (Option.some_ne_none u).symm fun h => absurd h.1
          (Option.some_ne_none u).symm
      | some v =>
        show (if v = [] then none else if 4096 < m then none else if _ then none else some v) =
          some u ↔ _
        by_cases hv : v = []
        · rw [if_pos hv]
          refine iff_of_false (Option.some_ne_none u).symm fun h => h.2.1 ?_
          rw [← Option.some.inj h.1, hv]
        · rw [if_neg hv]
          by_cases hlen : 4096 < m
          · rw [if_pos hlen]
            refine iff_of_false (Option.some_ne_none u).symm ?_
            rintro ⟨-, -, m', hm', hle, -⟩
            rw [← Option.some.inj hm'] at hle
            exact Nat.not_lt.2 hle hlen
          · rw [if_neg hlen]
            by_cases hmac : lib.hmacSha1 ice.icePwd (hmacInput data m) =
                (data.drop (m + 4)).take 20
            · rw [if_neg (not_not.2 hmac)]
              constructor
              · rintro h
                obtain rfl := Option.some.inj h
                exact ⟨rfl, hv, m, rfl, Nat.not_lt.1 hlen, hmac⟩
              · exact fun h => h.1
            · rw [if_pos hmac]
              refine iff_of_false (Option.some_ne_none u).symm ?_
              rintro ⟨-, -, m', hm', -, heq⟩
              rw [← Option.some.inj hm'] at heq
              exact hmac heq

/-! ## A server to run packets against -/

/-- The ufrag `s` and the password `p`. -/
def shortServer : IceServer := ⟨[0x73], [0x70]⟩

/-- A function in the place of the HMAC and one in the place of the CRC. -/
def zeroLib : IceLib := ⟨fun _ _ => List.replicate 20 0, fun _ => 0⟩

end Namecon.IceServer
