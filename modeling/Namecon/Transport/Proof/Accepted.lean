import Namecon.Transport.BindingRequest
import Namecon.Transport.Proof.Attributes

/-!
# Which requests are answered

* `Splits.visits`, `Splits.scanFrom`: the attribute loop visits an attribute that is written at its
  offset and goes on behind the padding.
* `onStunPacket_packet`: every `BindingRequest` for the server's ufrag, signed with its password, is
  answered.
-/

namespace Namecon

namespace IceServer

variable {ice : IceServer} {lib : IceLib} {ufrag data pre rest : Bytes} {a : StunAttribute}
  {s : Scan} {pos : Nat}

/-! ## An attribute that is written -/

theorem length_encode (a : StunAttribute) :
    a.encode.length = 4 + a.value.length + a.padding.length := by
  simp only [StunAttribute.encode, List.length_append, htons, List.length_cons, List.length_nil]

theorem dvd_length_encode (a : StunAttribute) : 4 ∣ a.encode.length := by
  have hsize := length_encode a
  have hpadded := a.padded
  omega

theorem dvd_length_flatMap (l : List StunAttribute) :
    4 ∣ (l.flatMap StunAttribute.encode).length := by
  induction l with
  | nil => exact Nat.dvd_zero 4
  | cons a l ih =>
    rw [List.flatMap_cons, List.length_append]
    exact Nat.dvd_add (dvd_length_encode a) ih

theorem value_le_flatMap {l : List StunAttribute} (ha : a ∈ l) :
    a.value.length ≤ (l.flatMap StunAttribute.encode).length := by
  have hsize := length_encode a
  have hle : a.encode.length ≤ (l.flatMap StunAttribute.encode).length :=
    (List.sublist_flatten_of_mem (List.mem_map_of_mem ha)).length_le
  omega

/-- `rest` is what stands in `data` behind the offset `pre.length`, where an attribute may begin. -/
structure Splits (data pre rest : Bytes) : Prop where
  aligned : 4 ∣ pre.length
  append : data = pre ++ rest

theorem Splits.encode (h : Splits data pre (a.encode ++ rest)) :
    Splits data (pre ++ a.encode) rest where
  aligned := by
    rw [List.length_append]
    exact Nat.dvd_add h.aligned (dvd_length_encode a)
  append := by rw [h.append, List.append_assoc]

theorem Splits.flatMap {l : List StunAttribute}
    (h : Splits data pre (l.flatMap StunAttribute.encode ++ rest)) :
    Splits data (pre ++ l.flatMap StunAttribute.encode) rest where
  aligned := by
    rw [List.length_append]
    exact Nat.dvd_add h.aligned (dvd_length_flatMap l)
  append := by rw [h.append, List.append_assoc]

/-- The fields of an attribute at the offset at which it is written. -/
theorem Splits.fields (h : Splits data pre (a.encode ++ rest)) (hlen : a.value.length < 2 ^ 16) :
    ntohsAt data pre.length = a.type ∧
      ntohsAt data (pre.length + 2) = UInt16.ofNat a.value.length ∧
      attrValue data pre.length = a.value := by
  have hdrop : data.drop pre.length = a.encode ++ rest := by rw [h.append, List.drop_left]
  have htype : ntohsAt data pre.length = a.type := by
    have := ntohsAt_drop data pre.length 0
    rw [hdrop, Nat.add_zero] at this
    exact this.symm.trans (ntohs_htons a.type)
  have hfield : ntohsAt data (pre.length + 2) = UInt16.ofNat a.value.length := by
    rw [← ntohsAt_drop data pre.length 2, hdrop]
    exact ntohs_htons (UInt16.ofNat a.value.length)
  refine ⟨htype, hfield, ?_⟩
  rw [attrValue, hfield, UInt16.toNat_ofNat_of_lt' hlen, ← List.drop_drop, hdrop]
  show (a.value ++ a.padding ++ rest).take a.value.length = a.value
  rw [List.append_assoc, List.take_left]

/-- **One attribute.** The loop visits it and goes on behind it. -/
theorem Splits.visits (h : Splits data pre (a.encode ++ rest)) (hlen : a.value.length < 2 ^ 16) :
    (cursor data).visits pre.length =
      pre.length :: (cursor data).visits (pre ++ a.encode).length := by
  obtain ⟨-, hfield, -⟩ := h.fields hlen
  have hvalue : (ntohsAt data (pre.length + 2)).toNat = a.value.length := by
    rw [hfield, UInt16.toNat_ofNat_of_lt' hlen]
  have hsize := length_encode a
  have htotal : data.length = pre.length + (a.encode.length + rest.length) := by
    rw [h.append, List.length_append, List.length_append]
  have haligned := h.aligned
  have hpadded := a.padded
  have hshort := a.padding_lt
  have hfits : (cursor data).Fits pre.length := by
    show pre.length + 4 + (ntohsAt data (pre.length + 2)).toNat ≤ data.length
    omega
  have hnext : (cursor data).next pre.length = (pre ++ a.encode).length := by
    show (pre.length + 4 + (ntohsAt data (pre.length + 2)).toNat + 3) / 4 * 4 = _
    rw [List.length_append]
    omega
  rw [Cursor.visits_cons hfits, hnext]

/-- At the end of the packet there is nothing more to visit. -/
theorem Splits.visits_nil (h : Splits data pre []) : (cursor data).visits pre.length = [] := by
  have hend : data.length = pre.length := by rw [h.append, List.append_nil]
  exact Cursor.visits_stop (Cursor.not_fits_of_stop_le (Nat.le_of_eq hend))

/-! ## What the loop makes of it -/

theorem readAttribute_other (huser : ntohsAt data pos ≠ attrUsername)
    (hmi : ntohsAt data pos ≠ attrMessageIntegrity) : readAttribute ufrag data pos s = some s := by
  unfold readAttribute
  dsimp only
  rw [if_neg huser, if_neg hmi]

theorem readAttribute_username {peer : Bytes} (hcolon : 0x3A ∉ ufrag)
    (huser : ntohsAt data pos = attrUsername) (hvalue : attrValue data pos = ufrag ++ 0x3A :: peer) :
    readAttribute ufrag data pos s = some { s with peerUfrag := peer } := by
  unfold readAttribute readUsername
  dsimp only
  rw [if_pos huser, hvalue, ListFacts.idxOf?_append_cons hcolon]
  dsimp only
  rw [List.take_left, if_neg (not_not.2 rfl), ← List.drop_drop, List.drop_left]
  rfl

theorem readAttribute_integrity (hmi : ntohsAt data pos = attrMessageIntegrity)
    (hlen : ntohsAt data (pos + 2) = 20) :
    readAttribute ufrag data pos s = some { s with miAttrStart := some pos } := by
  have huser : ntohsAt data pos ≠ attrUsername := by rw [hmi]; decide
  unfold readAttribute
  dsimp only
  rw [if_neg huser, if_pos hmi, if_neg (not_not.2 hlen)]

theorem Splits.scanFrom (h : Splits data pre (a.encode ++ rest)) (hlen : a.value.length < 2 ^ 16) :
    scanFrom ufrag data pre.length s = (readAttribute ufrag data pre.length s).bind
      (scanFrom ufrag data (pre ++ a.encode).length) := by
  unfold IceServer.scanFrom
  rw [h.visits hlen]
  rfl

theorem Splits.scanFrom_nil (h : Splits data pre []) :
    IceServer.scanFrom ufrag data pre.length s = some s := by
  unfold IceServer.scanFrom
  rw [h.visits_nil]
  rfl

/-- Attributes that are neither leave the variables of the loop alone. -/
theorem Splits.scanFrom_others {l : List StunAttribute}
    (h : Splits data pre (l.flatMap StunAttribute.encode ++ rest))
    (hother : ∀ a ∈ l, a.type ≠ attrUsername ∧ a.type ≠ attrMessageIntegrity)
    (hlen : ∀ a ∈ l, a.value.length < 2 ^ 16) : IceServer.scanFrom ufrag data pre.length s =
      IceServer.scanFrom ufrag data (pre ++ l.flatMap StunAttribute.encode).length s := by
  induction l generalizing pre with
  | nil => rw [List.flatMap_nil, List.append_nil]
  | cons a l ih =>
    rw [List.forall_mem_cons] at hother hlen
    rw [List.flatMap_cons, List.append_assoc] at h
    obtain ⟨htype, -, -⟩ := h.fields hlen.1
    rw [h.scanFrom hlen.1, readAttribute_other (htype ▸ hother.1.1) (htype ▸ hother.1.2),
      Option.bind_some, List.flatMap_cons, ← List.append_assoc]
    exact ih h.encode hother.2 hlen.2

end IceServer

namespace BindingRequest

open IceServer

variable {ufrag peer : Bytes} {lib : IceLib} {pwd : Bytes}

theorem length_header (q : BindingRequest ufrag peer) (len : UInt16) :
    (q.header len).length = 20 := by
  simp only [header, List.length_append, htons, List.length_cons, List.length_nil, htonl_length,
    q.transactionId_length]

theorem signed_eq (q : BindingRequest ufrag peer) : q.signed =
    q.before.flatMap StunAttribute.encode ++ (q.username.encode ++
      q.after.flatMap StunAttribute.encode) := by
  rw [signed, List.flatMap_append, List.flatMap_cons]

/-- The MESSAGE-INTEGRITY of a request. -/
def integrityAttribute (q : BindingRequest ufrag peer) (lib : IceLib) (pwd : Bytes)
    (h : (q.integrity lib pwd).length = 20) : StunAttribute :=
  .unpadded attrMessageIntegrity (q.integrity lib pwd) (by rw [h]; decide)

/-- What follows the MESSAGE-INTEGRITY. -/
theorem exists_trailing (q : BindingRequest ufrag peer) : ∃ l : List StunAttribute,
    (∀ a ∈ l, a.type ≠ attrUsername ∧ a.type ≠ attrMessageIntegrity) ∧
      (∀ a ∈ l, a.value.length < 2 ^ 16) ∧
      (q.fingerprint.elim [] fun value => htons attrFingerprint ++ htons 4 ++ value) =
        l.flatMap StunAttribute.encode := by
  have hlength := q.fingerprint_length
  cases hfp : q.fingerprint with
  | none => exact ⟨[], fun _ h => absurd h List.not_mem_nil, fun _ h => absurd h List.not_mem_nil,
      rfl⟩
  | some value =>
    have h4 : value.length = 4 := hlength value hfp
    refine ⟨[.unpadded attrFingerprint value ⟨1, h4⟩], ?_, ?_, ?_⟩
    · exact List.forall_mem_singleton.2
        ⟨(by decide : attrFingerprint ≠ attrUsername),
          (by decide : attrFingerprint ≠ attrMessageIntegrity)⟩
    · exact List.forall_mem_singleton.2 (by show value.length < 2 ^ 16; omega)
    · simp [StunAttribute.unpadded, StunAttribute.encode, h4]

/-- **The loop on a request.** It keeps the peer's ufrag and the offset of the MESSAGE-INTEGRITY. -/
theorem scanAttributes_packet (q : BindingRequest ufrag peer) (hcolon : 0x3A ∉ ufrag)
    (hlen : q.signed.length < 2 ^ 16) (hmac : (q.integrity lib pwd).length = 20) :
    scanAttributes ufrag (q.packet lib pwd) (q.packet lib pwd).length stunHeaderSize {} =
      some ⟨peer, some (20 + q.signed.length)⟩ := by
  obtain ⟨trailing, hother, hshort, htrailing⟩ := q.exists_trailing
  have hheader := q.length_header q.length
  have hsigned := q.signed_eq
  have hvalue : ∀ a ∈ q.before ++ q.username :: q.after, a.value.length < 2 ^ 16 := fun a ha =>
    Nat.lt_of_le_of_lt (value_le_flatMap ha) hlen
  rw [List.forall_mem_append, List.forall_mem_cons] at hvalue
  obtain ⟨hbefore, huser, hafter⟩ := hvalue
  have hothers := q.others
  rw [List.forall_mem_append] at hothers
  have hsplit : Splits (q.packet lib pwd) (q.header q.length)
      (q.before.flatMap StunAttribute.encode ++ (q.username.encode ++
        (q.after.flatMap StunAttribute.encode ++ ((q.integrityAttribute lib pwd hmac).encode ++
          (trailing.flatMap StunAttribute.encode ++ []))))) := by
    refine ⟨by rw [hheader]; decide, ?_⟩
    unfold packet
    rw [htrailing, hsigned]
    simp [integrityAttribute, StunAttribute.unpadded, StunAttribute.encode, hmac]
  rw [scanAttributes_eq (Nat.le_add_left _ _), stunHeaderSize, ← hheader,
    hsplit.scanFrom_others hothers.1 hbefore]
  -- the USERNAME and what stands between it and the MESSAGE-INTEGRITY
  have hname := hsplit.flatMap
  obtain ⟨htype, -, hat⟩ := hname.fields huser
  rw [hname.scanFrom huser, readAttribute_username hcolon (htype.trans q.username_type)
    (hat.trans q.username_value), Option.bind_some, hname.encode.scanFrom_others hothers.2 hafter]
  -- the MESSAGE-INTEGRITY and what follows it
  have hmi := hname.encode.flatMap
  have hmi20 : (q.integrityAttribute lib pwd hmac).value.length = 20 := hmac
  obtain ⟨htype, hfield, -⟩ := hmi.fields (by omega)
  rw [hmi.scanFrom (by omega), readAttribute_integrity htype (by rw [hfield, hmi20]; rfl),
    Option.bind_some, hmi.encode.scanFrom_others hother hshort, hmi.encode.flatMap.scanFrom_nil,
    hsigned]
  simp only [List.length_append, Nat.add_assoc]

/-! ## The HMAC -/

theorem withLength_header (q : BindingRequest ufrag peer) (len len' : UInt16) (rest : Bytes) :
    withLength (q.header len ++ rest) len' = q.header len' ++ rest := withLength_append ..

theorem hmacInput_packet (q : BindingRequest ufrag peer) :
    hmacInput (q.packet lib pwd) (20 + q.signed.length) =
      q.header (UInt16.ofNat (q.signed.length + 24)) ++ q.signed := by
  have hlen : (q.header q.length ++ q.signed).length = 20 + q.signed.length := by
    rw [List.length_append, q.length_header]
  have hfield : 20 + q.signed.length + 4 + 20 - stunHeaderSize = q.signed.length + 24 := by
    rw [stunHeaderSize]
    omega
  rw [hmacInput, hfield, packet, List.append_assoc, List.take_left' hlen, withLength_header]

theorem value_packet (q : BindingRequest ufrag peer) (hmac : (q.integrity lib pwd).length = 20) :
    ((q.packet lib pwd).drop (20 + q.signed.length + 4)).take 20 = q.integrity lib pwd := by
  have hlen : (q.header q.length ++ q.signed).length = 20 + q.signed.length := by
    rw [List.length_append, q.length_header]
  rw [packet, List.append_assoc, ← List.drop_drop, List.drop_left' hlen, List.append_assoc,
    List.append_assoc]
  exact List.take_left' hmac

theorem validateCredentials_packet {ice : IceServer} (q : BindingRequest ice.iceUfrag peer)
    (hmac : (q.integrity lib ice.icePwd).length = 20) (hcolon : 0x3A ∉ ice.iceUfrag)
    (hpeer : peer ≠ []) (hlen : 20 + q.signed.length ≤ 4096) :
    ice.validateCredentials lib (q.packet lib ice.icePwd) = some peer := by
  unfold validateCredentials
  rw [q.scanAttributes_packet hcolon (by omega) hmac]
  dsimp only
  rw [if_neg hpeer, if_neg (Nat.not_lt.2 hlen), hmacInput_packet, q.value_packet hmac]
  exact if_neg (not_not.2 rfl)

/-- **Requests that are answered.** Whatever attributes surround the USERNAME of a request, if its
part before the MESSAGE-INTEGRITY fits into the buffer it is answered. `hmacSha1` stands for a
function with results of 20 bytes. -/
theorem onStunPacket_packet (ice : IceServer) (lib : IceLib)
    (hlib : ∀ key data, (lib.hmacSha1 key data).length = 20) (hcolon : 0x3A ∉ ice.iceUfrag)
    (hpeer : peer ≠ []) (q : BindingRequest ice.iceUfrag peer)
    (hlen : 20 + q.signed.length ≤ 4096) (remote : Endpoint) :
    ice.onStunPacket lib (q.packet lib ice.icePwd) remote =
      [ice.sendResponse lib (q.packet lib ice.icePwd) remote] := by
  have hsize : ¬ (q.packet lib ice.icePwd).length < stunHeaderSize := by
    rw [packet, List.append_assoc, List.append_assoc, List.length_append, q.length_header,
      stunHeaderSize]
    omega
  have htype : ntohsAt (q.packet lib ice.icePwd) 0 = bindingRequest :=
    ntohs_htons bindingRequest
  have hcookie : ntohlAt (q.packet lib ice.icePwd) 4 = stunMagicCookie :=
    ntohl_htonl stunMagicCookie
  unfold onStunPacket
  rw [if_neg hsize, if_neg (not_not.2 htype), if_neg (not_not.2 hcookie),
    q.validateCredentials_packet (hlib _ _) hcolon hpeer hlen]

/-- A PRIORITY of four bytes, the USERNAME `s:ab` without padding, a SOFTWARE of one byte and a
FINGERPRINT. -/
def checkOfShort : BindingRequest [0x73] [0x61, 0x62] where
  length := 0x40
  transactionId := List.replicate 12 7
  before := [.unpadded 0x0024 [0x6E, 0, 0, 0xFF] (by decide)]
  username := .unpadded attrUsername [0x73, 0x3A, 0x61, 0x62] (by decide)
  after := [⟨0x8022, [0x78], [0, 0, 0], by decide, by decide⟩]
  fingerprint := some [1, 2, 3, 4]
  transactionId_length := by decide
  username_type := rfl
  username_value := rfl
  others := by decide
  fingerprint_length := by decide

theorem onStunPacket_packet_checkOfShort :
    shortServer.onStunPacket zeroLib (checkOfShort.packet zeroLib [0x70]) ⟨0x7F000001, 9⟩ =
      [shortServer.sendResponse zeroLib (checkOfShort.packet zeroLib [0x70]) ⟨0x7F000001, 9⟩] :=
  onStunPacket_packet shortServer zeroLib (fun _ _ => rfl) (by decide) (by decide) checkOfShort
    (by decide) ⟨0x7F000001, 9⟩

end BindingRequest

end Namecon
