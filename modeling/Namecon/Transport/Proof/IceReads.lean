import Namecon.Transport.IceReads
import Namecon.Transport.Proof.Accepted

/-!
# The ICE server stays inside its buffers

* `checkedScanAttributes_eq`: the attribute loop reads inside the packet and ends.
* `checkedValidateCredentials_eq`: at most 4096 bytes are copied, the length is written into the
  copied header, and it fits its field.
* `checkedOnStunPacket_eq`: the same of the whole handler with its response, which does what
  `onStunPacket` says.
-/

namespace Namecon.IceServer

open BindingRequest (checkOfShort)
open Checked

variable {ice : IceServer} {lib : IceLib} {ufrag data buf response request : Bytes}
  {pos fuel n : Nat} {s : Scan} {remote : Endpoint}

theorem narrow_ok (h : n < 2 ^ 16) : narrow n = .ok (UInt16.ofNat n) := if_pos h

/-! ## The attribute loop -/

theorem checkedReadAttribute_eq
    (h : pos + 4 + (ntohsAt data (pos + 2)).toNat ≤ data.length) :
    checkedReadAttribute ufrag data pos (ntohsAt data pos) (ntohsAt data (pos + 2)) s =
      .ok (readAttribute ufrag data pos s) := by
  unfold checkedReadAttribute readAttribute
  by_cases huser : ntohsAt data pos = attrUsername
  · rw [if_pos huser, readSlice_ok h, ok_bind]
    exact congrArg Except.ok (if_pos huser).symm
  · rw [if_neg huser]
    by_cases hmi : ntohsAt data pos = attrMessageIntegrity
    · rw [if_pos hmi]
      exact congrArg Except.ok ((if_neg huser).trans (if_pos hmi)).symm
    · rw [if_neg hmi]
      exact congrArg Except.ok ((if_neg huser).trans (if_neg hmi)).symm

theorem checkedScanAttributes_eq (h : data.length ≤ pos + fuel) :
    checkedScanAttributes ufrag data (fuel + 1) pos s = .ok (scanFrom ufrag data pos s) := by
  induction fuel generalizing pos s with
  | zero =>
    have hstop : ¬ (cursor data).Fits pos := Cursor.not_fits_of_stop_le h
    rw [checkedScanAttributes, if_neg (by omega), scanFrom_stop hstop]
    rfl
  | succ fuel ih =>
    by_cases hhead : pos + 4 ≤ data.length
    · rw [checkedScanAttributes, if_pos hhead, readNtohs_ok (by omega), ok_bind,
        readNtohs_ok (by omega), ok_bind]
      dsimp only
      by_cases hvalue : data.length < pos + 4 + (ntohsAt data (pos + 2)).toNat
      · have hstop : ¬ (cursor data).Fits pos := Nat.not_le.2 hvalue
        rw [if_pos hvalue, scanFrom_stop hstop]
        rfl
      · have hfits : (cursor data).Fits pos := Nat.not_lt.1 hvalue
        have hlt := (cursor data).lt_next pos
        rw [if_neg hvalue, checkedReadAttribute_eq hfits, ok_bind, scanFrom_cons hfits]
        cases readAttribute ufrag data pos s with
        | none => rfl
        | some s' => exact ih (by omega)
    · have hstop : ¬ (cursor data).Fits pos := fun h => hhead (Nat.le_trans (Nat.le_add_right _ _) h)
      rw [checkedScanAttributes, if_neg hhead, scanFrom_stop hstop]
      rfl

/-- A MESSAGE-INTEGRITY that the loop has found stands behind the header and inside the packet. -/
theorem bounds_miAttrStart {m : Nat}
    (h : scanAttributes ufrag data data.length stunHeaderSize {} = some s)
    (hm : s.miAttrStart = some m) : 20 ≤ m ∧ m + 4 + 20 ≤ data.length := by
  obtain ⟨hpass, rfl⟩ := scanAttributes_eq_some.1 h
  obtain ⟨m', hvisited, hat, -⟩ := Cursor.getLast?_filterMap_visits.1 hm
  obtain ⟨htype, rfl⟩ := integrityAt_eq_some.1 hat
  obtain ⟨hfits, hle⟩ := Cursor.mem_visits hvisited
  have hvalue : m' + 4 + (ntohsAt data (m' + 2)).toNat ≤ data.length := hfits
  rw [(hpass m' hvisited).integrity htype] at hvalue
  exact ⟨hle, hvalue⟩

/-! ## The credentials -/

theorem checkedValidateCredentials_eq (hbuf : buf.length = 4096) :
    checkedValidateCredentials ice lib buf data = .ok (ice.validateCredentials lib data) := by
  have hscan : checkedScanAttributes ice.iceUfrag data (data.length + 1) stunHeaderSize {} =
      .ok (scanAttributes ice.iceUfrag data data.length stunHeaderSize {}) := by
    rw [checkedScanAttributes_eq (Nat.le_add_left _ _), scanAttributes_eq (Nat.le_add_left _ _)]
  unfold checkedValidateCredentials validateCredentials
  rw [hscan, ok_bind]
  cases hs : scanAttributes ice.iceUfrag data data.length stunHeaderSize {} with
  | none => rfl
  | some s =>
    dsimp only
    cases hm : s.miAttrStart with
    | none => rfl
    | some m =>
      obtain ⟨hle, hend⟩ := bounds_miAttrStart hs hm
      dsimp only
      by_cases hpeer : s.peerUfrag = []
      · rw [if_pos hpeer, if_pos hpeer]
        rfl
      by_cases hlen : 4096 < m
      · rw [if_neg hpeer, if_neg hpeer, if_pos hlen, if_pos hlen]
        rfl
      rw [if_neg hpeer, if_neg hpeer, if_neg hlen, if_neg hlen]
      have htake : ((data.drop 0).take m).length = m := by
        rw [List.length_take, List.length_drop]
        omega
      obtain ⟨w, hw, hholds⟩ := (holds_nil hbuf).append ((data.drop 0).take m)
        (by rw [htake, List.length_nil]; omega)
      have hcopied : 2 + (htons (UInt16.ofNat (m + 4 + 20 - stunHeaderSize))).length ≤
          ((data.drop 0).take m).length := by
        rw [htake]
        show 2 + 2 ≤ m
        omega
      rw [readSlice_ok (by omega), ok_bind, hw, ok_bind,
        narrow_ok (by rw [stunHeaderSize]; omega), ok_bind, hholds.readSlice, ok_bind,
        List.nil_append, write_ok hcopied, ok_bind, readSlice_ok hend, ok_bind]
      rfl

/-! ## The response -/

/-- The length field is patched in a response that has been written so far, and what is made of the
response under that length is written behind it. -/
theorem patch_append {w : Writer UInt8} {l : Bytes} (h : Holds w n l) (hle : 4 ≤ l.length)
    (len : UInt16) (srcs : Bytes → List Bytes)
    (hroom : l.length + (srcs (withLength l len)).flatten.length ≤ n) :
    ∃ b w', write w.buf 2 (htons len) = .ok b ∧ readSlice b 0 w.len = .ok (withLength l len) ∧
      Writer.appendAll ⟨b, w.len⟩ (srcs (withLength l len)) = .ok w' ∧
      Holds w' n (withLength l len ++ (srcs (withLength l len)).flatten) := by
  have hlen := length_withLength hle len
  obtain ⟨b, hb, hpatched⟩ := h.write 2 (htons len) hle
  obtain ⟨w', hw', happended⟩ := Holds.appendAll (l := withLength l len) hpatched
    (srcs (withLength l len)) (by rw [hlen]; exact hroom)
  exact ⟨b, w', hb, hpatched.readSlice, hw', happended⟩

theorem length_responseHead (hreq : stunHeaderSize ≤ request.length) :
    (responseHead request remote).length = 32 := by
  rw [stunHeaderSize] at hreq
  simp only [responseHead, List.length_append, List.length_take, List.length_drop, htons, htonl,
    List.length_cons, List.length_nil]
  omega

theorem checkedSendResponse_eq (hlib : ∀ key data, (lib.hmacSha1 key data).length = 20)
    (hresponse : response.length = 256) (hreq : stunHeaderSize ≤ request.length) :
    checkedSendResponse ice lib response request remote =
      .ok (ice.sendResponse lib request remote) := by
  have hhead : (responseHead request remote).length = 32 := length_responseHead hreq
  -- header and XOR-MAPPED-ADDRESS
  obtain ⟨w₁, hw₁, h₁⟩ := (holds_nil hresponse).appendAll
    [htons bindingResponse, [0, 0], htonl stunMagicCookie, (request.drop 8).take 12]
    (by simp [htons]; omega)
  obtain ⟨w₂, hw₂, h₂⟩ := h₁.appendAll [htons attrXorMapped, htons 8, [0], [0x01],
    htons (remote.port ^^^ 0x2112), htonl (remote.address ^^^ stunMagicCookie)]
    (by simp [htons]; omega)
  have heq : [] ++ [htons bindingResponse, [0, 0], htonl stunMagicCookie,
      (request.drop 8).take 12].flatten ++ [htons attrXorMapped, htons 8, [0], [0x01],
        htons (remote.port ^^^ 0x2112), htonl (remote.address ^^^ stunMagicCookie)].flatten =
      responseHead request remote := by
    simp [responseHead]
  rw [heq] at h₂
  -- MESSAGE-INTEGRITY and FINGERPRINT, each under its own length
  obtain ⟨b₃, w₄, hb₃, hread₃, hw₄, h₄⟩ := patch_append h₂ (by omega)
    (UInt16.ofNat ((responseHead request remote).length - stunHeaderSize + 24))
    (fun input => [htons attrMessageIntegrity, htons 20, lib.hmacSha1 ice.icePwd input])
    (by simp [htons, hlib, hhead])
  rw [show _ ++ _ = ice.withIntegrity lib (responseHead request remote) by
    simp [withIntegrity]] at h₄
  have hlen₄ : (ice.withIntegrity lib (responseHead request remote)).length = 56 := by
    simp only [withIntegrity, List.length_append, hlib, htons, List.length_cons, List.length_nil]
    rw [length_withLength (by omega), hhead]
  obtain ⟨b₅, w₆, hb₅, hread₅, hw₆, h₆⟩ := patch_append h₄ (by omega)
    (UInt16.ofNat ((ice.withIntegrity lib (responseHead request remote)).length -
      stunHeaderSize + 8))
    (fun input => [htons attrFingerprint, htons 4, htonl (lib.crc32 input ^^^ 0x5354554E)])
    (by simp [htons, hlen₄])
  rw [show _ ++ _ = withFingerprint lib (ice.withIntegrity lib (responseHead request remote)) by
    simp [withFingerprint]] at h₆
  rw [← h₂.len] at hb₃ hread₃ hw₄
  rw [← h₄.len] at hb₅ hread₅ hw₆
  have hlen₂ := h₂.len.trans hhead
  have hlen₄ := h₄.len.trans hlen₄
  rw [stunHeaderSize] at hreq
  unfold checkedSendResponse
  rw [readSlice_ok (by omega), ok_bind, hw₁, ok_bind, hw₂, ok_bind,
    narrow_ok (by omega), ok_bind, hb₃, ok_bind, hread₃, ok_bind,
    readSlice_all (hlib _ _), ok_bind, hw₄, ok_bind, narrow_ok (by omega), ok_bind, hb₅, ok_bind,
    hread₅, ok_bind, hw₆, ok_bind, h₆.readSlice, ok_bind]
  rfl

/-! ## The handler -/

/-- **Memory safety.** For every packet and every content of the local buffers of 4096 and 256 bytes
the handler and the check of the credentials read and write inside their buffers, lose no bits of a
length and end, with the results of the model. `hmacSha1` stands for a function with results of 20
bytes. -/
theorem checkedOnStunPacket_eq (ice : IceServer) (lib : IceLib)
    (hlib : ∀ key data, (lib.hmacSha1 key data).length = 20) (buf response : Bytes)
    (hbuf : buf.length = 4096) (hresponse : response.length = 256) (data : Bytes)
    (remote : Endpoint) :
    checkedOnStunPacket ice lib buf response data remote =
        .ok (ice.onStunPacket lib data remote) ∧
      checkedValidateCredentials ice lib buf data = .ok (ice.validateCredentials lib data) := by
  refine ⟨?_, checkedValidateCredentials_eq hbuf⟩
  unfold checkedOnStunPacket onStunPacket
  by_cases hlen : data.length < stunHeaderSize
  · rw [if_pos hlen, if_pos hlen]
    rfl
  have hsize : 20 ≤ data.length := Nat.not_lt.1 hlen
  rw [if_neg hlen, if_neg hlen, readNtohs_ok (by omega), ok_bind]
  by_cases htype : ntohsAt data 0 ≠ bindingRequest
  · rw [if_pos htype, if_pos htype]
    rfl
  rw [if_neg htype, if_neg htype, readNtohl_ok (by omega), ok_bind]
  by_cases hcookie : ntohlAt data 4 ≠ stunMagicCookie
  · rw [if_pos hcookie, if_pos hcookie]
    rfl
  rw [if_neg hcookie, if_neg hcookie, checkedValidateCredentials_eq hbuf, ok_bind]
  cases ice.validateCredentials lib data with
  | none => rfl
  | some u =>
    dsimp only
    rw [checkedSendResponse_eq hlib hresponse hsize, ok_bind]
    rfl

/-- A signed request with four attributes: it is copied, checked and answered. -/
theorem checkedOnStunPacket_eq_checkOfShort :
    checkedOnStunPacket shortServer zeroLib (List.replicate 4096 0) (List.replicate 256 0)
        (checkOfShort.packet zeroLib [0x70]) ⟨0x7F000001, 9⟩ =
      .ok (shortServer.onStunPacket zeroLib (checkOfShort.packet zeroLib [0x70]) ⟨0x7F000001, 9⟩) ∧
    checkedValidateCredentials shortServer zeroLib (List.replicate 4096 0)
      (checkOfShort.packet zeroLib [0x70]) = .ok (some [0x61, 0x62]) := by
  obtain ⟨hpacket, hcredentials⟩ := checkedOnStunPacket_eq shortServer zeroLib (fun _ _ => rfl)
    (List.replicate 4096 0) (List.replicate 256 0) List.length_replicate List.length_replicate
    (checkOfShort.packet zeroLib [0x70]) ⟨0x7F000001, 9⟩
  have hpeer : shortServer.validateCredentials zeroLib (checkOfShort.packet zeroLib [0x70]) =
      some [0x61, 0x62] := by decide
  exact ⟨hpacket, hcredentials.trans (congrArg Except.ok hpeer)⟩

end Namecon.IceServer
