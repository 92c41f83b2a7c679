import Namecon.Transport.Proof.Accepted

/-!
# The response of the ICE server

`Answers` is what a client checks in the response to its request. `sendResponse_answers`: the
response of the server passes, whatever the request and the endpoint. The MESSAGE-INTEGRITY is
looked at in the way `validateCredentials` does it, by the attribute loop and `hmacInput`.
-/

namespace Namecon.IceServer

variable {ice : IceServer} {lib : IceLib} {request : Bytes} {remote : Endpoint}

/-- The endpoint in the XOR-MAPPED-ADDRESS at `pos`, if it is an IPv4 address. -/
def mappedEndpoint (data : Bytes) (pos : Nat) : Option Endpoint :=
  if data.getD (pos + 5) 0 = 0x01 then
    some ⟨ntohlAt data (pos + 8) ^^^ stunMagicCookie, ntohsAt data (pos + 6) ^^^ 0x2112⟩
  else none

/-- The response to `request` tells the client that it was reached at `remote`. -/
structure Answers (ice : IceServer) (lib : IceLib) (request : Bytes) (remote : Endpoint)
    (response : Bytes) : Prop where
  type : ntohsAt response 0 = bindingResponse
  length : (ntohsAt response 2).toNat + stunHeaderSize = response.length
  cookie : ntohlAt response 4 = stunMagicCookie
  transactionId : (response.drop 8).take 12 = (request.drop 8).take 12
  attributes : attributes response = [20, 32, 56]
  types : ntohsAt response 20 = attrXorMapped ∧ ntohsAt response 32 = attrMessageIntegrity ∧
    ntohsAt response 56 = attrFingerprint
  lengths : ntohsAt response 22 = 8 ∧ ntohsAt response 34 = 20 ∧ ntohsAt response 58 = 4
  mapped : mappedEndpoint response 20 = some remote
  /-- The loop finds the MESSAGE-INTEGRITY, and the HMAC is the one it holds. -/
  found : scanAttributes ice.iceUfrag response response.length stunHeaderSize {} =
    some ⟨[], some 32⟩
  integrity : lib.hmacSha1 ice.icePwd (hmacInput response 32) = (response.drop (32 + 4)).take 20
  fingerprint : ntohlAt response 60 = lib.crc32 (response.take 56) ^^^ 0x5354554E

/-! ## The response, attribute by attribute -/

/-- The header with the length `len`. -/
def responseHeader (request : Bytes) (len : UInt16) : Bytes :=
  htons bindingResponse ++ htons len ++ htonl stunMagicCookie ++ (request.drop 8).take 12

/-- XOR-MAPPED-ADDRESS of an IPv4 endpoint. -/
def xorMapped (remote : Endpoint) : StunAttribute :=
  .unpadded attrXorMapped ([0, 0x01] ++ htons (remote.port ^^^ 0x2112) ++
    htonl (remote.address ^^^ stunMagicCookie)) ⟨2, rfl⟩

/-- The bytes the HMAC is taken of. -/
def signedPart (request : Bytes) (remote : Endpoint) : Bytes :=
  responseHeader request 36 ++ (xorMapped remote).encode

/-- MESSAGE-INTEGRITY under the server's own password. -/
def responseIntegrity (ice : IceServer) (lib : IceLib) (request : Bytes) (remote : Endpoint)
    (hlib : ∀ key data, (lib.hmacSha1 key data).length = 20) : StunAttribute :=
  .unpadded attrMessageIntegrity (lib.hmacSha1 ice.icePwd (signedPart request remote))
    ⟨5, hlib _ _⟩

/-- The bytes the CRC is taken of. -/
def summedPart (ice : IceServer) (lib : IceLib) (request : Bytes) (remote : Endpoint)
    (hlib : ∀ key data, (lib.hmacSha1 key data).length = 20) : Bytes :=
  responseHeader request 44 ++ (xorMapped remote).encode ++
    (ice.responseIntegrity lib request remote hlib).encode

/-- FINGERPRINT. -/
def responseFingerprint (ice : IceServer) (lib : IceLib) (request : Bytes) (remote : Endpoint)
    (hlib : ∀ key data, (lib.hmacSha1 key data).length = 20) : StunAttribute :=
  .unpadded attrFingerprint
    (htonl (lib.crc32 (ice.summedPart lib request remote hlib) ^^^ 0x5354554E)) ⟨1, rfl⟩

theorem encode_unpadded {type : UInt16} {value : Bytes} (h : 4 ∣ value.length) :
    (StunAttribute.unpadded type value h).encode =
      htons type ++ htons (UInt16.ofNat value.length) ++ value := List.append_nil _

theorem length_responseHeader (hreq : stunHeaderSize ≤ request.length) (len : UInt16) :
    (responseHeader request len).length = 20 := by
  have hid : ((request.drop 8).take 12).length = 12 := by
    rw [stunHeaderSize] at hreq
    rw [List.length_take, List.length_drop]
    omega
  simp only [responseHeader, List.length_append, htons, List.length_cons, List.length_nil,
    htonl_length, hid]

theorem withLength_responseHeader (len len' : UInt16) (rest : Bytes) :
    withLength (responseHeader request len ++ rest) len' = responseHeader request len' ++ rest :=
  withLength_append ..

theorem responseHead_eq : responseHead request remote =
    responseHeader request 0 ++ (xorMapped remote).encode := by
  have hzero : htons 0 = [0, 0] := rfl
  simp only [responseHead, responseHeader, xorMapped, StunAttribute.unpadded, StunAttribute.encode,
    hzero, List.append_assoc, List.append_nil]
  rfl

variable (hlib : ∀ key data, (lib.hmacSha1 key data).length = 20)

/-- **What is sent**: the three attributes under their length. -/
theorem data_sendResponse (hreq : stunHeaderSize ≤ request.length) :
    (ice.sendResponse lib request remote).data = ice.summedPart lib request remote hlib ++
      (ice.responseFingerprint lib request remote hlib).encode := by
  have hlen := length_responseHeader hreq
  have hxor : (xorMapped remote).encode.length = 12 := rfl
  have hint : (ice.responseIntegrity lib request remote hlib).encode.length = 24 := by
    rw [responseIntegrity, encode_unpadded, List.length_append, hlib]
    rfl
  have hsigned : ice.withIntegrity lib (responseHead request remote) = signedPart request remote ++
      (ice.responseIntegrity lib request remote hlib).encode := by
    unfold withIntegrity
    rw [responseHead_eq, List.length_append, hlen, hxor, withLength_responseHeader,
      show UInt16.ofNat (20 + 12 - stunHeaderSize + 24) = 36 from rfl, responseIntegrity,
      encode_unpadded, hlib, signedPart]
    simp only [List.append_assoc]
    rfl
  show withFingerprint lib (ice.withIntegrity lib (responseHead request remote)) = _
  unfold withFingerprint
  rw [hsigned, List.length_append, hint, signedPart, List.length_append, hlen, hxor,
    List.append_assoc (responseHeader request 36), withLength_responseHeader,
    show UInt16.ofNat (20 + 12 + 24 - stunHeaderSize + 8) = 44 from rfl, responseFingerprint,
    encode_unpadded, htonl_length, summedPart]
  simp only [List.append_assoc]
  rfl

/-! ## What a client finds in it -/

theorem xor_xor_cancel32 (a b : UInt32) : a ^^^ b ^^^ b = a := by
  rw [UInt32.xor_assoc, UInt32.xor_self, UInt32.xor_zero]

theorem xor_xor_cancel16 (a b : UInt16) : a ^^^ b ^^^ b = a := by
  rw [UInt16.xor_assoc, UInt16.xor_self, UInt16.xor_zero]

theorem mappedEndpoint_xorMapped {data rest : Bytes} {pos : Nat}
    (h : data.drop pos = (xorMapped remote).encode ++ rest) :
    mappedEndpoint data pos = some remote := by
  have hfamily : data.getD (pos + 5) 0 = 0x01 := by
    rw [← getD_drop, h]
    rfl
  have hport : ntohsAt data (pos + 6) = remote.port ^^^ 0x2112 := by
    rw [← ntohsAt_drop, h]
    exact ntohs_htons _
  have haddress : ntohlAt data (pos + 8) = remote.address ^^^ stunMagicCookie := by
    rw [← ntohlAt_drop, h]
    exact ntohl_htonl _
  rw [mappedEndpoint, if_pos hfamily, hport, haddress, xor_xor_cancel32, xor_xor_cancel16]

/-- `data` is a header with three attributes behind it, of the sizes of a response. -/
structure Layout (data header : Bytes) (a b c : StunAttribute) : Prop where
  first : Splits data header (a.encode ++ (b.encode ++ (c.encode ++ [])))
  header_length : header.length = 20
  first_length : a.value.length = 8
  second_length : b.value.length = 20
  third_length : c.value.length = 4

namespace Layout

variable {data header : Bytes} {a b c : StunAttribute} (h : Layout data header a b c)
include h

theorem length_second : (header ++ a.encode).length = 32 := by
  have hheader := h.header_length
  have hvalue := h.first_length
  have hpadded := a.padded
  have hshort := a.padding_lt
  rw [List.length_append, length_encode]
  omega

theorem length_third : (header ++ a.encode ++ b.encode).length = 56 := by
  have hsecond := h.length_second
  have hvalue := h.second_length
  have hpadded := b.padded
  have hshort := b.padding_lt
  rw [List.length_append, length_encode]
  omega

theorem length_data : data.length = 64 := by
  have hthird := h.length_third
  have hvalue := h.third_length
  have hpadded := c.padded
  have hshort := c.padding_lt
  rw [h.first.encode.encode.append, List.length_append, List.append_nil, length_encode]
  omega

theorem fields_first : ntohsAt data 20 = a.type ∧ ntohsAt data 22 = 8 := by
  obtain ⟨htype, hlen, -⟩ := h.first.fields (by rw [h.first_length]; decide)
  rw [h.header_length, h.first_length] at hlen
  rw [h.header_length] at htype
  exact ⟨htype, hlen⟩

theorem fields_second : ntohsAt data 32 = b.type ∧ ntohsAt data 34 = 20 ∧
    (data.drop (32 + 4)).take 20 = b.value := by
  obtain ⟨htype, hlen, hvalue⟩ := h.first.encode.fields (by rw [h.second_length]; decide)
  rw [h.length_second, h.second_length] at hlen
  rw [h.length_second] at htype hvalue
  rw [attrValue, hlen] at hvalue
  exact ⟨htype, hlen, hvalue⟩

theorem fields_third : ntohsAt data 56 = c.type ∧ ntohsAt data 58 = 4 := by
  obtain ⟨htype, hlen, -⟩ := h.first.encode.encode.fields (by rw [h.third_length]; decide)
  rw [h.length_third, h.third_length] at hlen
  rw [h.length_third] at htype
  exact ⟨htype, hlen⟩

/-- The offsets of the three attributes. -/
theorem attributes : attributes data = [20, 32, 56] := by
  unfold IceServer.attributes
  rw [stunHeaderSize, ← h.header_length, h.first.visits (by rw [h.first_length]; decide),
    h.first.encode.visits (by rw [h.second_length]; decide),
    h.first.encode.encode.visits (by rw [h.third_length]; decide),
    h.first.encode.encode.encode.visits_nil, h.length_second, h.length_third]

/-- Where the second attribute is a MESSAGE-INTEGRITY the loop finds it. -/
theorem scanAttributes {ufrag : Bytes} (ha : a.type = attrXorMapped)
    (hb : b.type = attrMessageIntegrity) (hc : c.type = attrFingerprint) :
    scanAttributes ufrag data data.length stunHeaderSize {} = some ⟨[], some 32⟩ := by
  obtain ⟨htype20, -⟩ := h.fields_first
  obtain ⟨htype32, hlen32, -⟩ := h.fields_second
  obtain ⟨htype56, -⟩ := h.fields_third
  rw [ha] at htype20
  rw [hc] at htype56
  have hread20 : ∀ s, readAttribute ufrag data 20 s = some s := fun _ =>
    readAttribute_other (by rw [htype20]; decide) (by rw [htype20]; decide)
  have hread32 : ∀ s, readAttribute ufrag data 32 s = some { s with miAttrStart := some 32 } :=
    fun _ => readAttribute_integrity (htype32.trans hb) hlen32
  have hread56 : ∀ s, readAttribute ufrag data 56 s = some s := fun _ =>
    readAttribute_other (by rw [htype56]; decide) (by rw [htype56]; decide)
  have hvisits : (cursor data).visits stunHeaderSize = [20, 32, 56] := h.attributes
  rw [scanAttributes_eq (Nat.le_add_left _ _), scanFrom, hvisits]
  simp only [List.foldlM_cons, List.foldlM_nil, hread20, hread32, hread56, Option.bind_eq_bind,
    Option.bind_some]
  rfl

end Layout

/-- **The response verifies.** `hmacSha1` stands for a function with results of 20 bytes. -/
theorem sendResponse_answers (ice : IceServer) (lib : IceLib)
    (hlib : ∀ key data, (lib.hmacSha1 key data).length = 20) (request : Bytes)
    (hreq : stunHeaderSize ≤ request.length) (remote : Endpoint) :
    ice.Answers lib request remote (ice.sendResponse lib request remote).data := by
  have hdata : (ice.sendResponse lib request remote).data =
      ice.summedPart lib request remote hlib ++
        (ice.responseFingerprint lib request remote hlib).encode := data_sendResponse hlib hreq
  generalize (ice.sendResponse lib request remote).data = response at hdata ⊢
  have hheader := length_responseHeader hreq 44
  have h : Layout response (responseHeader request 44) (xorMapped remote)
      (ice.responseIntegrity lib request remote hlib)
      (ice.responseFingerprint lib request remote hlib) :=
    { first := ⟨by rw [hheader]; decide, by
        rw [hdata, summedPart]; simp only [List.append_assoc, List.append_nil]⟩
      header_length := hheader
      first_length := rfl
      second_length := hlib _ _
      third_length := rfl }
  have hdrop20 : ∃ rest, response.drop 20 = (xorMapped remote).encode ++ rest :=
    ⟨_, by rw [h.first.append]; exact List.drop_left' hheader⟩
  have htake32 : response.take 32 = responseHeader request 44 ++ (xorMapped remote).encode := by
    rw [h.first.encode.append]
    exact List.take_left' h.length_second
  have hdrop56 : response.drop 56 = (ice.responseFingerprint lib request remote hlib).encode := by
    rw [hdata]
    exact List.drop_left' h.length_third
  have htake56 : response.take 56 = ice.summedPart lib request remote hlib := by
    rw [hdata]
    exact List.take_left' h.length_third
  refine
    { type := ?_, length := ?_, cookie := ?_, transactionId := ?_, attributes := h.attributes,
      types := ⟨h.fields_first.1, h.fields_second.1, h.fields_third.1⟩,
      lengths := ⟨h.fields_first.2, h.fields_second.2.1, h.fields_third.2⟩,
      mapped := mappedEndpoint_xorMapped hdrop20.choose_spec,
      found := h.scanAttributes rfl rfl rfl, integrity := ?_, fingerprint := ?_ }
  · rw [hdata]
    exact ntohs_htons bindingResponse
  · rw [h.length_data, hdata]
    exact congrArg (·.toNat + 20) (ntohs_htons 44)
  · rw [hdata]
    exact ntohl_htonl stunMagicCookie
  · have hid : ((request.drop 8).take 12).length = 12 := by
      rw [stunHeaderSize] at hreq
      rw [List.length_take, List.length_drop]
      omega
    rw [h.first.append]
    exact List.take_left' hid
  · rw [hmacInput, htake32, withLength_responseHeader]
    exact h.fields_second.2.2.symm
  · rw [htake56, ← ntohlAt_drop response 56 4, hdrop56]
    exact ntohl_htonl _

/-- The response to a request that is nothing but a header. -/
theorem sendResponse_answers_header :
    shortServer.Answers zeroLib (List.replicate 20 7) ⟨0x7F000001, 9⟩
      (shortServer.sendResponse zeroLib (List.replicate 20 7) ⟨0x7F000001, 9⟩).data :=
  sendResponse_answers shortServer zeroLib (fun _ _ => rfl) (List.replicate 20 7) (by decide)
    ⟨0x7F000001, 9⟩

end Namecon.IceServer
