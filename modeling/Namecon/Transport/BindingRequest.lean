import Namecon.Transport.IceServer

/-!
# Binding Requests as a client writes them

What an ICE client puts into a connectivity check: attributes padded to four bytes
(`StunAttribute`), among them the USERNAME, then a MESSAGE-INTEGRITY over all of it and at the end,
if the client wants, a FINGERPRINT. Nothing here is translated from the server: `BindingRequest` says
what the server has to accept.
-/

namespace Namecon

/-- An attribute with its padding. -/
structure StunAttribute where
  type : UInt16
  value : Bytes
  /-- Bytes of any value up to the next multiple of four. -/
  padding : Bytes
  padded : 4 ∣ value.length + padding.length
  padding_lt : padding.length < 4

namespace StunAttribute

/-- The length is that of the value alone. -/
def encode (a : StunAttribute) : Bytes :=
  htons a.type ++ htons (UInt16.ofNat a.value.length) ++ a.value ++ a.padding

/-- An attribute whose value needs no padding. -/
def unpadded (type : UInt16) (value : Bytes) (h : 4 ∣ value.length) : StunAttribute :=
  ⟨type, value, [], h, by decide⟩

end StunAttribute

/-- A request to the server with the ufrag `ufrag` from a client with the ufrag `peer`. -/
structure BindingRequest (ufrag peer : Bytes) where
  /-- The length field as it is sent. -/
  length : UInt16
  transactionId : Bytes
  before : List StunAttribute
  username : StunAttribute
  after : List StunAttribute
  fingerprint : Option Bytes
  transactionId_length : transactionId.length = 12
  username_type : username.type = IceServer.attrUsername
  username_value : username.value = ufrag ++ 0x3A :: peer
  others : ∀ a ∈ before ++ after, a.type ≠ IceServer.attrUsername ∧
    a.type ≠ IceServer.attrMessageIntegrity
  fingerprint_length : ∀ value ∈ fingerprint, value.length = 4

namespace BindingRequest

variable {ufrag peer : Bytes}

/-- The header with the length `length`. -/
def header (q : BindingRequest ufrag peer) (length : UInt16) : Bytes :=
  htons IceServer.bindingRequest ++ htons length ++ htonl IceServer.stunMagicCookie ++
    q.transactionId

/-- The attributes before the MESSAGE-INTEGRITY. -/
def signed (q : BindingRequest ufrag peer) : Bytes :=
  (q.before ++ q.username :: q.after).flatMap StunAttribute.encode

/-- The HMAC of everything before it, under the length of a message that ends with it. -/
def integrity (q : BindingRequest ufrag peer) (lib : IceLib) (pwd : Bytes) : Bytes :=
  lib.hmacSha1 pwd (q.header (UInt16.ofNat (q.signed.length + 24)) ++ q.signed)

/-- The request as it is sent to a server with the password `pwd`. -/
def packet (q : BindingRequest ufrag peer) (lib : IceLib) (pwd : Bytes) : Bytes :=
  q.header q.length ++ q.signed ++
    (htons IceServer.attrMessageIntegrity ++ htons 20 ++ q.integrity lib pwd) ++
    q.fingerprint.elim [] fun value => htons IceServer.attrFingerprint ++ htons 4 ++ value

end BindingRequest

end Namecon
