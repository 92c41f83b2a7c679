import Namecon.Sfu.Peer

/-!
# The ICE-lite server (`transport/IceServer.cpp`)

`onStunPacket` answers a Binding Request whose credentials pass `validateCredentials`. The attribute
loop of the latter is `scanAttributes`; a `return false` inside it is `none`. `IceServer` is the
credentials of the server, which are drawn once. OpenSSL and zlib are outside the repository:
`IceLib` is `HMAC(EVP_sha1(), …)`, from key and data, and `crc32(0, …)`. The callback for responses
is the one `main.cpp` installs.

STUN strings are bytes on the wire, so the ufrag and the password are `Bytes` here.
-/

namespace Namecon

/-- The credentials of the server. -/
structure IceServer where
  iceUfrag : Bytes
  icePwd : Bytes
deriving DecidableEq, Repr

/-- What OpenSSL and zlib compute. -/
structure IceLib where
  hmacSha1 : Bytes → Bytes → Bytes
  crc32 : Bytes → UInt32

namespace IceServer

/-- `STUN_MAGIC_COOKIE`, and below it the types of messages and attributes. -/
def stunMagicCookie : UInt32 := 0x2112A442

/-- `BINDING_REQUEST`. -/
def bindingRequest : UInt16 := 0x0001

/-- `BINDING_RESPONSE`. -/
def bindingResponse : UInt16 := 0x0101

/-- `ATTR_XOR_MAPPED`. -/
def attrXorMapped : UInt16 := 0x0020

/-- `ATTR_USERNAME`. -/
def attrUsername : UInt16 := 0x0006

/-- `ATTR_MESSAGE_INTEGRITY`. -/
def attrMessageIntegrity : UInt16 := 0x0008

/-- `ATTR_FINGERPRINT`. -/
def attrFingerprint : UInt16 := 0x8028

/-- `STUN_HEADER_SIZE`. -/
def stunHeaderSize : Nat := 20

/-- Writes the length field of a STUN header: `memcpy(buf + 2, &len, 2)`. -/
def withLength (buf : Bytes) (len : UInt16) : Bytes := buf.take 2 ++ htons len ++ buf.drop 4

/-! ## `validateCredentials` -/

/-- What the attribute loop keeps: `outPeerUfrag`, and the offset of `miPos` where it is set. -/
structure Scan where
  peerUfrag : Bytes := []
  miAttrStart : Option Nat := none
deriving DecidableEq, Repr

/-- The value of the attribute at `pos`. -/
def attrValue (data : Bytes) (pos : Nat) : Bytes :=
  (data.drop (pos + 4)).take (ntohsAt data (pos + 2)).toNat

/-- The USERNAME branch, `server_ufrag:peer_ufrag`. A name without a colon is passed over. -/
def readUsername (ufrag username : Bytes) (s : Scan) : Option Scan :=
  match username.idxOf? 0x3A with
  | none => some s
  | some colon =>
    if username.take colon ≠ ufrag then none
    else some { s with peerUfrag := username.drop (colon + 1) }

/-- The body of the attribute loop, up to the step to the next attribute. -/
def readAttribute (ufrag data : Bytes) (pos : Nat) (s : Scan) : Option Scan :=
  let attrType := ntohsAt data pos
  if attrType = attrUsername then readUsername ufrag (attrValue data pos) s
  else if attrType = attrMessageIntegrity then
    if ntohsAt data (pos + 2) ≠ 20 then none else some { s with miAttrStart := some pos }
  else some s

/-- The attribute loop from `pos` on. An attribute takes four bytes at least, so
`fuel = data.length` reaches the end. -/
def scanAttributes (ufrag data : Bytes) : Nat → Nat → Scan → Option Scan
  | 0, _, s => some s
  | fuel + 1, pos, s =>
    let valEnd := pos + 4 + (ntohsAt data (pos + 2)).toNat
    if data.length < pos + 4 ∨ data.length < valEnd then some s
    else
      match readAttribute ufrag data pos s with
      | none => none
      | some s => scanAttributes ufrag data fuel ((valEnd + 3) / 4 * 4) s

/-- What the HMAC of a MESSAGE-INTEGRITY at `miAttrStart` is taken of: the bytes before it, with the
length of the message up to its end. -/
def hmacInput (data : Bytes) (miAttrStart : Nat) : Bytes :=
  withLength (data.take miAttrStart) (UInt16.ofNat (miAttrStart + 4 + 20 - stunHeaderSize))

/-- The ufrag of the peer where the credentials are valid. -/
def validateCredentials (ice : IceServer) (lib : IceLib) (data : Bytes) : Option Bytes :=
  match scanAttributes ice.iceUfrag data data.length stunHeaderSize {} with
  | none => none
  | some s =>
    match s.miAttrStart with
    | none => none
    | some miAttrStart =>
      if s.peerUfrag = [] then none
      else if 4096 < miAttrStart then none
      else if lib.hmacSha1 ice.icePwd (hmacInput data miAttrStart) ≠
          (data.drop (miAttrStart + 4)).take 20 then none
      else some s.peerUfrag

/-! ## `sendResponse` -/

/-- Header and XOR-MAPPED-ADDRESS of the response, the length still 0. -/
def responseHead (request : Bytes) (remote : Endpoint) : Bytes :=
  htons bindingResponse ++ [0, 0] ++ htonl stunMagicCookie ++ (request.drop 8).take 12 ++
    htons attrXorMapped ++ htons 8 ++ [0, 0x01] ++ htons (remote.port ^^^ 0x2112) ++
    htonl (remote.address ^^^ stunMagicCookie)

/-- The response with its MESSAGE-INTEGRITY, under the length that the HMAC is taken with. -/
def withIntegrity (ice : IceServer) (lib : IceLib) (head : Bytes) : Bytes :=
  let buf := withLength head (UInt16.ofNat (head.length - stunHeaderSize + 24))
  buf ++ htons attrMessageIntegrity ++ htons 20 ++ lib.hmacSha1 ice.icePwd buf

/-- The response with its FINGERPRINT, under its final length. -/
def withFingerprint (lib : IceLib) (resp : Bytes) : Bytes :=
  let buf := withLength resp (UInt16.ofNat (resp.length - stunHeaderSize + 8))
  buf ++ htons attrFingerprint ++ htons 4 ++ htonl (lib.crc32 buf ^^^ 0x5354554E)

/-- `IceServer::sendResponse`: the HMAC comes first, so the CRC covers it. -/
def sendResponse (ice : IceServer) (lib : IceLib) (request : Bytes) (remote : Endpoint) :
    Datagram :=
  let response := withFingerprint lib (ice.withIntegrity lib (responseHead request remote))
  ⟨remote, .stun, response, response⟩

/-! ## `onStunPacket` -/

/-- `IceServer::onStunPacket`: what is not a valid request gets no answer. -/
def onStunPacket (ice : IceServer) (lib : IceLib) (data : Bytes) (remote : Endpoint) :
    List Datagram :=
  if data.length < stunHeaderSize then []
  else if ntohsAt data 0 ≠ bindingRequest then []
  else if ntohlAt data 4 ≠ stunMagicCookie then []
  else
    match ice.validateCredentials lib data with
    | none => []
    | some _ => [ice.sendResponse lib data remote]

end IceServer

end Namecon
