import Mathlib.Algebra.Group.Nat.Defs
import Namecon.Lib.Writing
import Namecon.Rtp.Reads
import Namecon.Transport.IceServer

/-!
# The ICE server, read by read

`onStunPacket` and what it calls once more, with every byte they read and every byte they write
checked against its buffer (`Lib/Checked.lean`, `Lib/Writing.lean`); `Transport/IceServer.lean` has
what they do, without the buffers. The functions have the names of the source with `checked` in
front. The local buffers `buf` and `response` are arguments, whatever they contain.
-/

namespace Namecon.IceServer

open Checked (Result Writer read readSlice write)

/-- `static_cast<uint16_t>`, a failure where it loses bits. -/
def narrow (n : Nat) : Result UInt16 :=
  if n < 2 ^ 16 then .ok (UInt16.ofNat n) else .error (.outOfBounds n)

/-! ## `validateCredentials` -/

/-- The body of the attribute loop; the USERNAME is copied out of the packet. -/
def checkedReadAttribute (ufrag data : Bytes) (pos : Nat) (attrType attrLen : UInt16) (s : Scan) :
    Result (Option Scan) :=
  if attrType = attrUsername then do
    let username ← readSlice data (pos + 4) attrLen.toNat
    return readUsername ufrag username s
  else if attrType = attrMessageIntegrity then
    return if attrLen ≠ 20 then none else some { s with miAttrStart := some pos }
  else return some s

/-- The attribute loop; an attribute takes four bytes at least. -/
def checkedScanAttributes (ufrag data : Bytes) : Nat → Nat → Scan → Result (Option Scan)
  | 0, _, _ => .error .outOfFuel
  | fuel + 1, pos, s =>
    if pos + 4 ≤ data.length then do
      let attrType ← readNtohs data pos
      let attrLen ← readNtohs data (pos + 2)
      let valEnd := pos + 4 + attrLen.toNat
      if data.length < valEnd then return some s else
      match ← checkedReadAttribute ufrag data pos attrType attrLen s with
      | none => return none
      | some s => checkedScanAttributes ufrag data fuel ((valEnd + 3) / 4 * 4) s
    else return some s

/-- `buf` is the local buffer of 4096 bytes. The patch of the length is checked against the part
that has been copied. -/
def checkedValidateCredentials (ice : IceServer) (lib : IceLib) (buf data : Bytes) :
    Result (Option Bytes) := do
  match ← checkedScanAttributes ice.iceUfrag data (data.length + 1) stunHeaderSize {} with
  | none => return none
  | some s =>
    match s.miAttrStart with
    | none => return none
    | some miAttrStart =>
      if s.peerUfrag = [] then return none
      else if 4096 < miAttrStart then return none
      else
        let miValPos := miAttrStart + 4
        let input ← readSlice data 0 miAttrStart
        let w ← Writer.append ⟨buf, 0⟩ input
        let newLen ← narrow (miValPos + 20 - stunHeaderSize)
        let copied ← readSlice w.buf 0 w.len
        let copied ← write copied 2 (htons newLen)
        let received ← readSlice data miValPos 20
        return if lib.hmacSha1 ice.icePwd copied ≠ received then none else some s.peerUfrag

/-! ## `sendResponse` -/

/-- `response` is the local buffer of 256 bytes. Each entry of a list is one `memcpy` of the source;
those of the header go to the offsets 0, 2, 4 and 8. -/
def checkedSendResponse (ice : IceServer) (lib : IceLib) (response request : Bytes)
    (remote : Endpoint) : Result Datagram := do
  let transactionId ← readSlice request 8 12
  let w ← Writer.appendAll ⟨response, 0⟩
    [htons bindingResponse, [0, 0], htonl stunMagicCookie, transactionId]
  let w ← w.appendAll [htons attrXorMapped, htons 8, [0], [0x01],
    htons (remote.port ^^^ 0x2112), htonl (remote.address ^^^ stunMagicCookie)]
  let lenForHmac ← narrow (w.len - stunHeaderSize + 24)
  let response ← write w.buf 2 (htons lenForHmac)
  let input ← readSlice response 0 w.len
  let hmacVal ← readSlice (lib.hmacSha1 ice.icePwd input) 0 20
  let w ← Writer.appendAll ⟨response, w.len⟩ [htons attrMessageIntegrity, htons 20, hmacVal]
  let finalLen ← narrow (w.len - stunHeaderSize + 8)
  let response ← write w.buf 2 (htons finalLen)
  let input ← readSlice response 0 w.len
  let w ← Writer.appendAll ⟨response, w.len⟩
    [htons attrFingerprint, htons 4, htonl (lib.crc32 input ^^^ 0x5354554E)]
  let sent ← readSlice w.buf 0 w.len
  return ⟨remote, .stun, sent, sent⟩

/-! ## `onStunPacket` -/

/-- `onStunPacket` with checked reads and writes: `buf` and `response` are its buffers on the
stack, with what they held before. -/
def checkedOnStunPacket (ice : IceServer) (lib : IceLib) (buf response data : Bytes)
    (remote : Endpoint) : Result (List Datagram) :=
  if data.length < stunHeaderSize then return [] else do
  let msgType ← readNtohs data 0
  if msgType ≠ bindingRequest then return [] else
  let cookie ← readNtohl data 4
  if cookie ≠ stunMagicCookie then return [] else
  match ← checkedValidateCredentials ice lib buf data with
  | none => return []
  | some _ =>
    let sent ← checkedSendResponse ice lib response data remote
    return [sent]

end Namecon.IceServer
