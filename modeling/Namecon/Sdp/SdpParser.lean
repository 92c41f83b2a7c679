import Mathlib.Data.Finset.Insert
import Mathlib.Data.Int.Basic
import Namecon.Grpc.MediaService
import Namecon.Lib.Lines

/-!
# Offers and answers (`sdp/SdpParser.cpp`)

A `std::string` is the list of its characters (`Text`), a `getline` loop the list of lines it
delivers. `std::stoi` throws on a payload type that is no `int`; a function that may throw returns
the parser as it is then in `.error`. The members that are static in C++ are `PayloadTypes`; a
parser has them as they are while it runs.

`current` of `parseOffer` points to the last of `_sections`, or nowhere while there is none.
-/

namespace Namecon

open Lines

/-- `std::string`. -/
abbrev Text := List Char

/-! ## Streams and strings -/

/-- `std::isspace` of the classic locale. -/
def isSpace (c : Char) : Bool := c == ' ' || (9 ≤ c.toNat && c.toNat ≤ 13)

/-- `std::isdigit` of the classic locale. -/
def isDigit (c : Char) : Bool := 48 ≤ c.toNat && c.toNat ≤ 57

/-- `>> int` and `std::stoi`: the number at the front of the text, and what follows it. -/
def readInt (t : Text) : Option (Int × Text) :=
  let s := t.dropWhile isSpace
  let unsigned := if s.head? = some '-' ∨ s.head? = some '+' then s.tail else s
  let digits := unsigned.takeWhile isDigit
  let magnitude : Int := digits.foldl (fun n c => n * 10 + (c.toNat - 48)) 0
  let value := if s.head? = some '-' then -magnitude else magnitude
  if digits = [] ∨ value < -2147483648 ∨ 2147483647 < value then none
  else some (value, unsigned.dropWhile isDigit)

/-- `while (pts >> pt)`. A number takes one character at least, so `fuel = t.length` reaches the
end. -/
def readInts : Nat → Text → List Int
  | 0, _ => []
  | fuel + 1, t =>
    match readInt t with
    | none => []
    | some (n, t) => n :: readInts fuel t

/-- `static_cast<uint8_t>`. -/
def toUInt8 (n : Int) : UInt8 := UInt8.ofNat (n % 256).toNat

/-- `text.find(word) != npos`. -/
def hasWord (word : Text) : Text → Bool
  | [] => word.isEmpty
  | c :: text => word.isPrefixOf (c :: text) || hasWord word text

/-- `line.compare(0, k.size(), k) == 0`. -/
def starts (k : String) (line : Text) : Bool := k.toList.isPrefixOf line

/-! ## The parser -/

/-- The direction of a section or transceiver. -/
inductive Direction
  | sendrecv
  | sendonly
  | recvonly
  | inactive
deriving DecidableEq, Repr

/-- The attribute's word. -/
def Direction.text : Direction → Text
  | sendrecv => "sendrecv".toList
  | sendonly => "sendonly".toList
  | recvonly => "recvonly".toList
  | inactive => "inactive".toList

/-- `direction` is `none` while the string is empty. -/
structure MediaSection where
  type : Text := []
  mid : Text := []
  direction : Option Direction := none
  ptList : Text := []
  codecLines : List Text := []
deriving DecidableEq, Repr

/-- The static members. -/
structure PayloadTypes where
  videoPT : UInt8 := 96
  audioPT : UInt8 := 111
  videoPTs : Finset UInt8 := ∅
  audioPTs : Finset UInt8 := ∅

/-- The members of `SdpParser`. `parseOffer` clears `sections` only, the others keep what the last
offer left. -/
structure SdpParser where
  sections : List MediaSection := []
  iceUfrag : Text := []
  icePwd : Text := []
  fingerprint : Text := []
  serverIp : Text := []
  serverPort : Int := 10000
  serverUfrag : Text := []
  serverPwd : Text := []
  serverFingerprint : Text := []
  midSsrc : Text → Option UInt32 := fun _ => none
  statics : PayloadTypes := {}

namespace SdpParser

/-- `SdpParser::setServerInfo`. -/
def setServerInfo (p : SdpParser) (ip : Text) (port : Int) (ufrag pwd fingerprint : Text) :
    SdpParser :=
  { p with serverIp := ip, serverPort := port, serverUfrag := ufrag, serverPwd := pwd,
           serverFingerprint := fingerprint }

/-- `SdpParser::setMidSsrcMap`. -/
def setMidSsrcMap (p : SdpParser) (m : Text → Option UInt32) : SdpParser := { p with midSsrc := m }

/-! ## `parseOffer` -/

/-- `extractAttr`: empty where the line is of another attribute. -/
def extractAttr (line : Text) (key : String) : Text :=
  let pre := "a=".toList ++ key.toList ++ [':']
  if pre.isPrefixOf line then line.drop pre.length else []

/-- `if (!line.empty() && line.back() == '\r') line.pop_back()`. -/
def dropCr (line : Text) : Text := if line.getLast? = some '\r' then line.dropLast else line

/-- The line without a final CR and without leading blanks, if anything is left. -/
def trimLine (line : Text) : Option Text :=
  let line := (dropCr line).dropWhile fun c => c == ' ' || c == '\t'
  if line = [] then none else some line

/-- `ms >> type >> port >> proto; getline(ms, rest)`: the type, and the rest without one leading
space. Nothing is read any more once a `>>` has failed. -/
def readMedia (ms : Text) : Text × Text :=
  match readToken isSpace ms with
  | none => ([], [])
  | some (type, ms) =>
    match readToken isSpace ms with
    | none => (type, [])
    | some (_, ms) =>
      match readToken isSpace ms with
      | none => (type, [])
      | some (_, rest) => (type, if rest.head? = some ' ' then rest.tail else rest)

/-- The payload types of an m= line enter the set of its type. -/
def PayloadTypes.insertAll (g : PayloadTypes) (type ptList : Text) : PayloadTypes :=
  let pts := ((readInts ptList.length ptList).map toUInt8).toFinset
  if type = "video".toList then { g with videoPTs := g.videoPTs ∪ pts }
  else if type = "audio".toList then { g with audioPTs := g.audioPTs ∪ pts }
  else g

/-- An m= line, without its `m=`. -/
def openSection (p : SdpParser) (ms : Text) : SdpParser :=
  let media := readMedia ms
  { p with
    sections := p.sections ++ [{ type := media.1, ptList := media.2 }]
    statics := PayloadTypes.insertAll p.statics media.1 media.2 }

/-- Writes through `current`. -/
def setCurrent (p : SdpParser) (sec : MediaSection) : SdpParser :=
  { p with sections := p.sections.dropLast ++ [sec] }

/-- The value of a fingerprint attribute behind the name of the hash. -/
def hashValue (val : Text) : Text :=
  match val.idxOf? ' ' with
  | none => val
  | some space => val.drop (space + 1)

/-- The direction a line names; the line is compared as a whole. -/
def readDirection (line : Text) : Option Direction :=
  if line = "a=sendrecv".toList then some .sendrecv
  else if line = "a=sendonly".toList then some .sendonly
  else if line = "a=recvonly".toList then some .recvonly
  else if line = "a=inactive".toList then some .inactive
  else none

/-- The payload type and the codec of an rtpmap. -/
def splitRtpmap (rv : Text) : Text × Text :=
  match rv.idxOf? ' ' with
  | none => (rv, [])
  | some space => (rv.take space, rv.drop (space + 1))

/-- What an rtpmap of a section of type `type` does to the static members; `none` where `stoi`
throws. -/
def readRtpmap (g : PayloadTypes) (type rv : Text) : Option PayloadTypes :=
  let map := splitRtpmap rv
  if type = "video".toList ∧ (hasWord "VP8".toList map.2 ∨ hasWord "vp8".toList map.2) then
    (readInt map.1).map fun n => { g with videoPT := toUInt8 n.1 }
  else if type = "audio".toList ∧ (hasWord "opus".toList map.2 ∨ hasWord "Opus".toList map.2) then
    (readInt map.1).map fun n => { g with audioPT := toUInt8 n.1 }
  else some g

/-- `current->codecLines.push_back(line)`. -/
def pushCodecLine (p : SdpParser) (current : MediaSection) (line : Text) : SdpParser :=
  p.setCurrent { current with codecLines := current.codecLines ++ [line] }

/-- An rtpmap line of the section `current`. -/
def parseRtpmap (p : SdpParser) (current : MediaSection) (line : Text) :
    Except SdpParser SdpParser :=
  match readRtpmap p.statics current.type (line.drop 9) with
  | none => .error (p.pushCodecLine current line)
  | some statics => .ok { p.pushCodecLine current line with statics }

/-- A line inside the section `current`. -/
def parseAttribute (p : SdpParser) (current : MediaSection) (line : Text) :
    Except SdpParser SdpParser :=
  let mid := extractAttr line "mid"
  if mid ≠ [] then .ok (p.setCurrent { current with mid })
  else
    match readDirection line with
    | some d => .ok (p.setCurrent { current with direction := some d })
    | none =>
      if starts "a=rtpmap:" line then p.parseRtpmap current line
      else if starts "a=rtcp-fb:" line then .ok (p.pushCodecLine current line)
      else if starts "a=fmtp:" line then .ok (p.pushCodecLine current line)
      else .ok p

/-- The loop body for a line that is left after trimming. -/
def parseTrimmed (p : SdpParser) (line : Text) : Except SdpParser SdpParser :=
  let ufrag := extractAttr line "ice-ufrag"
  let pwd := extractAttr line "ice-pwd"
  let fp := extractAttr line "fingerprint"
  if starts "m=" line then .ok (p.openSection (line.drop 2))
  else if ufrag ≠ [] then .ok (if p.iceUfrag = [] then { p with iceUfrag := ufrag } else p)
  else if pwd ≠ [] then .ok (if p.icePwd = [] then { p with icePwd := pwd } else p)
  else if fp ≠ [] then
    .ok (if p.fingerprint = [] then { p with fingerprint := hashValue fp } else p)
  else
    match p.sections.getLast? with
    | none => .ok p
    | some current => p.parseAttribute current line

/-- The loop body of `parseOffer`. -/
def parseLine (p : SdpParser) (line : Text) : Except SdpParser SdpParser :=
  match trimLine line with
  | none => .ok p
  | some line => p.parseTrimmed line

/-- `SdpParser::parseOffer`: an error where `stoi` throws, with what has been read up to there. -/
def parseOffer (p : SdpParser) (sdp : Text) : Except SdpParser (SdpParser × Bool) :=
  match (lines '\n' sdp).foldlM parseLine { p with sections := [] } with
  | .error p => .error p
  | .ok p => .ok (p, p.iceUfrag ≠ [] ∧ p.fingerprint ≠ [] ∧ p.sections ≠ [])

/-! ## `generateAnswer` -/

/-- The SFU's side of the direction of an offer. -/
def answerDirection : Option Direction → Direction
  | none => .sendrecv
  | some .sendrecv => .sendrecv
  | some .sendonly => .recvonly
  | some .recvonly => .sendonly
  | some .inactive => .inactive

/-- `value.empty() ? default : value`. -/
def orDefault (value : Text) (default : String) : Text :=
  if value = [] then default.toList else value

/-- `<< n`. -/
def decimal (n : Nat) : Text := Nat.toDigits 10 n

/-- The lines before the first media section. Each `<<` statement of `generateAnswer` that ends in
`"\r\n"` is one entry. -/
def headerLines (p : SdpParser) : List Text :=
  ["v=0".toList,
    "o=- 0 0 IN IP4 ".toList ++ orDefault p.serverIp "127.0.0.1",
    "s=NameCon".toList,
    "t=0 0".toList,
    "a=group:BUNDLE".toList ++ p.sections.flatMap fun sec => ' ' :: sec.mid,
    "a=msid-semantic: WMS".toList,
    "a=ice-lite".toList]

/-- The four lines that tell the browser which SSRC to expect. -/
def ssrcLines (ssrc : UInt32) : List Text :=
  let n := decimal ssrc.toNat
  ["a=ssrc:".toList ++ n ++ " cname:namecon".toList,
    "a=ssrc:".toList ++ n ++ " msid:namecon namecon".toList ++ n,
    "a=ssrc:".toList ++ n ++ " mslabel:namecon".toList,
    "a=ssrc:".toList ++ n ++ " label:namecon".toList ++ n]

/-- The a=ssrc lines of the answer to the section `sec`. -/
def expectedSsrc (p : SdpParser) (sec : MediaSection) : List Text :=
  if sec.direction = some .recvonly then (p.midSsrc sec.mid).elim [] ssrcLines else []

/-- The m= line of the answer: the port is always 9. -/
def mediaLine (sec : MediaSection) : Text :=
  "m=".toList ++ sec.type ++ " 9 UDP/TLS/RTP/SAVPF ".toList ++ sec.ptList

/-- The lines of a media section from its c= line to its direction. -/
def transportLines (p : SdpParser) (sec : MediaSection) : List Text :=
  let srvPort := if 0 < p.serverPort then p.serverPort.toNat else 10000
  ["c=IN IP4 0.0.0.0".toList,
    "a=ice-ufrag:".toList ++ orDefault p.serverUfrag "sfu_default",
    "a=ice-pwd:".toList ++ orDefault p.serverPwd "default_pwd",
    "a=candidate:1 1 UDP 2130706433 ".toList ++ orDefault p.serverIp "127.0.0.1" ++ " ".toList ++
      decimal srvPort ++ " typ host".toList,
    "a=rtcp:9 IN IP4 0.0.0.0".toList,
    "a=fingerprint:sha-256 ".toList ++ orDefault p.serverFingerprint "00:00:00:00:00",
    "a=setup:passive".toList,
    "a=rtcp-mux".toList,
    "a=mid:".toList ++ sec.mid,
    "a=".toList ++ (answerDirection sec.direction).text]

/-- The lines of a media section behind its m= line. -/
def attributeLines (p : SdpParser) (sec : MediaSection) : List Text :=
  p.transportLines sec ++ sec.codecLines ++ p.expectedSsrc sec

/-- The lines of the answer, in order. -/
def answerLines (p : SdpParser) : List Text :=
  p.headerLines ++ p.sections.flatMap fun sec => mediaLine sec :: p.attributeLines sec

/-- `answer.str()` for the sections that have been parsed. -/
def answerText (p : SdpParser) : Text := p.answerLines.flatMap fun line => line ++ "\r\n".toList

/-- `SdpParser::generateAnswer`: empty where the offer has no ufrag, no fingerprint or no media. -/
def generateAnswer (p : SdpParser) (offerSdp : Text) : Except SdpParser (SdpParser × Text) :=
  match p.parseOffer offerSdp with
  | .error p => .error p
  | .ok (p, false) => .ok (p, [])
  | .ok (p, true) => .ok (p, p.answerText)

end SdpParser

/-- The parser `SendOffer` makes, with the credentials of the server and the mids of the peer. -/
def ServerInfo.parser (info : ServerInfo) (mids : String → Option UInt32)
    (videoPTs : Finset UInt8) : SdpParser :=
  (({ statics := { videoPTs } } : SdpParser).setServerInfo info.publicIp.toList 10000
    info.iceUfrag.toList info.icePwd.toList info.fingerprint.toList).setMidSsrcMap
      fun mid => mids (String.ofList mid)

/-- `generateAnswer` as `SendOffer` calls it. -/
def ServerInfo.generateAnswer (info : ServerInfo) : GenerateAnswer := fun sdp mids videoPTs =>
  match (info.parser mids videoPTs).generateAnswer sdp.toList with
  | .error p => (none, p.statics.videoPTs)
  | .ok (p, answer) => (some (String.ofList answer), p.statics.videoPTs)

end Namecon
