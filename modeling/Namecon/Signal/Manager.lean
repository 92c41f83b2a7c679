import Namecon.Grpc.MediaService

/-!
# Rooms (`signal-svc/internal/room`)

`System` is the signalling server's room manager together with the media server its RPCs reach. A
`*Room` is a reference into `Manager.heap`, since a caller may keep one that `m.rooms` has let go.
Go walks a map in any order (`MapRange`). RPCs succeed unless the media server refuses them;
`CreateRoom` of the media server changes nothing there and its answer is not used.
-/

namespace Namecon

open Function (update)
open ListFacts (MapRange setKey eraseKey)

/-- `Participant`: what `joined` tells the client about itself. -/
structure Participant where
  id : String
  name : String
  roomId : String
  sfuIp : String
  sfuPort : Nat
  iceUfrag : String
  icePwd : String
  dtlsFingerprint : String
deriving DecidableEq, Repr

/-- The participant that `AddParticipant` makes of the answer to `AddPeer`. -/
def Participant.ofPeer (id name roomId : String) (a : AddPeerResp) : Participant :=
  { id, name, roomId, sfuIp := a.sfuIp, sfuPort := a.sfuPort, iceUfrag := a.iceUfrag
    icePwd := a.icePwd, dtlsFingerprint := a.dtlsFingerprint }

/-- `Room`; `participants` is its map. -/
structure Room where
  id : String := ""
  name : String := ""
  token : String := ""
  participants : List (String × Participant) := []
deriving DecidableEq, Repr

/-- A `*Room`, which may outlive its entry in `m.rooms`. -/
abbrev RoomRef := Nat

/-- The room manager, with the memory behind its rooms. -/
structure Manager where
  rooms : String → Option RoomRef := fun _ => none
  heap : RoomRef → Room := fun _ => {}
  nextRoom : RoomRef := 0

/-- The room manager and the media server it calls. -/
structure System where
  manager : Manager := {}
  media : MediaServer := {}

/-- What `client.go` makes of a failed RPC. -/
def Status.text : Status → String
  | .notFound message => "rpc error: code = NotFound desc = " ++ message
  | .exception => "rpc error: code = Unknown desc = Unexpected error in RPC handling"

namespace Manager

/-- `"%06d"` of `rand.Intn(900000) + 100000`, which has six digits. -/
def drawRoomId (n : Fin 900000) : String := toString (n.val + 100000)

/-- The result `n` of `rand.Intn(99999)`. -/
def intn (n : Nat) : Fin 99999 := Fin.ofNat 99999 n

/-- `"peer_%d"` of `rand.Intn(99999)`. -/
def drawPeerId (n : Fin 99999) : String := "peer_" ++ toString n.val

/-- `CreateRoom`: a room that is there under the drawn id is replaced. -/
def createRoom (m : Manager) (name : String) (n : Fin 900000) : Manager × Room :=
  let roomId := drawRoomId n
  let room : Room := { id := roomId, name, token := "token_" ++ roomId }
  ({ rooms := update m.rooms roomId (some m.nextRoom)
     heap := update m.heap m.nextRoom room
     nextRoom := m.nextRoom + 1 }, room)

/-- `GetRoom`. -/
def getRoom (m : Manager) (roomId : String) : Except String RoomRef :=
  match m.rooms roomId with
  | some room => .ok room
  | none => .error ("room not found: " ++ roomId)

/-- `room.Participants[peerID] = p`, under `room.mu`. -/
def setParticipant (m : Manager) (room : RoomRef) (peerId : String) (p : Participant) : Manager :=
  { m with heap := update m.heap room { m.heap room with
      participants := setKey (m.heap room).participants peerId p } }

/-- `delete(room.Participants, peerID)`, under `room.mu`. -/
def deleteParticipant (m : Manager) (room : RoomRef) (peerId : String) : Manager :=
  { m with heap := update m.heap room { m.heap room with
      participants := eraseKey (m.heap room).participants peerId } }

/-- `delete(m.rooms, roomID)`, under `m.mu`. -/
def deleteRoom (m : Manager) (roomId : String) : Manager :=
  { m with rooms := update m.rooms roomId none }

end Manager

namespace System

open Manager (drawPeerId)

/-- `AddParticipant`, with nothing between its parts. A participant under the drawn id is
replaced. -/
def addParticipant (s : System) (info : ServerInfo) (roomId username : String) (n : Fin 99999) :
    System × Except String Participant :=
  match s.manager.getRoom roomId with
  | .error e => (s, .error e)
  | .ok room =>
    let peerId := drawPeerId n
    let added := s.media.addPeer info peerId
    let p := Participant.ofPeer peerId username roomId added.2
    ({ manager := s.manager.setParticipant room peerId p, media := added.1 }, .ok p)

/-- `RemoveParticipant`, with nothing between its parts: an empty room is deleted before the
RPC. -/
def removeParticipant (s : System) (roomId peerId : String) : System × Except String Unit :=
  match s.manager.getRoom roomId with
  | .error e => (s, .error e)
  | .ok room =>
    let m := s.manager.deleteParticipant room peerId
    let m := if (m.heap room).participants.isEmpty then m.deleteRoom roomId else m
    ({ manager := m, media := s.media.removePeer peerId }, .ok ())

section

variable {s : System} {roomId : String} {room : RoomRef}

theorem addParticipant_none (h : s.manager.rooms roomId = none) (info : ServerInfo)
    (username : String) (n : Fin 99999) : s.addParticipant info roomId username n =
      (s, .error ("room not found: " ++ roomId)) := by
  simp only [addParticipant, Manager.getRoom, h]

theorem addParticipant_some (h : s.manager.rooms roomId = some room) (info : ServerInfo)
    (username : String) (n : Fin 99999) : s.addParticipant info roomId username n =
      let added := s.media.addPeer info (drawPeerId n)
      let p := Participant.ofPeer (drawPeerId n) username roomId added.2
      ({ manager := s.manager.setParticipant room (drawPeerId n) p, media := added.1 }, .ok p) := by
  simp only [addParticipant, Manager.getRoom, h]

theorem removeParticipant_none (h : s.manager.rooms roomId = none) (peerId : String) :
    s.removeParticipant roomId peerId = (s, .error ("room not found: " ++ roomId)) := by
  simp only [removeParticipant, Manager.getRoom, h]

theorem removeParticipant_some (h : s.manager.rooms roomId = some room) (peerId : String) :
    s.removeParticipant roomId peerId =
      let m := s.manager.deleteParticipant room peerId
      ({ manager := if (m.heap room).participants.isEmpty then m.deleteRoom roomId else m
         media := s.media.removePeer peerId }, .ok ()) := by
  simp only [removeParticipant, Manager.getRoom, h]

end

/-- The `AddConsumer` calls of `SetupConsumers`, for participants in this order. -/
def setupCalls (peers : List String) : List (String × String × Bool) :=
  peers.flatMap fun sub => peers.flatMap fun pub =>
    if sub = pub then [] else [(sub, pub, true), (sub, pub, false)]

/-- The calls until one fails; `draws i` is what the media server draws in the `i`-th. -/
def addConsumers (draws : Nat → Router.SsrcDraw) :
    Nat → List (String × String × Bool) → MediaServer → MediaServer × Except String Unit
  | _, [], s => (s, .ok ())
  | i, (sub, pub, isVideo) :: calls, s =>
    let out := s.addConsumer sub pub isVideo (draws i)
    match out.2 with
    | .ok _ => addConsumers draws (i + 1) calls out.1
    | .error e => (out.1, .error ("AddConsumer " ++ sub ++ "<-" ++ pub ++
        (if isVideo then "(video): " else "(audio): ") ++ "AddConsumer: " ++ e.text))

/-- `SetupConsumers`: it stops at the first RPC that fails. -/
def setupConsumers (s : System) (range : MapRange String Participant)
    (draws : Nat → Router.SsrcDraw) (roomId : String) : System × Except String Unit :=
  match s.manager.getRoom roomId with
  | .error e => (s, .error e)
  | .ok room =>
    let peers := (range.walk (s.manager.heap room).participants).map (·.2.id)
    let out := addConsumers draws 0 (setupCalls peers) s.media
    ({ s with media := out.1 }, out.2)

end System

end Namecon
