import Namecon.Lib.Runs
import Namecon.Signal.Manager

/-!
# Joins and leaves of one room

What a room and the media server go through when the members join and leave one after the other:
`handleJoin` calls `AddParticipant` and then `SetupConsumers`, `handleLeave` calls
`RemoveParticipant`. Offers and datagrams come between them. The interleavings of two calls are the
subject of `Signal/Hub.lean`. `ManagerOp` are the calls of the room manager for any rooms, one after
the other, each with the number it draws.
-/

namespace Namecon

open ListFacts (MapRange)

/-- A member joins or leaves; an offer or a datagram comes to the media server. -/
inductive MeetingOp
  | join (username : String) (info : ServerInfo) (n : Fin 99999)
      (range : MapRange String Participant) (draws : Nat → Router.SsrcDraw)
  | leave (peerId : String)
  | offer (generateAnswer : GenerateAnswer) (peerId sdp : String) (recvMids : List RecvMid)
  | packet (data : Bytes) (ep : Endpoint) (env : PacketEnv)

namespace System

/-- A system in which one room has been created, under the id drawn with `k`. -/
def opened (name : String) (k : Fin 900000) : System :=
  { manager := (Manager.createRoom {} name k).1 }

/-- `Participants` of the room, empty where there is no room. -/
def participants (s : System) (roomId : String) : List (String × Participant) :=
  match s.manager.rooms roomId with
  | none => []
  | some room => (s.manager.heap room).participants

theorem participants_some {s : System} {roomId : String} {room : RoomRef}
    (h : s.manager.rooms roomId = some room) :
    s.participants roomId = (s.manager.heap room).participants := by
  simp only [participants, h]

theorem participants_none {s : System} {roomId : String} (h : s.manager.rooms roomId = none) :
    s.participants roomId = [] := by
  simp only [participants, h]

/-- The peer ids of the room. -/
def present (s : System) (roomId : String) : List String := (s.participants roomId).map Prod.fst

/-- `handleJoin`, with nothing between its calls. -/
def join (s : System) (roomId username : String) (info : ServerInfo) (n : Fin 99999)
    (range : MapRange String Participant) (draws : Nat → Router.SsrcDraw) : System :=
  let added := s.addParticipant info roomId username n
  match added.2 with
  | .error _ => added.1
  | .ok _ => (added.1.setupConsumers range draws roomId).1

/-- One join, leave, offer or datagram, to its end. -/
def step (roomId : String) (s : System) : MeetingOp → System
  | .join username info n range draws => s.join roomId username info n range draws
  | .leave peerId => (s.removeParticipant roomId peerId).1
  | .offer generateAnswer peerId sdp recvMids =>
    { s with media := (s.media.sendOffer generateAnswer peerId sdp recvMids).1 }
  | .packet data ep env => { s with media := (s.media.onPacket data ep env).1 }

end System

/-- A call of the room manager. -/
inductive ManagerOp
  | createRoom (name : String) (n : Fin 900000)
  | addParticipant (info : ServerInfo) (roomId username : String) (n : Fin 99999)
  | removeParticipant (roomId peerId : String)

/-- One call, to its end; what it returns is left out. -/
def System.call (s : System) : ManagerOp → System
  | .createRoom name n => { s with manager := (s.manager.createRoom name n).1 }
  | .addParticipant info roomId username n => (s.addParticipant info roomId username n).1
  | .removeParticipant roomId peerId => (s.removeParticipant roomId peerId).1

end Namecon
