import Namecon.Lib.Runs
import Namecon.Signal.Meeting

/-!
# Concurrent calls on a room

Any number of `AddParticipant` and `RemoveParticipant` calls on one room id, in any interleaving. A
step is one critical section (`m.mu` or `room.mu`) or one RPC; `RoomCall` says what a call does
next. A call starts with its `GetRoom`, and has returned its error where that fails.
-/

namespace Namecon

open Function (update)

/-- What a call does next. -/
inductive RoomCall
  -- `AddParticipant`
  | addPeer (username : String) (room : RoomRef)
  | insert (room : RoomRef) (p : Participant)
  -- `RemoveParticipant`
  | delete (room : RoomRef) (peerId : String)
  | deleteRoom (peerId : String)
  | removePeer (peerId : String)
  | returned
deriving DecidableEq, Repr

/-- The system, the calls made so far, and the peers for which a call has returned success. -/
structure RoomCalls where
  system : System := {}
  call : Nat → RoomCall := fun _ => .returned
  nextCall : Nat := 0
  added : List String := []
  removed : List String := []

/-- A call begins, or goes on. -/
inductive RoomCallOp
  | addParticipant (username : String)
  | removeParticipant (peerId : String)
  /-- The next step of a call; the environment says what the media server says of itself and what
  is drawn. -/
  | advance (i : Nat) (info : ServerInfo) (n : Fin 99999)

namespace RoomCalls

/-- Call `i` goes on with `c`. -/
def setCall (s : RoomCalls) (i : Nat) (c : RoomCall) : RoomCalls :=
  { s with call := update s.call i c }

/-- A call that begins with `c`. -/
def newCall (s : RoomCalls) (c : RoomCall) : RoomCalls :=
  { s with call := update s.call s.nextCall c, nextCall := s.nextCall + 1 }

/-- Writes to the room manager. -/
def setManager (s : RoomCalls) (manager : Manager) : RoomCalls :=
  { s with system := { s.system with manager } }

/-- An RPC has changed the media server. -/
def setMedia (s : RoomCalls) (media : MediaServer) : RoomCalls :=
  { s with system := { s.system with media } }

/-- `roomId` is the id that all calls are made with. -/
def advance (roomId : String) (s : RoomCalls) (i : Nat) (info : ServerInfo) (n : Fin 99999) :
    RoomCalls :=
  match s.call i with
  | .addPeer username room =>
    let peerId := Manager.drawPeerId n
    let added := s.system.media.addPeer info peerId
    (s.setMedia added.1).setCall i
      (.insert room (Participant.ofPeer peerId username roomId added.2))
  | .insert room p =>
    { s.setManager (s.system.manager.setParticipant room p.id p) with
      added := p.id :: s.added }.setCall i .returned
  | .delete room peerId =>
    let m := s.system.manager.deleteParticipant room peerId
    (s.setManager m).setCall i
      (if (m.heap room).participants.isEmpty then .deleteRoom peerId else .removePeer peerId)
  | .deleteRoom peerId =>
    (s.setManager (s.system.manager.deleteRoom roomId)).setCall i (.removePeer peerId)
  | .removePeer peerId =>
    { s.setMedia (s.system.media.removePeer peerId) with
      removed := peerId :: s.removed }.setCall i .returned
  | .returned => s

/-- A call whose `GetRoom` fails is over at once. -/
def step (roomId : String) (s : RoomCalls) : RoomCallOp → RoomCalls
  | .addParticipant username =>
    match s.system.manager.getRoom roomId with
    | .error _ => s
    | .ok room => s.newCall (.addPeer username room)
  | .removeParticipant peerId =>
    match s.system.manager.getRoom roomId with
    | .error _ => s
    | .ok room => s.newCall (.delete room peerId)
  | .advance i info n => s.advance roomId i info n

/-- One room, and no call yet. -/
def opened (name : String) (k : Fin 900000) : RoomCalls := { system := .opened name k }

end RoomCalls

end Namecon
