import Namecon.Lib.Runs
import Namecon.Signal.Manager

/-!
# The hub (`signal-svc/internal/signaling`)

`Hub` is the WebSocket hub with the room manager and the media server behind it. Each connection has
a goroutine that reads frames (`Client.readPump`) and runs the handler of a frame to its end;
`ReadPump` says what it does next. A step is one mailbox send, one RPC, one critical section or one
write of a field of the client. `h.mu` and `room.mu` are read-held over several steps
(`broadcastToRoom` sends, `SetupConsumers` makes RPCs), and a step that takes the write lock waits
for those. That an `RLock` also waits for a `Lock` which is waiting already is left out.

A frame is what `encoding/json` makes of the bytes, with empty strings for what is missing. RPCs do
not fail of themselves; `AddConsumer` fails where the media server refuses it.
-/

namespace Namecon

open Function (update)
open ListFacts (MapRange setKey eraseKey)

/-- A `*Client`: connections are numbered in the order they come. -/
abbrev ClientRef := Nat

/-- What the server sends on a socket. -/
inductive Message
  | error (message : String)
  | joined (peerId sfuIp : String) (sfuPort : Nat) (iceUfrag icePwd dtlsFingerprint : String)
      (existingPeers : List (String × String))
  | renegotiate (peerId username : String)
  | answer (sdp : String)
  | peerLeft (peerId : String)
deriving DecidableEq, Repr

/-- What a client sends, by its `type`. -/
inductive Frame
  | invalid
  | join (roomId username : String)
  | offer (sdp : String) (recvMids : List RecvMid)
  | leave
  /-- Another type; it is ignored. -/
  | unknown

/-- The next step of a `readPump`. In `handleLeave`, `last` says whether it is the call that
`readPump` defers. -/
inductive ReadPump
  | readMessage
  -- `handleJoin`: `AddParticipant` after its `GetRoom`
  | addPeer (roomId username : String) (room : RoomRef)
  | insert (room : RoomRef) (p : Participant)
  | setPeerID (p : Participant)
  | setRoomID (p : Participant)
  | setUsername (p : Participant)
  | scan (p : Participant)
  | joined (p : Participant) (existingPeers : List (String × String))
  | renegotiate (p : Participant)
  /-- In `broadcastToRoom`, with `todo` still to visit. -/
  | broadcast (roomId : String) (msg : Message) (todo : List ClientRef) (next : ReadPump)
  -- `SetupConsumers`
  | setupConsumers (roomId : String)
  | collect (room : RoomRef)
  | addConsumer (room : RoomRef) (todo : List (String × String × Bool))
  /-- The `sendToClient` that ends a handler. -/
  | reply (msg : Message)
  -- `handleLeave`
  | getRoom (last : Bool)
  | delete (room : RoomRef) (last : Bool)
  | deleteRoom (last : Bool)
  | removePeer (last : Bool)
  | peerLeft (last : Bool)
  | unregister (last : Bool)
  | closeSend (last : Bool)
  | ended
deriving DecidableEq, Repr

/-- A connection: the fields of `Client`, the content of `send` and whether it is closed, what
`writePump` has written to the socket, and the goroutine that reads. -/
structure Client where
  peerID : String := ""
  roomID : String := ""
  username : String := ""
  send : List Message := []
  closed : Bool := false
  written : List Message := []
  pc : ReadPump := .ended
deriving DecidableEq, Repr

/-- The hub with its connections and the services behind it; `client` is the memory behind the
references. -/
structure Hub where
  system : System := {}
  /-- `Hub.clients`; all values are `true`. -/
  clients : List (ClientRef × Bool) := []
  client : ClientRef → Client := fun _ => {}
  nextClient : ClientRef := 0

namespace Client

/-- `select { case c.send <- msg: default: }` on an open channel of capacity 32. -/
def push (c : Client) (msg : Message) : Client :=
  if c.send.length < 32 then { c with send := c.send ++ [msg] } else c

section
variable (c : Client) (msg : Message)

@[simp] theorem push_peerID : (c.push msg).peerID = c.peerID := by unfold push; split <;> rfl
@[simp] theorem push_roomID : (c.push msg).roomID = c.roomID := by unfold push; split <;> rfl
@[simp] theorem push_closed : (c.push msg).closed = c.closed := by unfold push; split <;> rfl
@[simp] theorem push_written : (c.push msg).written = c.written := by unfold push; split <;> rfl
@[simp] theorem push_pc : (c.push msg).pc = c.pc := by unfold push; split <;> rfl

end

/-- The first step of `handleLeave`. -/
def handleLeave (c : Client) (last : Bool) : ReadPump :=
  if c.roomID ≠ "" ∧ c.peerID ≠ "" then .getRoom last else .unregister last

theorem handleLeave_cases (c : Client) (last : Bool) :
    c.handleLeave last = .getRoom last ∨ c.handleLeave last = .unregister last := by
  unfold handleLeave
  split
  · exact .inl rfl
  · exact .inr rfl

end Client

namespace ReadPump

/-- Where `handleLeave` returns to. -/
def afterLeave (last : Bool) : ReadPump := if last then .ended else .readMessage

/-- A panic in `handleLeave` ends it; one in another handler ends `readPump`, which then calls
`handleLeave`. -/
def panic (c : Client) : ReadPump → ReadPump
  | .unregister last => afterLeave last
  | _ => c.handleLeave true

/-- Whether the goroutine read-holds `h.mu`. -/
def holdsHub : ReadPump → Bool
  | .broadcast .. => true
  | _ => false

/-- Whether the goroutine read-holds `room.mu`. -/
def holdsRoom (room : RoomRef) : ReadPump → Bool
  | .addConsumer room' _ => room' == room
  | _ => false

end ReadPump

/-- What the environment chooses for a step: draws, orders of maps, and what the media server says
of itself. -/
structure HubEnv where
  n : Fin 99999
  info : ServerInfo
  participants : MapRange String Participant
  clients : MapRange ClientRef Bool
  draw : Router.SsrcDraw

namespace Hub

/-- Writes through a `*Client`. -/
def modifyClient (h : Hub) (c : ClientRef) (f : Client → Client) : Hub :=
  { h with client := update h.client c (f (h.client c)) }

theorem modifyClient_self (h : Hub) (c : ClientRef) (f : Client → Client) :
    (h.modifyClient c f).client c = f (h.client c) := Function.update_self ..

theorem modifyClient_ne {c t : ClientRef} (ht : t ≠ c) (h : Hub) (f : Client → Client) :
    (h.modifyClient c f).client t = h.client t := Function.update_of_ne ht ..

/-- The goroutine of `c` goes on at `pc`. -/
def goto (h : Hub) (c : ClientRef) (pc : ReadPump) : Hub := h.modifyClient c fun x => { x with pc }

/-- `h.mu` is read-held. -/
def hubHeld (h : Hub) : Bool := (List.range h.nextClient).any fun c => (h.client c).pc.holdsHub

/-- `room.mu` is read-held. -/
def roomHeld (h : Hub) (room : RoomRef) : Bool :=
  (List.range h.nextClient).any fun c => (h.client c).pc.holdsRoom room

/-- Writes to the room manager. -/
def setManager (h : Hub) (manager : Manager) : Hub := { h with system := { h.system with manager } }

/-- An RPC has changed the media server. -/
def setMedia (h : Hub) (media : MediaServer) : Hub := { h with system := { h.system with media } }

/-- `sendToClient(client, msg)` in the goroutine of the client. -/
def sendToClient (h : Hub) (c : ClientRef) (msg : Message) (next : ReadPump) : Hub :=
  if (h.client c).closed then h.goto c (next.panic (h.client c))
  else h.modifyClient c fun x => { x.push msg with pc := next }

/-- `ServeWS`: a new connection is registered before its goroutines start. It waits while `h.mu` is
held. -/
def serveWS (h : Hub) : Hub :=
  if h.hubHeld then h else
  { h with
    clients := setKey h.clients h.nextClient true
    client := update h.client h.nextClient { pc := .readMessage }
    nextClient := h.nextClient + 1 }

/-- `handleMessage` up to its first step that others see. -/
def handleMessage (h : Hub) (c : ClientRef) (generateAnswer : GenerateAnswer) : Frame → Hub
  | .invalid => h.goto c (.reply (.error "invalid json"))
  | .join roomId username =>
    match h.system.manager.getRoom roomId with
    | .error e => h.goto c (.reply (.error e))
    | .ok room => h.goto c (.addPeer roomId username room)
  | .offer sdp recvMids =>
    let out := h.system.media.sendOffer generateAnswer (h.client c).peerID sdp recvMids
    (h.setMedia out.1).goto c (.reply (match out.2 with
      | .ok sdp => .answer sdp
      | .error e => .error ("SendOffer: SendOffer: " ++ e.text)))
  | .leave => h.goto c ((h.client c).handleLeave false)
  | .unknown => h

/-- The scan of `handleJoin`: the other clients of the room that have an id. -/
def existingPeers (h : Hub) (c : ClientRef) (roomId : String) (range : MapRange ClientRef Bool) :
    List (String × String) :=
  ((range.walk h.clients).map Prod.fst).filterMap fun t =>
    if (h.client t).roomID = roomId ∧ t ≠ c ∧ (h.client t).peerID ≠ "" then
      some ((h.client t).peerID, (h.client t).username)
    else none

/-- One round of the loop of `broadcastToRoom`, run by `c`. -/
def broadcastOne (h : Hub) (c : ClientRef) (roomId : String) (msg : Message) (t : ClientRef)
    (todo : List ClientRef) (next : ReadPump) : Hub :=
  if (h.client t).roomID = roomId ∧ t ≠ c then
    if (h.client t).closed then h.goto c (next.panic (h.client c))
    else (h.modifyClient t fun x => x.push msg).goto c (.broadcast roomId msg todo next)
  else h.goto c (.broadcast roomId msg todo next)

/-- The next step of the goroutine of `c`; it stays where it is while it waits for a lock. -/
def advance (h : Hub) (c : ClientRef) (env : HubEnv) : Hub :=
  let x := h.client c
  match x.pc with
  | .readMessage => h
  | .addPeer roomId username room =>
    let peerId := Manager.drawPeerId env.n
    let added := h.system.media.addPeer env.info peerId
    (h.setMedia added.1).goto c
      (.insert room (Participant.ofPeer peerId username roomId added.2))
  | .insert room p =>
    if h.roomHeld room then h
    else (h.setManager (h.system.manager.setParticipant room p.id p)).goto c (.setPeerID p)
  | .setPeerID p => h.modifyClient c fun x => { x with peerID := p.id, pc := .setRoomID p }
  | .setRoomID p => h.modifyClient c fun x => { x with roomID := p.roomId, pc := .setUsername p }
  | .setUsername p => h.modifyClient c fun x => { x with username := p.name, pc := .scan p }
  | .scan p => h.goto c (.joined p (h.existingPeers c p.roomId env.clients))
  | .joined p existing =>
    h.sendToClient c (.joined p.id p.sfuIp p.sfuPort p.iceUfrag p.icePwd p.dtlsFingerprint existing)
      (.renegotiate p)
  | .renegotiate p => h.goto c (.broadcast p.roomId (.renegotiate p.id p.name)
      ((env.clients.walk h.clients).map Prod.fst) (.setupConsumers p.roomId))
  | .broadcast _ _ [] next => h.goto c next
  | .broadcast roomId msg (t :: todo) next => h.broadcastOne c roomId msg t todo next
  | .setupConsumers roomId =>
    match h.system.manager.getRoom roomId with
    | .error _ => h.goto c .readMessage
    | .ok room => h.goto c (.collect room)
  | .collect room => h.goto c (.addConsumer room (System.setupCalls
      ((env.participants.walk (h.system.manager.heap room).participants).map (·.2.id))))
  | .addConsumer _ [] => h.goto c .readMessage
  | .addConsumer room ((sub, pub, isVideo) :: todo) =>
    let out := h.system.media.addConsumer sub pub isVideo env.draw
    (h.setMedia out.1).goto c (match out.2 with
      | .ok _ => .addConsumer room todo
      | .error _ => .readMessage)
  | .reply msg => h.sendToClient c msg .readMessage
  | .getRoom last =>
    match h.system.manager.getRoom x.roomID with
    | .error _ => h.goto c (.peerLeft last)
    | .ok room => h.goto c (.delete room last)
  | .delete room last =>
    if h.roomHeld room then h else
    let m := h.system.manager.deleteParticipant room x.peerID
    (h.setManager m).goto c
      (if (m.heap room).participants.isEmpty then .deleteRoom last else .removePeer last)
  | .deleteRoom last =>
    (h.setManager (h.system.manager.deleteRoom x.roomID)).goto c (.removePeer last)
  | .removePeer last => (h.setMedia (h.system.media.removePeer x.peerID)).goto c (.peerLeft last)
  | .peerLeft last => h.goto c (.broadcast x.roomID (.peerLeft x.peerID)
      ((env.clients.walk h.clients).map Prod.fst) (.unregister last))
  | .unregister last =>
    if h.hubHeld then h
    else { h with clients := eraseKey h.clients c }.goto c (.closeSend last)
  | .closeSend last => h.modifyClient c fun x => { x with closed := true, pc := .afterLeave last }
  | .ended => h

/-- `writePump` takes the next message. -/
def writeMessage (h : Hub) (c : ClientRef) : Hub :=
  match (h.client c).send with
  | [] => h
  | msg :: rest => h.modifyClient c fun x => { x with send := rest, written := x.written ++ [msg] }

end Hub

/-! ## Runs -/

/-- What may happen next: a request to the HTTP API, a new connection, a frame, a step of a
goroutine, or a datagram at the media server. -/
inductive HubOp
  | createRoom (name : String) (k : Fin 900000)
  | serveWS
  | message (c : ClientRef) (generateAnswer : GenerateAnswer) (frame : Frame)
  /-- `ReadMessage` fails. -/
  | hangUp (c : ClientRef)
  | advance (c : ClientRef) (env : HubEnv)
  | writeMessage (c : ClientRef)
  | packet (data : Bytes) (ep : Endpoint) (env : PacketEnv)

/-- A frame is read only by a goroutine that waits for one. -/
def Hub.step (h : Hub) : HubOp → Hub
  | .createRoom name k => h.setManager (h.system.manager.createRoom name k).1
  | .serveWS => h.serveWS
  | .message c generateAnswer frame =>
    if (h.client c).pc = .readMessage then h.handleMessage c generateAnswer frame else h
  | .hangUp c =>
    if (h.client c).pc = .readMessage then h.goto c ((h.client c).handleLeave true) else h
  | .advance c env => h.advance c env
  | .writeMessage c => h.writeMessage c
  | .packet data ep env => h.setMedia (h.system.media.onPacket data ep env).1

end Namecon
