import Namecon.Signal.Hub

/-!
# `handleLeave` as one call

`Hub.handleLeave` runs the handler from its start to its end and lists the `RemovePeer` RPCs it
makes. It is what the steps of `Signal/Hub.lean` add up to while no other handler runs
(`leave_comes`). A send on a closed channel panics, and `handleLeave` then ends where it is.
-/

namespace Namecon

open ListFacts (MapRange eraseKey)

namespace Hub

/-- `broadcastToRoom` over the clients that are still to visit, and whether it came to its end. -/
def broadcastToRoom (h : Hub) (sender : ClientRef) (roomId : String) (msg : Message) :
    List ClientRef → Hub × Bool
  | [] => (h, true)
  | t :: todo =>
    if (h.client t).roomID = roomId ∧ t ≠ sender then
      if (h.client t).closed then (h, false)
      else broadcastToRoom (h.modifyClient t fun x => x.push msg) sender roomId msg todo
    else broadcastToRoom h sender roomId msg todo

/-- `delete(h.clients, client)` and `close(client.send)`, a second time without effect. -/
def unregister (h : Hub) (c : ClientRef) : Hub :=
  { h with clients := eraseKey h.clients c }.modifyClient c fun x => { x with closed := true }

/-- `clients` is the order in which `broadcastToRoom` walks `h.clients`. -/
def handleLeave (h : Hub) (c : ClientRef) (clients : MapRange ClientRef Bool) :
    Hub × List String :=
  let x := h.client c
  if x.roomID ≠ "" ∧ x.peerID ≠ "" then
    let removed := h.system.removeParticipant x.roomID x.peerID
    let rpcs := match removed.2 with
      | .ok _ => [x.peerID]
      | .error _ => []
    let sent := { h with system := removed.1 }.broadcastToRoom c x.roomID (.peerLeft x.peerID)
      ((clients.walk h.clients).map Prod.fst)
    (if sent.2 then sent.1.unregister c else sent.1, rpcs)
  else (h.unregister c, [])

/-- A call of `handleLeave` changes no room, makes no RPC and puts nothing into the mailbox of
another client. -/
structure LeavesQuietly (h : Hub) (c : ClientRef) (clients : MapRange ClientRef Bool) : Prop where
  rooms : (h.handleLeave c clients).1.system.manager = h.system.manager
  rpcs : (h.handleLeave c clients).2 = []
  mailboxes : ∀ t, t ≠ c → ((h.handleLeave c clients).1.client t).send = (h.client t).send

/-! ## Whom a broadcast reaches -/

/-- The other clients of the room. -/
def mates (h : Hub) (c : ClientRef) (roomId : String) (order : List ClientRef) : List ClientRef :=
  order.filter fun t => (h.client t).roomID = roomId ∧ t ≠ c

/-- Those in front of the first whose channel is closed. -/
def reached (h : Hub) (c : ClientRef) (roomId : String) (order : List ClientRef) :
    List ClientRef :=
  (h.mates c roomId order).takeWhile fun t => !(h.client t).closed

/-- No channel of the other clients of the room is closed. -/
def allOpen (h : Hub) (c : ClientRef) (roomId : String) (order : List ClientRef) : Bool :=
  (h.mates c roomId order).all fun t => !(h.client t).closed

/-- The clients that are registered after `handleLeave`: all of them if the broadcast has met a
closed channel. -/
def clientsAfter (h : Hub) (c : ClientRef) (clients : MapRange ClientRef Bool) :
    List (ClientRef × Bool) :=
  if h.allOpen c (h.client c).roomID ((clients.walk h.clients).map Prod.fst) then
    eraseKey h.clients c
  else h.clients

end Hub

end Namecon
