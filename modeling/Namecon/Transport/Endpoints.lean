import Namecon.Grpc.MediaService

/-!
# The endpoint table between threads

`registerPeer` runs on a gRPC thread under `_pendingMutex`, `getOrCreatePeer` on the thread of the
socket under `_peerMutex`, which it holds to its end; only its section that takes a pending peer
holds `_pendingMutex` as well. `Endpoints` is the server with the call of `getOrCreatePeer` that
holds `_peerMutex`, and each of the three sections of the call is a step, so a `registerPeer` may
come between any two.
-/

namespace Namecon

/-- Where the call that holds `_peerMutex` is. -/
inductive Search
  /-- `_peerMap` has no entry for the endpoint. -/
  | missed (ep : Endpoint)
  /-- The call has its peer and has not written it to `_peerMap` yet. -/
  | holding (ep : Endpoint) (peer : PeerRef)
deriving DecidableEq, Repr

namespace MediaServer

/-- `make_shared<Peer>()` in `AddPeer`, with the id of the client. -/
def makePeer (s : MediaServer) (peerId : String) : MediaServer :=
  { s with
    nextPeer := s.nextPeer + 1
    router := s.router.modifyPeer s.nextPeer fun _ => { peerId } }

/-- The section of `getOrCreatePeer` under `_pendingMutex`, and the peer made where it found
none. -/
def takePending (s : MediaServer) (pick : Nat) : MediaServer × PeerRef :=
  match s.pendingBegin pick with
  | some e => ({ s with pendingPeers := ListFacts.eraseKey s.pendingPeers e.1 }, e.2)
  | none => ({ s with nextPeer := s.nextPeer + 1 }, s.nextPeer)

end MediaServer

/-- The server, the call under way and, for the record, what has been registered. -/
structure Endpoints where
  server : MediaServer := {}
  search : Option Search := none
  /-- The peers given to `registerPeer`, each with its id. -/
  registered : List (String × PeerRef) := []
  /-- The peers that were pending when a later `registerPeer` came with their id. -/
  replaced : List PeerRef := []

/-- A section of the thread of the socket, or an `AddPeer` of a gRPC thread. -/
inductive EndpointOp
  | registerPeer (peerId : String)
  /-- `getOrCreatePeer` takes `_peerMutex` and looks its endpoint up. -/
  | find (ep : Endpoint)
  | takePending (pick : Nat)
  /-- The call writes `remoteEp` and `_peerMap` and returns. -/
  | bind

/-- A step of a call that is not under way, or of one that waits for `_peerMutex`, does nothing. -/
def Endpoints.step (t : Endpoints) : EndpointOp → Endpoints
  | .registerPeer peerId =>
    let peer := t.server.nextPeer
    { t with
      server := (t.server.makePeer peerId).registerPeer peerId peer
      registered := (peerId, peer) :: t.registered
      replaced := (t.server.pendingPeers.filter (·.1 = peerId)).map Prod.snd ++ t.replaced }
  | .find ep =>
    match t.search, t.server.peerMap ep with
    | none, none => { t with search := some (.missed ep) }
    | _, _ => t
  | .takePending pick =>
    match t.search with
    | some (.missed ep) =>
      let taken := t.server.takePending pick
      { t with server := taken.1, search := some (.holding ep taken.2) }
    | _ => t
  | .bind =>
    match t.search with
    | some (.holding ep peer) => { t with server := t.server.bindEndpoint ep peer, search := none }
    | _ => t

namespace MediaServer

/-- A call with nothing between its sections. -/
theorem getOrCreatePeer_eq (s : MediaServer) (ep : Endpoint) (pick : Nat)
    (hm : s.peerMap ep = none) : s.getOrCreatePeer ep pick =
      ((s.takePending pick).1.bindEndpoint ep (s.takePending pick).2, (s.takePending pick).2) := by
  unfold getOrCreatePeer takePending
  rw [hm]
  dsimp only
  cases s.pendingBegin pick <;> rfl

end MediaServer

end Namecon
