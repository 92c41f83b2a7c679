import Namecon.Grpc.Proof.Binding
import Namecon.Signal.Hub

/-!
# Whether a subscription is ready when an offer names it

A client names in `recv_mids` the peers it has been told of. The `renegotiate` of a new peer goes
out before `SetupConsumers` makes the consumers of that peer, so an offer may reach the media server
first. `Logged` adds to a run the `AddConsumer` calls made so far: a binding is found exactly when
its call is among them.
-/

namespace Namecon

open Function (update)

/-- Neither a `leave` nor the end of a connection. -/
def HubOp.Stays : HubOp → Prop
  | .message _ _ .leave => False
  | .hangUp _ => False
  | _ => True

instance (op : HubOp) : Decidable op.Stays :=
  match op with
  | .message _ _ .leave | .hangUp _ => .isFalse id
  | .message _ _ .invalid | .message _ _ (.join _ _) | .message _ _ (.offer _ _)
  | .message _ _ .unknown | .createRoom _ _ | .serveWS | .advance _ _ | .writeMessage _
  | .packet _ _ _ => .isTrue trivial

/-- Not in `handleLeave`. -/
def ReadPump.Stays : ReadPump → Prop
  | .broadcast _ _ _ next => next.Stays
  | .getRoom _ | .delete _ _ | .deleteRoom _ | .removePeer _ | .peerLeft _ | .unregister _
  | .closeSend _ => False
  | _ => True

/-- The peers a message tells its receiver of. -/
def Message.announces : Message → List String
  | .joined _ _ _ _ _ _ existing => existing.map Prod.fst
  | .renegotiate peerId _ => [peerId]
  | _ => []

/-! ## The RPCs of a run -/

namespace Hub

variable {h : Hub}

/-- What a step asks of the media server. -/
def rpc (h : Hub) : HubOp → Option ServerOp
  | .message c generateAnswer (.offer sdp recvMids) =>
    if (h.client c).pc = .readMessage then
      some (.sendOffer generateAnswer (h.client c).peerID sdp recvMids)
    else none
  | .advance c env =>
    match (h.client c).pc with
    | .addPeer _ _ _ => some (.addPeer env.info (Manager.drawPeerId env.n))
    | .addConsumer _ ((sub, pub, isVideo) :: _) => some (.addConsumer sub pub isVideo env.draw)
    | .removePeer _ => some (.removePeer (h.client c).peerID)
    | _ => none
  | .packet data ep env => some (.packet data ep env)
  | _ => none

theorem sendToClient_system (c : ClientRef) (msg : Message) (next : ReadPump) :
    (h.sendToClient c msg next).system = h.system := by
  unfold sendToClient
  split <;> rfl

theorem broadcastOne_system (c : ClientRef) (roomId : String) (msg : Message) (t : ClientRef)
    (todo : List ClientRef) (next : ReadPump) :
    (h.broadcastOne c roomId msg t todo next).system = h.system := by
  unfold broadcastOne
  split
  · split <;> rfl
  · rfl

theorem media_advance (c : ClientRef) (env : HubEnv) : (h.advance c env).system.media =
    (h.rpc (.advance c env)).elim h.system.media h.system.media.step := by
  cases hpc : (h.client c).pc with
  | joined p existing =>
    simp only [advance, rpc, hpc]
    exact congrArg System.media (sendToClient_system ..)
  | reply msg =>
    simp only [advance, rpc, hpc]
    exact congrArg System.media (sendToClient_system ..)
  | broadcast roomId msg todo next =>
    cases todo with
    | nil => simp only [advance, rpc, hpc]; rfl
    | cons t todo =>
      simp only [advance, rpc, hpc]
      exact congrArg System.media (broadcastOne_system ..)
  | addConsumer room todo => cases todo <;> simp only [advance, rpc, hpc] <;> rfl
  | insert room p => simp only [advance, rpc, hpc]; split <;> rfl
  | setupConsumers roomId => simp only [advance, rpc, hpc]; split <;> rfl
  | getRoom last => simp only [advance, rpc, hpc]; split <;> rfl
  | delete room last => simp only [advance, rpc, hpc]; split <;> rfl
  | unregister last => simp only [advance, rpc, hpc]; split <;> rfl
  | _ => simp only [advance, rpc, hpc]; rfl

theorem media_step (op : HubOp) : (h.step op).system.media =
    (h.rpc op).elim h.system.media h.system.media.step := by
  cases op with
  | createRoom name k => rfl
  | serveWS => simp only [step, serveWS]; split <;> rfl
  | message c g frame =>
    simp only [step]
    split
    · rename_i hpc
      cases frame with
      | join roomId username => simp only [handleMessage]; split <;> rfl
      | offer sdp recvMids => simp only [rpc, if_pos hpc]; rfl
      | _ => rfl
    · rename_i hpc
      cases frame with
      | offer sdp recvMids => simp only [rpc, if_neg hpc]; rfl
      | _ => rfl
  | hangUp c => simp only [step]; split <;> rfl
  | advance c env => exact media_advance c env
  | writeMessage c => simp only [step, writeMessage]; split <;> rfl
  | packet data ep env => rfl

/-! ## Runs in which nobody leaves -/

/-- No handler is in `handleLeave`, and no channel is closed, so that none gets there by a panic. -/
def Staying (h : Hub) : Prop := ∀ c, (h.client c).closed = false ∧ (h.client c).pc.Stays

theorem Staying.modifyClient (hs : h.Staying) (c : ClientRef) {f : Client → Client}
    (hf : (f (h.client c)).closed = false ∧ (f (h.client c)).pc.Stays) :
    (h.modifyClient c f).Staying := by
  intro t
  by_cases ht : t = c
  · subst ht
    simp only [Hub.modifyClient_self]
    exact hf
  · simp only [Hub.modifyClient_ne ht]
    exact hs t

theorem Staying.goto (hs : h.Staying) (c : ClientRef) {pc : ReadPump} (hpc : pc.Stays) :
    (h.goto c pc).Staying :=
  hs.modifyClient c ⟨(hs c).1, hpc⟩

theorem Staying.setMedia (hs : h.Staying) (m : MediaServer) : (h.setMedia m).Staying :=
  fun t => hs t

theorem Staying.setManager (hs : h.Staying) (m : Manager) : (h.setManager m).Staying :=
  fun t => hs t

theorem Staying.sendToClient (hs : h.Staying) (c : ClientRef) (msg : Message) {next : ReadPump}
    (hn : next.Stays) : (h.sendToClient c msg next).Staying := by
  unfold Hub.sendToClient
  rw [(hs c).1]
  exact hs.modifyClient c (f := fun x => { x.push msg with pc := next })
    ⟨(Client.push_closed _ _).trans (hs c).1, hn⟩

theorem Staying.broadcastOne (hs : h.Staying) (c : ClientRef) (roomId : String) (msg : Message)
    (t : ClientRef) (todo : List ClientRef) {next : ReadPump} (hn : next.Stays) :
    (h.broadcastOne c roomId msg t todo next).Staying := by
  unfold Hub.broadcastOne
  rw [(hs t).1]
  split
  · refine Staying.goto (hs.modifyClient t ⟨?_, ?_⟩) c hn
    · exact (Client.push_closed _ _).trans (hs t).1
    · rw [Client.push_pc]; exact (hs t).2
  · exact hs.goto c hn

theorem Staying.advance (hs : h.Staying) (c : ClientRef) (env : HubEnv) :
    (h.advance c env).Staying := by
  have hc := (hs c).2
  cases hpc : (h.client c).pc with
  | joined p existing => simp only [Hub.advance, hpc]; exact hs.sendToClient c _ trivial
  | reply msg => simp only [Hub.advance, hpc]; exact hs.sendToClient c _ trivial
  | broadcast roomId msg todo next =>
    rw [hpc] at hc
    cases todo with
    | nil => simp only [Hub.advance, hpc]; exact hs.goto c hc
    | cons t todo => simp only [Hub.advance, hpc]; exact hs.broadcastOne c _ _ _ _ hc
  | addConsumer room todo =>
    cases todo with
    | nil => simp only [Hub.advance, hpc]; exact hs.goto c trivial
    | cons call todo =>
      simp only [Hub.advance, hpc]
      refine (hs.setMedia _).goto c ?_
      split <;> trivial
  | insert room p =>
    simp only [Hub.advance, hpc]
    split
    · exact hs
    · exact (hs.setManager _).goto c trivial
  | setupConsumers roomId =>
    simp only [Hub.advance, hpc]
    split <;> exact hs.goto c trivial
  | setPeerID p => simp only [Hub.advance, hpc]; exact hs.modifyClient c ⟨(hs c).1, trivial⟩
  | setRoomID p => simp only [Hub.advance, hpc]; exact hs.modifyClient c ⟨(hs c).1, trivial⟩
  | setUsername p => simp only [Hub.advance, hpc]; exact hs.modifyClient c ⟨(hs c).1, trivial⟩
  | addPeer roomId username room =>
    simp only [Hub.advance, hpc]
    exact (hs.setMedia _).goto c trivial
  | scan p => simp only [Hub.advance, hpc]; exact hs.goto c trivial
  | renegotiate p => simp only [Hub.advance, hpc]; exact hs.goto c trivial
  | collect room => simp only [Hub.advance, hpc]; exact hs.goto c trivial
  | readMessage => simpa only [Hub.advance, hpc] using hs
  | ended => simpa only [Hub.advance, hpc] using hs
  | _ => rw [hpc] at hc; exact hc.elim

theorem Staying.step (hs : h.Staying) {op : HubOp} (hop : op.Stays) : (h.step op).Staying := by
  cases op with
  | createRoom name k => exact hs.setManager _
  | serveWS =>
    simp only [Hub.step, Hub.serveWS]
    split
    · exact hs
    · intro t
      by_cases ht : t = h.nextClient
      · subst ht
        simp only [Function.update_self]
        exact ⟨trivial, trivial⟩
      · simp only [Function.update_of_ne ht]
        exact hs t
  | message c g frame =>
    simp only [Hub.step]
    split
    · cases frame with
      | join roomId username =>
        simp only [handleMessage]
        split <;> exact hs.goto c trivial
      | offer sdp recvMids => exact (hs.setMedia _).goto c trivial
      | invalid => exact hs.goto c trivial
      | unknown => exact hs
      | leave => exact hop.elim
    · exact hs
  | hangUp c => exact hop.elim
  | advance c env => exact hs.advance c env
  | writeMessage c =>
    simp only [Hub.step, Hub.writeMessage]
    split
    · exact hs
    · exact hs.modifyClient c (hs c)
  | packet data ep env => exact hs.setMedia _

/-- Where nobody leaves, no peer is removed. -/
theorem Staying.rpc (hs : h.Staying) (op : HubOp) :
    ∀ o ∈ h.rpc op, MediaServer.NoRemoval o := by
  intro o ho
  cases op with
  | advance c env =>
    have hc := (hs c).2
    simp only [Hub.rpc] at ho
    split at ho
    · cases ho; trivial
    · cases ho; trivial
    · rename_i hpc; rw [hpc] at hc; exact hc.elim
    · cases ho
  | message c g frame =>
    cases frame with
    | offer sdp recvMids =>
      simp only [Hub.rpc] at ho
      split at ho
      · cases ho; trivial
      · cases ho
    | _ => cases ho
  | packet data ep env => cases ho; trivial
  | _ => cases ho

/-! ## Offers -/

/-- The client has received a message that tells it of `peerId`. -/
def Announced (h : Hub) (c : ClientRef) (peerId : String) : Prop :=
  ∃ m ∈ (h.client c).written, peerId ∈ m.announces

/-- The offer is handled, names only peers the client has been told of, and is bound for `S`. -/
def Offers (h : Hub) (c : ClientRef) (recvMids : List RecvMid) (S : PeerRef) : Prop :=
  (h.client c).pc = .readMessage ∧ (∀ rm ∈ recvMids, h.Announced c rm.publisherPeerId) ∧
    h.system.media.findPeer (h.client c).peerID = some S

/-- Every `bindConsumerByMid` of the offer returns an SSRC. -/
def BindsFound (h : Hub) : HubOp → Prop
  | .message c _ (.offer _ recvMids) => ∀ S, h.Offers c recvMids S →
      ∀ before rm after, recvMids = before ++ rm :: after →
        ((MediaServer.bindMids S before (h.system.media.router, fun _ => none)).1.bindConsumerByMid
          S rm.publisherPeerId rm.isVideo rm.mid).2 ≠ 0
  | _ => True

end Hub

/-- A hub, and the `AddConsumer` calls made so far. -/
structure Logged where
  hub : Hub := {}
  calls : List (String × String × Bool) := []

namespace Logged

/-- A step of the hub; an `AddConsumer` among its RPCs is recorded. -/
def step (l : Logged) (op : HubOp) : Logged where
  hub := l.hub.step op
  calls := (l.hub.rpc op).elim l.calls (l.hub.system.media.record l.calls)

/-- The calls for the pairs of the offer have been made. -/
def CallsMade (l : Logged) : HubOp → Prop
  | .message c _ (.offer _ recvMids) => ∀ S, l.hub.Offers c recvMids S →
      ∀ rm ∈ recvMids, ((l.hub.client c).peerID, rm.publisherPeerId, rm.isVideo) ∈ l.calls
  | _ => True

/-- `calls` are what a binding finds, and nobody leaves. -/
structure Inv (l : Logged) : Prop where
  recorded : l.hub.system.media.Recorded l.calls
  staying : l.hub.Staying

theorem Inv.step {l : Logged} (h : l.Inv) {op : HubOp} (hop : op.Stays) : (l.step op).Inv := by
  refine ⟨?_, h.staying.step hop⟩
  have hno := h.staying.rpc op
  simp only [Logged.step, Hub.media_step]
  cases ho : l.hub.rpc op with
  | none => exact h.recorded
  | some o => exact h.recorded.step o (hno o ho)

theorem Inv.bindsFound_iff {l : Logged} (h : l.Inv) (op : HubOp) :
    l.hub.BindsFound op ↔ l.CallsMade op := by
  cases op with
  | message c g frame =>
    cases frame with
    | offer sdp recvMids =>
      refine forall_congr' fun S => forall_congr' fun hS => ?_
      -- the bindings before it change no consumer a binding looks at
      have hbind (before : List RecvMid) (rm : RecvMid) := h.recorded.bind_ne_zero_iff
        (MediaServer.sameLinks_bindMids S before
          (l.hub.system.media.router, fun _ => none)).sameSubscribers
        (MediaServer.sameTransport_bindMids S before
          (l.hub.system.media.router, fun _ => none)).peerId
        hS.2.2 rm.publisherPeerId rm.isVideo rm.mid
      constructor
      · intro hfound rm hrm
        obtain ⟨before, after, he⟩ := List.append_of_mem hrm
        exact (hbind before rm).1 (hfound before rm after he)
      · intro hmade before rm after he
        obtain rfl := he
        exact (hbind before rm).2 (hmade rm (by simp))
    | _ => exact Iff.rfl
  | _ => exact Iff.rfl

/-- **A binding is found exactly when its consumer has been asked for.** -/
theorem bindsFound_iff_callsMade (ops : List HubOp) (hops : ∀ op ∈ ops, op.Stays) :
    Runs.Meets Hub.step Hub.BindsFound {} ops ↔ Runs.Meets step CallsMade {} ops := by
  have hhub : ∀ l op, (Logged.step l op).hub = l.hub.step op := fun _ _ => rfl
  rw [← Runs.meets_map (s := ({} : Logged)) hub hhub]
  exact Runs.meets_congr_of (fun _ _ hop h => Inv.step h hop) (fun _ op h => h.bindsFound_iff op)
    hops ⟨MediaServer.recorded_start, fun _ => ⟨rfl, trivial⟩⟩

/-! ## Two runs -/

/-- Maps in the order of their entries, and the number `n`. -/
def quietEnv (n : Nat) : HubEnv :=
  { n := Manager.intn n, info := {}, participants := .kept _ _, clients := .kept _ _
    draw := default }

/-- The room 100000 is made. -/
def roomMade : HubOp := .createRoom "" 0

/-- The first `steps` steps of the join of the client `c`, which draws `n`. -/
def joinOps (c : ClientRef) (n : Nat) (steps : Nat) : List HubOp :=
  .message c (fun _ _ v => (none, v)) (.join "100000" "") ::
    List.replicate steps (.advance c (quietEnv n))

/-- One client is in the room, the second has sent its `renegotiate` to the first. -/
def announced : List HubOp :=
  [.createRoom "" 0, .serveWS, .serveWS] ++ joinOps 0 1 14 ++ joinOps 1 2 9 ++
    [.writeMessage 0, .writeMessage 0]

/-- The offer of the first for the video of the second. -/
def offerSecond : HubOp :=
  .message 0 (fun _ _ v => (none, v)) (.offer "" [⟨"1", "peer_2", true⟩])

/-- The offer comes when the second has finished its join. -/
def lateOffer : List HubOp :=
  announced ++ List.replicate 8 (.advance 1 (quietEnv 2)) ++ [offerSecond]

theorem bindsFound_iff_callsMade_late :
    Runs.Meets Hub.step Hub.BindsFound {} lateOffer ↔ Runs.Meets step CallsMade {} lateOffer :=
  bindsFound_iff_callsMade lateOffer (by decide)

/-- The offer comes first: nothing is bound. -/
theorem offer_before_setup :
    ¬ Runs.Meets Hub.step Hub.BindsFound {} (announced ++ [offerSecond]) := by
  intro h
  have hoffers : (Runs.exec Hub.step {} announced).Offers 0 [⟨"1", "peer_2", true⟩] 0 := by
    refine ⟨by decide, ?_, by decide⟩
    intro rm hrm
    rw [List.mem_singleton.1 hrm]
    exact ⟨.renegotiate "peer_2" "", by decide, by decide⟩
  have hbound := (Runs.meets_append.1 h).2.1 0 hoffers [] _ [] rfl
  revert hbound
  decide

end Logged

end Namecon
