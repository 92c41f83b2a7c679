import Namecon.Signal.Meeting
import Namecon.Signal.Proof.Announcements
import Namecon.Signal.Proof.Ledger

/-!
# Who is present, for the one service and for the other

The signalling server keeps the participants of each room, the media server the registered peers.
`census_agrees`: in the runs in which one handler comes after the other and new ids are not taken,
whenever no handler is running, the registered peers are the participants of all rooms, no
participant is in two rooms, and a room that somebody has joined is kept as long as it has
participants.
-/

namespace Namecon

open Function (update)
open Manager (Ledger Present Resides)

/-! ## The two services -/

/-- The registered peers are the participants, but for the ids in `E`; and a room that somebody has
joined has participants, as long as it is in `m.rooms`, but for the rooms in `F`. -/
structure System.Level (s : System) (attended : List RoomRef) (E : String → Prop)
    (F : RoomRef → Prop) : Prop where
  ledger : s.manager.Ledger
  known : ∀ room ∈ attended, room < s.manager.nextRoom
  balanced : ∀ id, ¬ E id → (s.media.peers id ≠ none ↔ s.manager.Present id)
  recycled : ∀ room ∈ attended, ¬ F room → ∀ r, s.manager.rooms r = some room →
    ∃ id, id ∈ s.manager.keys room

/-- Nothing is pending. -/
def System.Settled (s : System) (attended : List RoomRef) : Prop :=
  s.Level attended (fun _ => False) (fun _ => False)

namespace System.Level

variable {s : System} {attended : List RoomRef} {E : String → Prop} {F : RoomRef → Prop}
  {room : RoomRef} {id roomId : String}

theorem media (h : s.Level attended E F) {m : MediaServer} (hm : m.peers = s.media.peers) :
    ({ s with media := m } : System).Level attended E F :=
  ⟨h.ledger, h.known, fun id hid => by rw [← h.balanced id hid, hm], h.recycled⟩

theorem mono (h : s.Level attended E F) {F' : RoomRef → Prop} (hF : ∀ room, F room → F' room) :
    s.Level attended E F' :=
  ⟨h.ledger, h.known, h.balanced,
    fun room hin hne => h.recycled room hin fun hf => hne (hF room hf)⟩

theorem addPeer (h : s.Settled attended) (info : ServerInfo) (id : String) :
    ({ s with media := (s.media.addPeer info id).1 } : System).Level attended (· = id)
      (fun _ => False) := by
  refine ⟨h.ledger, h.known, fun id' hid => ?_, h.recycled⟩
  rw [← h.balanced id' not_false]
  dsimp only
  rw [MediaServer.addPeer_peers, Function.update_of_ne hid]

theorem setParticipant (h : s.Level attended (· = id) (fun _ => False))
    (hroom : s.manager.rooms roomId = some room) (hid : s.media.peers id ≠ none)
    (hnew : ¬ s.manager.Present id) (p : Participant) :
    ({ s with manager := s.manager.setParticipant room id p } : System).Settled
      (room :: attended) := by
  refine ⟨h.ledger.setParticipant hroom hnew, fun room' hin => ?_, fun id' _ => ?_,
    fun room' hin _ r hr => ?_⟩
  · rcases List.mem_cons.1 hin with rfl | hin
    · exact h.ledger.refs roomId _ hroom
    · exact h.known room' hin
  · by_cases he : id' = id
    · subst he
      exact iff_of_true hid ⟨room, Manager.mem_keys_setParticipant.2 (.inr ⟨rfl, rfl⟩)⟩
    · dsimp only
      rw [h.balanced id' he]
      refine exists_congr fun room' => ?_
      rw [Manager.mem_keys_setParticipant, or_iff_left fun hand => he hand.2]
  · by_cases he : room' = room
    · exact ⟨id, Manager.mem_keys_setParticipant.2 (.inr ⟨he, rfl⟩)⟩
    · obtain ⟨id', hid'⟩ := h.recycled room' ((List.mem_cons.1 hin).resolve_left he) not_false r hr
      exact ⟨id', Manager.mem_keys_setParticipant.2 (.inl hid')⟩

/-- Once it is out of its room, a participant is in none. -/
theorem not_present_delete {m : Manager} (hroom : m.rooms roomId = some room)
    (hr : m.Resides roomId id) : ¬ (m.deleteParticipant room id).Present id := by
  intro h
  obtain ⟨room', hid⟩ := h
  obtain ⟨hid, hne⟩ := Manager.mem_keys_deleteParticipant.1 hid
  exact hne ⟨Option.some.inj ((hr room' hid).symm.trans hroom), rfl⟩

theorem deleteParticipant (h : s.Settled attended) :
    ({ s with manager := s.manager.deleteParticipant room id } : System).Level attended (· = id)
      (fun room' => room' = room ∧ (s.manager.deleteParticipant room id).keys room = []) := by
  refine ⟨h.ledger.deleteParticipant, h.known, fun id' hid => ?_, fun room' hin hne r hr => ?_⟩
  · dsimp only
    rw [h.balanced id' not_false]
    refine exists_congr fun room' => ?_
    rw [Manager.mem_keys_deleteParticipant, and_iff_left fun hand => hid hand.2]
  · by_cases he : room' = room
    · subst he
      exact List.exists_mem_of_ne_nil _ fun hnil => hne ⟨rfl, hnil⟩
    · obtain ⟨id', hid'⟩ := h.recycled room' hin not_false r hr
      exact ⟨id', Manager.mem_keys_deleteParticipant.2 ⟨hid', fun hand => he hand.1⟩⟩

theorem deleteRoom (h : s.Level attended E (· = room)) (hroom : s.manager.rooms roomId = some room)
    (hempty : s.manager.keys room = []) :
    ({ s with manager := s.manager.deleteRoom roomId } : System).Level attended E
      (fun _ => False) := by
  refine ⟨h.ledger.deleteRoom hroom hempty, h.known, h.balanced, fun room' hin _ r hr => ?_⟩
  obtain ⟨hne, hr⟩ := Manager.rooms_deleteRoom.1 hr
  refine h.recycled room' hin (fun he => hne ?_) r hr
  subst he
  exact h.ledger.inj r roomId room' hr hroom

theorem removePeer (h : s.Level attended (· = id) (fun _ => False)) (hid : ¬ s.manager.Present id) :
    ({ s with media := s.media.removePeer id } : System).Settled attended := by
  refine ⟨h.ledger, h.known, fun id' _ => ?_, h.recycled⟩
  by_cases he : id' = id
  · subst he
    exact iff_of_false (fun hne => hne (MediaServer.removePeer_peers_self _ _)) hid
  · dsimp only
    rw [MediaServer.removePeer_peers_ne he]
    exact h.balanced id' he

theorem createRoom (h : s.Settled attended) (name : String) {k : Fin 900000}
    (hnew : s.manager.rooms (Manager.drawRoomId k) = none) :
    ({ s with manager := (s.manager.createRoom name k).1 } : System).Settled attended := by
  refine ⟨h.ledger.createRoom name hnew, fun room hin => Nat.lt_succ_of_lt (h.known room hin),
    fun id hid => ?_, fun room hin _ r hr => ?_⟩
  · dsimp only
    rw [h.balanced id hid]
    exact exists_congr fun room => h.ledger.mem_keys_createRoom.symm
  · rcases Manager.rooms_createRoom.1 hr with ⟨-, rfl⟩ | ⟨-, hr⟩
    · exact absurd (h.known _ hin) (Nat.lt_irrefl _)
    · exact (h.recycled room hin not_false r hr).imp fun _ hid => h.ledger.mem_keys_createRoom.2 hid

end System.Level

/-! ## The client in a handler -/

/-- `AddParticipant` has found the room. -/
def ReadPump.IsAddPeer : ReadPump → Prop
  | .addPeer _ _ _ => True
  | _ => False

instance : DecidablePred ReadPump.IsAddPeer := fun pc => by
  unfold ReadPump.IsAddPeer
  split
  · exact .isTrue trivial
  · exact .isFalse id

/-- What the program counter of the busy client says of the two services; `K` are the ids that other
clients have. -/
def Client.Stands (s : System) (attended : List RoomRef) (K : String → Prop) (x : Client) : Prop :=
  match x.pc with
  | .addPeer roomId _ room => s.Settled attended ∧ s.manager.rooms roomId = some room
  | .insert room p => s.Level attended (· = p.id) (fun _ => False) ∧
    s.manager.rooms p.roomId = some room ∧ s.media.peers p.id ≠ none ∧ ¬ s.manager.Present p.id ∧
    ¬ K p.id
  | .setPeerID p | .setRoomID p => s.Settled attended ∧ s.manager.Resides p.roomId p.id
  | .delete room _ => s.Settled attended ∧ s.manager.Resides x.roomID x.peerID ∧
    s.manager.rooms x.roomID = some room
  | .deleteRoom _ => ∃ room, s.Level attended (· = x.peerID) (· = room) ∧
    ¬ s.manager.Present x.peerID ∧ s.manager.rooms x.roomID = some room ∧ s.manager.keys room = []
  | .removePeer _ => s.Level attended (· = x.peerID) (fun _ => False) ∧
    ¬ s.manager.Present x.peerID
  | _ => s.Settled attended ∧ s.manager.Resides x.roomID x.peerID

theorem Client.stands_idle {s : System} {attended : List RoomRef} {K : String → Prop} {x : Client}
    (hi : x.pc.Idle) :
    x.Stands s attended K ↔ s.Settled attended ∧ s.manager.Resides x.roomID x.peerID := by
  unfold Stands
  cases hpc : x.pc with
  | readMessage => exact Iff.rfl
  | ended => exact Iff.rfl
  | _ =>
    have hbusy : ¬ x.pc.Idle := by rw [hpc]; exact id
    exact absurd hi hbusy

theorem Client.Stands.congr {s : System} {attended : List RoomRef} {K : String → Prop}
    {x x' : Client} (h : x.Stands s attended K) (hpc : x'.pc = x.pc) (hr : x'.roomID = x.roomID)
    (hp : x'.peerID = x.peerID) : x'.Stands s attended K := by
  unfold Stands at h ⊢
  rw [hpc, hr, hp]
  exact h

theorem Client.Stands.media {s : System} {attended : List RoomRef} {K : String → Prop} {x : Client}
    (h : x.Stands s attended K) {m : MediaServer} (hm : m.peers = s.media.peers) :
    x.Stands { s with media := m } attended K := by
  unfold Stands at h ⊢
  split at h
  · exact ⟨h.1.media hm, h.2⟩
  · exact ⟨h.1.media hm, h.2.1, by rw [hm]; exact h.2.2.1, h.2.2.2⟩
  · exact ⟨h.1.media hm, h.2⟩
  · exact ⟨h.1.media hm, h.2⟩
  · exact ⟨h.1.media hm, h.2⟩
  · exact h.imp fun room hr => ⟨hr.1.media hm, hr.2⟩
  · exact ⟨h.1.media hm, h.2⟩
  · exact ⟨h.1.media hm, h.2⟩

theorem Client.stands_handleLeave {s : System} {attended : List RoomRef} {K : String → Prop}
    {x : Client} (h : s.Settled attended ∧ s.manager.Resides x.roomID x.peerID) (last : Bool) :
    ({ x with pc := x.handleLeave last } : Client).Stands s attended K := by
  rcases x.handleLeave_cases last with he | he <;> (rw [he]; exact h)

namespace Hub

variable {h h' : Hub} {op : HubOp} {c t : ClientRef} {x x' : Client} {s' : System}
  {attended : List RoomRef} {K : String → Prop}

/-- The room in which the step makes a participant. -/
def joins (h : Hub) : HubOp → Option RoomRef
  | .advance c _ => match (h.client c).pc with
    | .insert room _ => if h.roomHeld room then none else some room
    | _ => none
  | _ => none

/-- `CreateRoom` and `AddParticipant` draw ids that are not taken. -/
def FreshIds (h : Hub) : HubOp → Prop
  | .createRoom _ k => h.system.manager.rooms (Manager.drawRoomId k) = none
  | .advance c env => (h.client c).pc.IsAddPeer →
    h.system.media.peers (Manager.drawPeerId env.n) = none ∧
      ∀ t < h.nextClient, (h.client t).peerID ≠ Manager.drawPeerId env.n
  | _ => True

instance (h : Hub) (op : HubOp) : Decidable (h.FreshIds op) :=
  match op with
  | .createRoom _ k =>
    inferInstanceAs (Decidable (h.system.manager.rooms (Manager.drawRoomId k) = none))
  | .advance c env => inferInstanceAs (Decidable ((h.client c).pc.IsAddPeer →
      h.system.media.peers (Manager.drawPeerId env.n) = none ∧
        ∀ t < h.nextClient, (h.client t).peerID ≠ Manager.drawPeerId env.n))
  | .serveWS | .message _ _ _ | .hangUp _ | .writeMessage _ | .packet _ _ _ => .isTrue trivial

/-- Another client than `c` has this id. -/
def Claimed (h : Hub) (c : ClientRef) (id : String) : Prop := ∃ t, t ≠ c ∧ (h.client t).peerID = id

theorem Act.stands (ha : Act h c (h.client c) op x' s') (hm : h.Mailboxes) (ho : h.FreshIds op)
    (hne : ∀ room p, (h.client c).pc ≠ .insert room p)
    (hx : (h.client c).Stands h.system attended (h.Claimed c)) :
    x'.Stands s' attended (h.Claimed c) := by
  have hstage := hm.toStaged.stage c
  unfold Client.Stage at hstage
  unfold Client.Stands at hx
  cases ha with
  | answer hpc _ hm => rw [hpc] at hx; exact ⟨hx.1.media hm, hx.2⟩
  | join hpc hroom => rw [hpc] at hx; exact ⟨hx.1, hroom⟩
  | leave hpc => rw [hpc] at hx; exact Client.stands_handleLeave hx false
  | hangUp hpc => rw [hpc] at hx; exact Client.stands_handleLeave hx true
  | @addPeer env roomId username room hpc =>
    rw [hpc] at hx
    obtain ⟨hnew, hids⟩ := ho (by rw [hpc]; trivial)
    refine ⟨.addPeer hx.1 env.info _, hx.2, ?_, ?_, ?_⟩
    · dsimp only [Participant.ofPeer]
      rw [MediaServer.addPeer_peers, Function.update_self]
      exact Option.some_ne_none _
    · rw [← hx.1.balanced _ not_false]
      exact fun hne => hne hnew
    · intro h
      obtain ⟨t, -, he⟩ := h
      by_cases ht : t < h.nextClient
      · exact hids t ht he
      · rw [hm.unborn t (Nat.not_lt.1 ht)] at he
        exact Manager.drawPeerId_ne_empty _ he.symm
  | insert hpc => exact absurd hpc (hne _ _)
  | setPeerID hpc => rw [hpc] at hx; exact hx
  | setRoomID hpc =>
    rw [hpc] at hx hstage
    exact ⟨hx.1, by rw [hstage.2]; exact hx.2⟩
  | joined hpc =>
    rw [hpc] at hx
    exact ⟨hx.1, by rw [Client.push_roomID, Client.push_peerID]; exact hx.2⟩
  | reply hpc =>
    rw [hpc] at hx
    exact ⟨hx.1, by rw [Client.push_roomID, Client.push_peerID]; exact hx.2⟩
  | panic hpc =>
    rcases hpc with ⟨_, _, hpc⟩ | ⟨_, hpc⟩ <;>
      (rw [hpc] at hx; exact Client.stands_handleLeave hx true)
  | sendPanic hpc _ _ hclosed =>
    rw [hm.visited_open hpc] at hclosed
    cases hclosed
  | sent hpc =>
    rw [hpc] at hx
    obtain ⟨-, -, ⟨_, -, rfl⟩ | ⟨_, -, rfl⟩⟩ := hm.toStaged.broadcast hpc <;> exact hx
  | setupConsumers hpc hnext => rw [hpc] at hx; obtain rfl | ⟨_, rfl⟩ := hnext <;> exact hx
  | addConsumer hpc hm hnext =>
    rw [hpc] at hx
    rcases hnext with rfl | ⟨_, rfl⟩ <;> exact ⟨hx.1.media hm, hx.2⟩
  | getRoom hpc hroom => rw [hpc] at hx; exact ⟨hx.1, hx.2, hroom⟩
  | @delete env room last hpc =>
    rw [hpc] at hx
    obtain ⟨hsettled, hres, hroom⟩ := hx
    have hout := System.Level.not_present_delete hroom hres
    have hlevel := @System.Level.deleteParticipant _ _ room (h.client c).peerID hsettled
    split
    · rename_i hempty
      have hnil := Manager.keys_eq_nil.2 (List.isEmpty_iff.1 hempty)
      exact ⟨room, hlevel.mono (fun _ hand => hand.1), hout, hroom, hnil⟩
    · rename_i hfull
      refine ⟨hlevel.mono fun _ hand => hfull ?_, hout⟩
      exact List.isEmpty_iff.2 (Manager.keys_eq_nil.1 hand.2)
  | deleteRoom hpc =>
    rw [hpc] at hx
    obtain ⟨room, hlevel, hout, hroom, hempty⟩ := hx
    exact ⟨hlevel.deleteRoom hroom hempty, hout⟩
  | removePeer hpc =>
    rw [hpc] at hx
    exact ⟨hx.1.removePeer hx.2, fun room hid => absurd ⟨room, hid⟩ hx.2⟩
  | closeSend hpc => rw [hpc] at hx; cases ‹Bool› <;> exact hx
  | _ hpc => rw [hpc] at hx; exact hx

/-- The other clients, whose participants stay where they are. -/
theorem Act.resides (ha : Act h c (h.client c) op x' s')
    (hx : (h.client c).Stands h.system attended (h.Claimed c)) (ht : t ≠ c)
    (hres : h.system.manager.Resides (h.client t).roomID (h.client t).peerID) :
    s'.manager.Resides (h.client t).roomID (h.client t).peerID := by
  unfold Client.Stands at hx
  cases ha with
  | insert hpc =>
    rw [hpc] at hx
    exact hres.setParticipant fun he => hx.2.2.2.2 ⟨t, ht, he⟩
  | delete => exact hres.deleteParticipant
  | deleteRoom hpc =>
    rw [hpc] at hx
    obtain ⟨room, -, -, hroom, hempty⟩ := hx
    exact hres.deleteRoom hroom hempty
  | _ => exact hres

end Hub

/-! ## Runs -/

/-- A hub, and the rooms in which a join has succeeded. -/
structure Attended where
  hub : Hub := {}
  rooms : List RoomRef := []

namespace Attended

open Hub

variable {l : Attended} {op : HubOp} {c t : ClientRef}

/-- A step of the hub, and the room that a join which begins there has named. -/
def step (l : Attended) (op : HubOp) : Attended :=
  { hub := l.hub.step op, rooms := (l.hub.joins op).toList ++ l.rooms }

/-- One event after the other, with new ids. -/
def Orderly (l : Attended) (op : HubOp) : Prop := l.hub.InTurn op ∧ l.hub.FreshIds op

instance (l : Attended) (op : HubOp) : Decidable (Orderly l op) :=
  inferInstanceAs (Decidable (_ ∧ _))

/-- At most `c` is in a handler. -/
structure Census (l : Attended) (c : ClientRef) : Prop extends Mailboxes l.hub where
  busy : l.hub.OneBusy c
  others : ∀ t, t ≠ c →
    l.hub.system.manager.Resides (l.hub.client t).roomID (l.hub.client t).peerID
  stands : (l.hub.client c).Stands l.hub.system l.rooms (l.hub.Claimed c)

theorem Census.refocus (hc : Census l c) (hi : l.hub.Idle) (t : ClientRef) : Census l t := by
  have hstands := (Client.stands_idle (hi.all hc.toStaged c)).1 hc.stands
  have hall : ∀ u, l.hub.system.manager.Resides (l.hub.client u).roomID (l.hub.client u).peerID :=
    fun u => by
      by_cases hu : u = c
      · rw [hu]
        exact hstands.2
      · exact hc.others u hu
  exact ⟨hc.toMailboxes, hi.oneBusy hc.toStaged t, fun u _ => hall u,
    (Client.stands_idle (hi.all hc.toStaged t)).2 ⟨hstands.1, hall t⟩⟩

theorem Census.joins (hc : Census l c)
    (hne : ∀ env room p, op = .advance c env → (l.hub.client c).pc ≠ .insert room p) :
    l.hub.joins op = none := by
  cases op with
  | advance u env =>
    simp only [Hub.joins]
    split
    · rename_i room p hpc
      by_cases hu : u = c
      · subst hu
        exact absurd hpc (hne env room p rfl)
      · have hidle := hc.busy u hu
        rw [hpc] at hidle
        exact hidle.elim
    · rfl
  | _ => rfl

/-- The step in which `AddParticipant` puts the participant into the room. -/
theorem Census.insert (hc : Census l c) {room : RoomRef} {p : Participant}
    (hpc : (l.hub.client c).pc = .insert room p) (env : HubEnv) :
    Census (l.step (.advance c env)) c := by
  have hfree := hc.busy.roomHeld (by rw [hpc]; nofun) room
  have hjoins : l.hub.joins (.advance c env) = some room := by
    simp only [Hub.joins, hpc, hfree, Bool.false_eq_true, if_false]
  have hstep : l.hub.step (.advance c env) =
      (l.hub.setManager (l.hub.system.manager.setParticipant room p.id p)).goto c
        (.setPeerID p) := by
    simp only [Hub.step, advance, hpc, hfree, Bool.false_eq_true, if_false]
  have hstands := hc.stands
  unfold Client.Stands at hstands
  rw [hpc] at hstands
  obtain ⟨hlevel, hroom, hreg, hout, hfresh⟩ := hstands
  refine ⟨hc.toMailboxes.step (.advance c env), hc.busy.step ⟨env, rfl⟩, fun t ht => ?_, ?_⟩
  · have hclient : (l.hub.step (.advance c env)).client t = l.hub.client t := by
      rw [hstep]
      exact Function.update_of_ne ht _ _
    simp only [Attended.step, hclient]
    rw [hstep]
    exact (hc.others t ht).setParticipant fun he => hfresh ⟨t, ht, he⟩
  · simp only [Attended.step, hjoins, hstep]
    unfold Client.Stands
    rw [goto_client]
    refine ⟨hlevel.setParticipant hroom hreg hout p, fun room' hid => ?_⟩
    rcases Manager.mem_keys_setParticipant.1 hid with hid | ⟨rfl, -⟩
    · exact absurd ⟨room', hid⟩ hout
    · exact hroom

/-- A step of another kind, after which every client has the ids it had. -/
theorem Census.frame (hc : Census l c) {h' : Hub} (hm : h'.Mailboxes) (hbusy : h'.OneBusy c)
    (hids : ∀ t, (h'.client t).roomID = (l.hub.client t).roomID ∧
      (h'.client t).peerID = (l.hub.client t).peerID)
    (hres : ∀ r id, l.hub.system.manager.Resides r id → h'.system.manager.Resides r id)
    (hstands : (h'.client c).Stands h'.system l.rooms (l.hub.Claimed c)) :
    Census ⟨h', l.rooms⟩ c := by
  refine ⟨hm, hbusy, fun t ht => ?_, ?_⟩
  · dsimp only
    rw [(hids t).1, (hids t).2]
    exact hres _ _ (hc.others t ht)
  · have hclaimed : h'.Claimed c = l.hub.Claimed c := by
      funext id
      simp only [Hub.Claimed, hids]
    dsimp only
    rw [hclaimed]
    exact hstands

theorem Census.createRoom (hc : Census l c) {name : String} {k : Fin 900000}
    (ho : Orderly l (.createRoom name k)) {s : System}
    (hs : s = { l.hub.system with manager := (l.hub.system.manager.createRoom name k).1 })
    (hm : ({ l.hub with system := s } : Hub).Mailboxes) :
    Census ⟨{ l.hub with system := s }, l.rooms⟩ c := by
  have hidle := Idle.all ho.1 hc.toStaged c
  obtain ⟨hsettled, hres⟩ := (Client.stands_idle hidle).1 hc.stands
  refine hc.frame hm hc.busy (fun _ => ⟨rfl, rfl⟩) (fun r id hr => ?_)
    ((Client.stands_idle hidle).2 ?_)
  · subst hs
    exact hr.createRoom hsettled.ledger name ho.2
  · subst hs
    exact ⟨.createRoom hsettled name ho.2, hres.createRoom hsettled.ledger name ho.2⟩

theorem Census.act (hc : Census l c) {x : Client} {s : System}
    (ha : Act l.hub c (l.hub.client c) op x s) (ho : Orderly l op)
    (hne : ∀ room p, (l.hub.client c).pc ≠ .insert room p)
    (hm : ({ l.hub with system := s, client := update l.hub.client c x } : Hub).Mailboxes) :
    Census ⟨{ l.hub with system := s, client := update l.hub.client c x }, l.rooms⟩ c := by
  have hother : ∀ t, t ≠ c → update l.hub.client c x t = l.hub.client t := fun t ht =>
    Function.update_of_ne ht _ _
  refine ⟨hm, fun t ht => ?_, fun t ht => ?_, ?_⟩
  · dsimp only
    rw [hother t ht]
    exact hc.busy t ht
  · dsimp only
    rw [hother t ht]
    exact ha.resides hc.stands ht (hc.others t ht)
  · have hclaimed : Hub.Claimed { l.hub with system := s, client := update l.hub.client c x } c =
        l.hub.Claimed c := by
      funext id
      refine propext (exists_congr fun t => and_congr_right fun ht => ?_)
      dsimp only
      rw [hother t ht]
    rw [hclaimed]
    dsimp only
    rw [Function.update_self]
    exact ha.stands hc.toMailboxes ho.2 hne hc.stands

theorem Census.serveWS (hc : Census l c)
    (hm : ({ l.hub with
      clients := ListFacts.setKey l.hub.clients l.hub.nextClient true
      client := update l.hub.client l.hub.nextClient { pc := .readMessage }
      nextClient := l.hub.nextClient + 1 } : Hub).Mailboxes) :
    Census ⟨{ l.hub with
      clients := ListFacts.setKey l.hub.clients l.hub.nextClient true
      client := update l.hub.client l.hub.nextClient { pc := .readMessage }
      nextClient := l.hub.nextClient + 1 }, l.rooms⟩ c := by
  have hborn : l.hub.client l.hub.nextClient = {} := hc.unborn _ le_rfl
  refine hc.frame hm (fun t ht => ?_) (fun t => ?_) (fun _ _ hr => hr) ?_
  · by_cases hn : t = l.hub.nextClient
    · subst hn
      simp only [Function.update_self]
      trivial
    · simp only [Function.update_of_ne hn]
      exact hc.busy t ht
  · by_cases hn : t = l.hub.nextClient
    · subst hn
      simp only [Function.update_self, hborn, and_self]
    · simp only [Function.update_of_ne hn, and_self]
  · by_cases hn : c = l.hub.nextClient
    · subst hn
      have hstands := hc.stands
      rw [hborn] at hstands
      simp only [Function.update_self]
      exact hstands
    · simp only [Function.update_of_ne hn]
      exact hc.stands

theorem Census.step (hc : Census l c) (ho : Orderly l op) : ∃ c', Census (l.step op) c' := by
  by_cases hins : ∃ env room p, op = .advance c env ∧ (l.hub.client c).pc = .insert room p
  · obtain ⟨env, room, p, rfl, hpc⟩ := hins
    exact ⟨c, hc.insert hpc env⟩
  · have hnone := hc.joins fun env room p he hpc => hins ⟨env, room, p, he, hpc⟩
    have hm' := hc.toMailboxes.step op
    have hmoves := l.hub.moves op
    simp only [Attended.step, hnone, Option.toList_none, List.nil_append]
    generalize l.hub.step op = h' at hm' hmoves
    cases hmoves with
    | stay => exact ⟨c, hc⟩
    | createRoom hsys => exact ⟨c, hc.createRoom ho hsys hm'⟩
    | packet m hm =>
      exact ⟨c, hc.frame hm' hc.busy (fun _ => ⟨rfl, rfl⟩) (fun _ _ hr => hr) (hc.stands.media hm)⟩
    | serveWS => exact ⟨c, hc.serveWS hm'⟩
    | @write u msg rest hsend =>
      have hsame := Client.follows_update (f := l.hub.client) (Client.follows_write hsend)
      refine ⟨c, hc.frame hm' (fun t ht => ?_) (fun t => ⟨(hsame t).roomID, (hsame t).peerID⟩)
        (fun _ _ hr => hr) (hc.stands.congr (hsame c).pc (hsame c).roomID (hsame c).peerID)⟩
      dsimp only
      rw [(hsame t).pc]
      exact hc.busy t ht
    | @act _ u x s ha =>
      have hpc : ∀ room p, (l.hub.client u).pc ≠ .insert room p := fun room p hpc => by
        have hbusy : ¬ (l.hub.client u).pc.Idle := by rw [hpc]; exact id
        obtain ⟨env, rfl⟩ := ha.advance hbusy
        have hu := hc.busy.eq_of_busy hbusy
        exact hins ⟨env, room, p, by rw [hu], hu ▸ hpc⟩
      rcases ha.busy hc.busy ho.1 with rfl | hi
      · exact ⟨u, hc.act ha ho hpc hm'⟩
      · exact ⟨u, (hc.refocus hi u).act ha ho hpc hm'⟩
    | @visit u env roomId msg t todo next hpc hroom hne hopen =>
      obtain rfl := hc.busy.eq_of_busy (t := u) (by rw [hpc]; exact id)
      have hpushed := Client.follows_update (f := l.hub.client) ((l.hub.client t).follows_push msg)
      refine ⟨u, hc.frame hm' (fun v hv => ?_) (fun v => ?_) (fun _ _ hr => hr) ?_⟩
      · simp only [Function.update_of_ne hv, (hpushed v).pc]
        exact hc.busy v hv
      · by_cases hv : v = u
        · subst hv
          simp only [Function.update_self, and_self]
        · simp only [Function.update_of_ne hv, (hpushed v).roomID, (hpushed v).peerID, and_self]
      · have hstands := hc.stands
        unfold Client.Stands at hstands
        rw [hpc] at hstands
        simp only [Function.update_self]
        exact hstands
    | @unregister u env last hpc hfree =>
      obtain rfl := hc.busy.eq_of_busy (t := u) (by rw [hpc]; exact id)
      refine ⟨u, hc.frame hm' (fun v hv => ?_) (fun v => ?_) (fun _ _ hr => hr) ?_⟩
      · simp only [goto, modifyClient_ne hv]
        exact hc.busy v hv
      · by_cases hv : v = u
        · subst hv
          simp only [goto_client, and_self]
        · simp only [goto, modifyClient_ne hv, and_self]
      · have hstands := hc.stands
        unfold Client.Stands at hstands
        rw [hpc] at hstands
        rw [goto_client]
        exact hstands

/-! ## What a run comes to -/

/-- The two services agree on who is present. -/
structure Agree (l : Attended) : Prop where
  registered : ∀ id, l.hub.system.media.peers id ≠ none ↔ ∃ r, id ∈ l.hub.system.present r
  disjoint : ∀ r r' id, id ∈ l.hub.system.present r → id ∈ l.hub.system.present r' → r = r'
  recycled : ∀ room ∈ l.rooms, (∃ r, l.hub.system.manager.rooms r = some room) ↔
    (l.hub.system.manager.heap room).participants ≠ []

theorem mem_present {s : System} {r id : String} :
    id ∈ s.present r ↔ ∃ room, s.manager.rooms r = some room ∧ id ∈ s.manager.keys room := by
  unfold System.present
  cases hr : s.manager.rooms r with
  | none =>
    rw [System.participants_none hr]
    exact iff_of_false List.not_mem_nil fun ⟨_, hroom, _⟩ => by cases hroom
  | some room =>
    rw [System.participants_some hr]
    exact ⟨fun hid => ⟨room, rfl, hid⟩, fun ⟨_, hroom, hid⟩ => Option.some.inj hroom ▸ hid⟩

theorem Census.agree (hc : Census l c) (hi : l.hub.Idle) : Agree l := by
  obtain ⟨hsettled, -⟩ := (Client.stands_idle (hi.all hc.toStaged c)).1 hc.stands
  have hledger := hsettled.ledger
  refine ⟨fun id => ?_, fun r r' id hid hid' => ?_, fun room hroom => ?_⟩
  · rw [hsettled.balanced id not_false]
    constructor
    · intro h
      obtain ⟨room, hid⟩ := h
      exact (hledger.located room id hid).imp fun r hr => mem_present.2 ⟨room, hr, hid⟩
    · intro h
      obtain ⟨r, hid⟩ := h
      obtain ⟨room, -, hid⟩ := mem_present.1 hid
      exact ⟨room, hid⟩
  · obtain ⟨room, hr, hid⟩ := mem_present.1 hid
    obtain ⟨room', hr', hid'⟩ := mem_present.1 hid'
    obtain rfl := hledger.unique room room' id hid hid'
    exact hledger.inj r r' room hr hr'
  · rw [← Manager.exists_mem_keys]
    constructor
    · intro h
      obtain ⟨r, hr⟩ := h
      exact hsettled.recycled room hroom not_false r hr
    · intro h
      obtain ⟨id, hid⟩ := h
      exact hledger.located room id hid

theorem census_start : Census {} 0 where
  toMailboxes := mailboxes_start
  busy _ _ := trivial
  others _ _ room hid := by cases hid
  stands := by
    refine ⟨⟨Manager.ledger_start, fun _ hin => (by cases hin), fun id _ => ?_,
      fun _ hin => (by cases hin)⟩, fun room hid => (by cases hid)⟩
    exact iff_of_false (fun hne => hne rfl) fun ⟨room, hid⟩ => by cases hid

/-- **The two services agree**: after every event of a run in which one comes after the other, the
registered peers are the participants of all rooms, no participant is in two rooms, and a room that
somebody has joined is in `m.rooms` as long as it has participants. And every handler returns. -/
theorem census_agrees (ops : List HubOp) (hops : Runs.Meets step Orderly {} ops) :
    Runs.Always step (fun l => l.hub.Idle → Agree l) {} ops ∧
      Runs.Always step (fun l => ∃ c, ∀ envs : ℕ → HubEnv, ∃ n,
        (Runs.exec Hub.step l.hub ((List.range n).map fun i => .advance c (envs i))).Idle)
        {} ops := by
  have hinv := Runs.always_of_inv (I := fun l => ∃ c, Census l c)
    (fun l op ⟨_, hc⟩ ho => hc.step ho) ⟨0, census_start⟩ hops
  exact ⟨hinv.mono fun l ⟨_, hc⟩ hi => hc.agree hi,
    hinv.mono fun l ⟨c, hc⟩ => ⟨c, hc.busy.returns hc.toStaged⟩⟩

/-- A client joins twice, leaves, and hangs up. -/
def comeAndGo : List HubOp :=
  let join : HubOp := .message 0 (fun _ _ v => (none, v)) (.join "100000" "")
  let leave : HubOp := .message 0 (fun _ _ v => (none, v)) .leave
  [Logged.roomMade, .serveWS, join] ++ List.replicate 13 (.advance 0 (Logged.quietEnv 1)) ++
    join :: List.replicate 17 (.advance 0 (Logged.quietEnv 2)) ++
    leave :: List.replicate 9 (.advance 0 (Logged.quietEnv 0)) ++
    .hangUp 0 :: List.replicate 9 (.advance 0 (Logged.quietEnv 0))

theorem census_agrees_comeAndGo :
    Runs.Always step (fun l => l.hub.Idle → Agree l) {} comeAndGo ∧
      Runs.Always step (fun l => ∃ c, ∀ envs : ℕ → HubEnv, ∃ n,
        (Runs.exec Hub.step l.hub ((List.range n).map fun i => .advance c (envs i))).Idle)
        {} comeAndGo :=
  census_agrees comeAndGo (by decide)

end Attended

end Namecon
