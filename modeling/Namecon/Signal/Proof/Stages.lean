import Namecon.Signal.Proof.Moves

/-!
# Where a client is in its handler

`Client.Stage` says what the program counter of a client tells about its fields, and `Hub.Staged`
that it holds of every client of every reachable hub: no goroutine writes the fields of another.
-/

namespace Namecon

open Function (update)
open ListFacts (setKey eraseKey)

/-! ## Ids are not empty -/

theorem Manager.drawRoomId_ne_empty (k : Fin 900000) : Manager.drawRoomId k ≠ "" := by
  unfold Manager.drawRoomId
  generalize k.val + 100000 = n
  exact Nat.repr_ne_empty

theorem Manager.drawPeerId_ne_empty (n : Fin 99999) : Manager.drawPeerId n ≠ "" := by
  unfold Manager.drawPeerId
  generalize toString n.val = s
  intro h
  exact absurd (String.append_eq_empty_iff.1 h).1 (by decide)

/-- The empty string is the id of no room. -/
def Manager.NoBlankRoom (m : Manager) : Prop := m.rooms "" = none

theorem Manager.NoBlankRoom.ne {m : Manager} (h : m.NoBlankRoom) {roomId : String} {room : RoomRef}
    (hr : m.rooms roomId = some room) : roomId ≠ "" := by
  intro he
  obtain rfl := he
  rw [h] at hr
  cases hr

theorem Manager.NoBlankRoom.createRoom {m : Manager} (h : m.NoBlankRoom) (name : String)
    (k : Fin 900000) : (m.createRoom name k).1.NoBlankRoom := by
  have hne := Manager.drawRoomId_ne_empty k
  unfold Manager.NoBlankRoom Manager.createRoom
  generalize Manager.drawRoomId k = roomId at hne ⊢
  simp only [Function.update_of_ne (Ne.symm hne)]
  exact h

theorem Manager.NoBlankRoom.deleteRoom {m : Manager} (h : m.NoBlankRoom) (roomId : String) :
    (m.deleteRoom roomId).NoBlankRoom := by
  unfold Manager.NoBlankRoom Manager.deleteRoom
  by_cases he : "" = roomId
  · rw [he]
    exact Function.update_self _ _ _
  · exact (Function.update_of_ne he _ _).trans h

/-! ## Stages -/

/-- A participant with an id, in a room with an id. -/
def Participant.Named (p : Participant) : Prop := p.id ≠ "" ∧ p.roomId ≠ ""

/-- What the program counter of a client says of its fields. -/
def Client.Stage (x : Client) : Prop :=
  match x.pc with
  | .addPeer roomId _ _ => roomId ≠ ""
  | .insert _ p | .setPeerID p => p.Named
  | .setRoomID p => p.Named ∧ x.peerID = p.id
  | .setUsername p | .scan p | .joined p _ | .renegotiate p =>
    p.Named ∧ x.peerID = p.id ∧ x.roomID = p.roomId
  | .broadcast roomId msg _ next => x.roomID = roomId ∧ x.roomID ≠ "" ∧
    ((∃ username, msg = .renegotiate x.peerID username ∧ next = .setupConsumers roomId) ∨
      ∃ last, msg = .peerLeft x.peerID ∧ next = .unregister last)
  | .getRoom _ | .delete _ _ | .deleteRoom _ | .removePeer _ | .peerLeft _ =>
    x.roomID ≠ "" ∧ x.peerID ≠ ""
  | .reply msg => msg.IsReply
  | _ => True

theorem Client.stage_handleLeave (x : Client) (last : Bool) :
    ({ x with pc := x.handleLeave last } : Client).Stage := by
  unfold Client.handleLeave
  split
  · rename_i h
    exact h
  · trivial

theorem Client.stage_afterLeave (x : Client) (last : Bool) :
    ({ x with pc := .afterLeave last } : Client).Stage := by
  cases last <;> trivial

theorem Client.stage_ite {x : Client} {b : Prop} [Decidable b] {pc pc' : ReadPump}
    (h : ({ x with pc } : Client).Stage) (h' : ({ x with pc := pc' } : Client).Stage) :
    ({ x with pc := if b then pc else pc' } : Client).Stage := by
  split
  · exact h
  · exact h'

/-- The client has what the stage of its handler needs. -/
structure Client.Placed (x : Client) : Prop where
  /-- The room is set after the id. -/
  named : x.roomID ≠ "" → x.peerID ≠ ""
  stage : x.Stage

theorem Client.Placed.congr {x x' : Client} (h : x.Placed) (hpc : x'.pc = x.pc)
    (hp : x'.peerID = x.peerID) (hr : x'.roomID = x.roomID) : x'.Placed := by
  refine ⟨?_, ?_⟩
  · rw [hp, hr]
    exact h.named
  · have hstage := h.stage
    unfold Client.Stage at hstage ⊢
    rw [hpc, hp, hr]
    exact hstage

namespace Hub

variable {h h' : Hub} {op : HubOp}

theorem Act.noBlankRoom {c : ClientRef} {x x' : Client} {s' : System} (ha : Act h c x op x' s')
    (hn : h.system.manager.NoBlankRoom) : s'.manager.NoBlankRoom := by
  cases ha with
  | deleteRoom => exact hn.deleteRoom _
  | _ => exact hn

/-- A goroutine that is not in a handler is at `readMessage`, and one in a handler has not ended. -/
theorem Act.not_ended {c : ClientRef} {x x' : Client} {s' : System} (ha : Act h c x op x' s') :
    x.pc ≠ .ended := by
  cases ha with
  | panic hpc => rcases hpc with ⟨_, _, hpc⟩ | ⟨_, hpc⟩ <;> rw [hpc] <;> nofun
  | _ hpc => rw [hpc]; nofun

theorem Act.named {c : ClientRef} {x x' : Client} {s' : System} (ha : Act h c x op x' s')
    (hs : x.Stage) (hn : x.roomID ≠ "" → x.peerID ≠ "") : x'.roomID ≠ "" → x'.peerID ≠ "" := by
  cases ha with
  | setPeerID hpc => unfold Client.Stage at hs; rw [hpc] at hs; exact fun _ => hs.1
  | setRoomID hpc =>
    unfold Client.Stage at hs
    rw [hpc] at hs
    exact fun _ => by rw [hs.2]; exact hs.1.1
  | joined => rw [Client.push_peerID, Client.push_roomID]; exact hn
  | reply => rw [Client.push_peerID, Client.push_roomID]; exact hn
  | _ => exact hn

theorem Act.stage {c : ClientRef} {x x' : Client} {s' : System} (ha : Act h c x op x' s')
    (hs : x.Stage) (hb : h.system.manager.NoBlankRoom) : x'.Stage := by
  unfold Client.Stage at hs
  cases ha with
  | answer _ hmsg => exact hmsg
  | join hpc hroom => exact hb.ne hroom
  | leave => exact x.stage_handleLeave false
  | hangUp => exact x.stage_handleLeave true
  | panic => exact x.stage_handleLeave true
  | addPeer hpc => rw [hpc] at hs; exact ⟨Manager.drawPeerId_ne_empty _, hs⟩
  | insert hpc => rw [hpc] at hs; exact hs
  | setPeerID hpc => rw [hpc] at hs; exact ⟨hs, rfl⟩
  | setRoomID hpc => rw [hpc] at hs; exact ⟨hs.1, hs.2, rfl⟩
  | setUsername hpc => rw [hpc] at hs; exact hs
  | scan hpc => rw [hpc] at hs; exact hs
  | joined hpc =>
    rw [hpc] at hs
    exact ⟨hs.1, (x.push_peerID _).trans hs.2.1, (x.push_roomID _).trans hs.2.2⟩
  | renegotiate hpc =>
    rw [hpc] at hs
    exact ⟨hs.2.2, by rw [hs.2.2]; exact hs.1.2, .inl ⟨_, by rw [hs.2.1], rfl⟩⟩
  | skip hpc => rw [hpc] at hs; exact hs
  | sendPanic hpc =>
    rw [hpc] at hs
    obtain ⟨-, -, ⟨_, -, rfl⟩ | ⟨last, -, rfl⟩⟩ := hs
    · exact x.stage_handleLeave true
    · exact x.stage_afterLeave last
  | sent hpc =>
    rw [hpc] at hs
    obtain ⟨-, -, ⟨_, -, rfl⟩ | ⟨_, -, rfl⟩⟩ := hs <;> trivial
  | setupConsumers hpc hnext => rcases hnext with rfl | ⟨_, rfl⟩ <;> trivial
  | addConsumer hpc hm hnext => rcases hnext with rfl | ⟨_, rfl⟩ <;> trivial
  | noRoom hpc => rw [hpc] at hs; exact hs
  | getRoom hpc => rw [hpc] at hs; exact hs
  | delete hpc => rw [hpc] at hs; exact Client.stage_ite hs hs
  | deleteRoom hpc => rw [hpc] at hs; exact hs
  | removePeer hpc => rw [hpc] at hs; exact hs
  | peerLeft hpc => rw [hpc] at hs; exact ⟨rfl, hs.1, .inr ⟨_, rfl, rfl⟩⟩
  | closeSend => exact Client.stage_afterLeave _ _
  | _ => trivial

theorem Act.placed {c : ClientRef} {x x' : Client} {s' : System} (ha : Act h c x op x' s')
    (hx : x.Placed) (hb : h.system.manager.NoBlankRoom) : x'.Placed :=
  ⟨ha.named hx.stage hx.named, ha.stage hx.stage hb⟩

/-! ## Runs -/

/-- Every client is placed, those to come are blank, and no room has the empty id. -/
structure Staged (h : Hub) : Prop where
  noBlankRoom : h.system.manager.NoBlankRoom
  unborn : ∀ c, h.nextClient ≤ c → h.client c = {}
  placed : ∀ c, (h.client c).Placed

theorem staged_start : ({} : Hub).Staged :=
  ⟨rfl, fun _ _ => rfl, fun _ => ⟨fun hc => absurd rfl hc, trivial⟩⟩

theorem Staged.stage (hs : h.Staged) (c : ClientRef) : (h.client c).Stage := (hs.placed c).stage

/-- A client whose goroutine runs, or has run, is registered. -/
theorem Staged.born (hs : h.Staged) {c : ClientRef} (hc : h.client c ≠ {}) : c < h.nextClient := by
  by_contra hlt
  exact hc (hs.unborn c (Nat.not_lt.1 hlt))

theorem Staged.born_of_pc (hs : h.Staged) {c : ClientRef} (hpc : (h.client c).pc ≠ .ended) :
    c < h.nextClient :=
  hs.born fun hc => hpc (by rw [hc])

/-- The broadcast of a client says who it is, in its own room. -/
theorem Staged.broadcast (hs : h.Staged) {c : ClientRef} {roomId : String} {msg : Message}
    {todo : List ClientRef} {next : ReadPump}
    (hpc : (h.client c).pc = .broadcast roomId msg todo next) :
    (h.client c).roomID = roomId ∧ roomId ≠ "" ∧
      ((∃ username, msg = .renegotiate (h.client c).peerID username ∧
          next = .setupConsumers roomId) ∨
        ∃ last, msg = .peerLeft (h.client c).peerID ∧ next = .unregister last) := by
  have hstage := hs.stage c
  unfold Client.Stage at hstage
  rw [hpc] at hstage
  exact ⟨hstage.1, hstage.1 ▸ hstage.2.1, hstage.2.2⟩

theorem Staged.visited (hs : h.Staged) {c t : ClientRef} {roomId : String} {msg : Message}
    {todo : List ClientRef} {next : ReadPump}
    (hpc : (h.client c).pc = .broadcast roomId msg todo next)
    (hroom : (h.client t).roomID = roomId) : t < h.nextClient :=
  hs.born fun ht => (hs.broadcast hpc).2.1 (by rw [← hroom, ht])

/-- The clients after one of them has changed. -/
theorem Staged.update (hs : h.Staged) {c : ClientRef} {x : Client} (hc : c < h.nextClient)
    (hx : x.Placed) :
    (∀ t, h.nextClient ≤ t → update h.client c x t = {}) ∧ ∀ t, (update h.client c x t).Placed := by
  refine ⟨fun t ht => ?_, fun t => ?_⟩
  · have hne : t ≠ c := fun he => Nat.not_lt.2 ht (he ▸ hc)
    rw [Function.update_of_ne hne]
    exact hs.unborn t ht
  · by_cases ht : t = c
    · rw [ht, Function.update_self]
      exact hx
    · rw [Function.update_of_ne ht]
      exact hs.placed t

theorem Staged.setClient (hs : h.Staged) {c : ClientRef} {x : Client} (hc : c < h.nextClient)
    (hx : x.Placed) : ({ h with client := Function.update h.client c x } : Hub).Staged :=
  ⟨hs.noBlankRoom, (hs.update hc hx).1, (hs.update hc hx).2⟩

theorem Staged.step (hs : h.Staged) (op : HubOp) : (h.step op).Staged := by
  have hmoves := h.moves op
  generalize h.step op = h' at hmoves
  cases hmoves with
  | stay => exact hs
  | createRoom hsys => exact ⟨hsys ▸ hs.noBlankRoom.createRoom _ _, hs.unborn, hs.placed⟩
  | packet => exact ⟨hs.noBlankRoom, hs.unborn, hs.placed⟩
  | serveWS =>
    have hs' : ({ h with nextClient := h.nextClient + 1 } : Hub).Staged :=
      ⟨hs.noBlankRoom, fun t ht => hs.unborn t (Nat.le_of_succ_le ht), hs.placed⟩
    obtain ⟨hunborn, hplaced⟩ := hs'.update (c := h.nextClient) (x := { pc := .readMessage })
      (Nat.lt_succ_self _) ⟨fun hx => absurd rfl hx, trivial⟩
    exact ⟨hs.noBlankRoom, hunborn, hplaced⟩
  | @write c msg rest hsend =>
    have hc : c < h.nextClient := hs.born fun hc => by rw [hc] at hsend; cases hsend
    exact hs.setClient hc ((hs.placed c).congr rfl rfl rfl)
  | @act _ c x s ha =>
    obtain ⟨hunborn, hplaced⟩ := hs.update (hs.born_of_pc ha.not_ended)
      (ha.placed (hs.placed c) hs.noBlankRoom)
    exact ⟨ha.noBlankRoom hs.noBlankRoom, hunborn, hplaced⟩
  | @visit c env roomId msg t todo next hpc hroom hne hopen =>
    have hpushed := hs.setClient (x := (h.client t).push msg) (hs.visited hpc hroom)
      ((hs.placed t).congr (Client.push_pc _ _) (Client.push_peerID _ _) (Client.push_roomID _ _))
    refine hpushed.setClient (hs.born_of_pc (c := c) (by rw [hpc]; nofun))
      ⟨(hs.placed c).named, ?_⟩
    have hstage := hs.stage c
    unfold Client.Stage at hstage
    rw [hpc] at hstage
    exact hstage
  | @unregister c env last hpc hfree =>
    obtain ⟨hunborn, hplaced⟩ := hs.update (c := c)
      (x := { h.client c with pc := .closeSend last }) (hs.born_of_pc (by rw [hpc]; nofun))
      ⟨(hs.placed c).named, trivial⟩
    exact ⟨hs.noBlankRoom, hunborn, hplaced⟩

end Hub

end Namecon
