import Namecon.Signal.Meeting
import Namecon.Signal.Proof.Ledger
import Namecon.Grpc.Proof.Sound

/-!
# Ids that identify

Room ids and peer ids are drawn at random and are keys of `m.rooms`, of `Participants` in every room
and of `_peers` in the media server; a draw is never compared with the ids in use.
`ids_identify_iff`: along a run every id stands for one room or one participant exactly when no call
draws an id in use (`DrawsFree`).
-/

namespace Namecon

open Runs (exec Meets)
open Function (update)

/-- A participant of an existing room carries the id. -/
def Manager.Carried (m : Manager) (id : String) : Prop :=
  ∃ r room, m.rooms r = some room ∧ id ∈ m.keys room

namespace System

variable {s : System} {op : ManagerOp} {id roomId : String} {room : RoomRef}

/-- What the ids of a call stand for: a room created is none of the existing ones, a participant
added is none of those present and its SFU peer none of those registered, and the SFU peer removed
for a participant is that of nobody else who is present. -/
def IdsIdentify (s : System) : ManagerOp → Prop
  | .createRoom name n =>
    s.manager.rooms (s.manager.createRoom name n).2.id = none ∧
      ∀ r room, s.manager.rooms r = some room →
        (s.manager.createRoom name n).1.rooms r = some room ∧
          (s.manager.createRoom name n).1.heap room = s.manager.heap room
  | .addParticipant info roomId username n =>
    ∀ p, (s.addParticipant info roomId username n).2 = .ok p →
      ¬ s.manager.Carried p.id ∧ s.media.peers p.id = none
  | .removeParticipant roomId peerId =>
    ∀ room, s.manager.rooms roomId = some room → peerId ∈ s.manager.keys room →
      ∀ id, (s.removeParticipant roomId peerId).1.manager.Carried id →
        (s.removeParticipant roomId peerId).1.media.peers id = s.media.peers id

/-- The id that the call draws is not in use. -/
def DrawsFree (s : System) : ManagerOp → Prop
  | .createRoom _ n => s.manager.rooms (Manager.drawRoomId n) = none
  | .addParticipant _ roomId _ n =>
    s.manager.rooms roomId ≠ none → ¬ s.manager.Carried (Manager.drawPeerId n)
  | .removeParticipant _ _ => True

/-- The rooms as `Manager.Ledger` has them, and a registered SFU peer has a participant. -/
structure Identified (s : System) : Prop where
  ledger : s.manager.Ledger
  registered : ∀ id, s.media.peers id ≠ none → s.manager.Present id

theorem carried_iff (h : s.manager.Ledger) : s.manager.Carried id ↔ s.manager.Present id := by
  constructor
  · intro hc
    obtain ⟨_, room, -, hid⟩ := hc
    exact ⟨room, hid⟩
  · intro hp
    obtain ⟨room, hid⟩ := hp
    exact (h.located room id hid).imp fun _ hr => ⟨room, hr, hid⟩

/-! ## The calls -/

/-- Who is present after a removal: the others. -/
theorem present_removeParticipant {peerId : String} (hr : s.manager.rooms roomId = some room) :
    (s.removeParticipant roomId peerId).1.manager.Present id ↔
      ∃ room', id ∈ s.manager.keys room' ∧ ¬ (room' = room ∧ id = peerId) := by
  rw [removeParticipant_some hr]
  dsimp only
  have hkeys : ∀ room', id ∈ (if ((s.manager.deleteParticipant room peerId).heap
      room).participants.isEmpty then (s.manager.deleteParticipant room peerId).deleteRoom roomId
      else s.manager.deleteParticipant room peerId).keys room' ↔
      id ∈ (s.manager.deleteParticipant room peerId).keys room' := by
    intro room'
    split <;> exact Iff.rfl
  exact exists_congr fun room' => (hkeys room').trans Manager.mem_keys_deleteParticipant

theorem Identified.removeParticipant (h : s.Identified) (roomId peerId : String) :
    (s.removeParticipant roomId peerId).1.Identified := by
  cases hr : s.manager.rooms roomId with
  | none => rw [removeParticipant_none hr]; exact h
  | some room =>
    constructor
    · rw [removeParticipant_some hr]
      dsimp only
      have hl : (s.manager.deleteParticipant room peerId).Ledger := h.ledger.deleteParticipant
      split
      · rename_i hempty
        exact hl.deleteRoom hr (Manager.keys_eq_nil.2 (List.isEmpty_iff.1 hempty))
      · exact hl
    · intro id hid
      rw [present_removeParticipant hr]
      rw [removeParticipant_some hr] at hid
      dsimp only at hid
      have hne : id ≠ peerId := by
        intro he
        subst he
        exact hid (MediaServer.removePeer_peers_self _ _)
      rw [MediaServer.removePeer_peers_ne hne] at hid
      obtain ⟨room', hmem⟩ := h.registered id hid
      exact ⟨room', hmem, fun hc => hne hc.2⟩

theorem Identified.step (h : s.Identified) (op : ManagerOp) (hfree : s.DrawsFree op) :
    (s.call op).Identified := by
  cases op with
  | createRoom name n =>
    refine ⟨h.ledger.createRoom name hfree, fun id hid => ?_⟩
    obtain ⟨room, hmem⟩ := h.registered id hid
    exact ⟨room, h.ledger.mem_keys_createRoom.2 hmem⟩
  | addParticipant info roomId username n =>
    simp only [call]
    cases hr : s.manager.rooms roomId with
    | none => rw [addParticipant_none hr]; exact h
    | some room =>
      have hnew : ¬ s.manager.Present (Manager.drawPeerId n) := by
        rw [← carried_iff h.ledger]
        exact hfree (by rw [hr]; exact Option.some_ne_none _)
      rw [addParticipant_some hr]
      refine ⟨h.ledger.setParticipant hr hnew, fun id hid => ?_⟩
      dsimp only at hid ⊢
      by_cases he : id = Manager.drawPeerId n
      · exact ⟨room, Manager.mem_keys_setParticipant.2 (.inr ⟨rfl, he⟩)⟩
      · rw [MediaServer.addPeer_peers, Function.update_of_ne he] at hid
        obtain ⟨room', hmem⟩ := h.registered id hid
        exact ⟨room', Manager.mem_keys_setParticipant.2 (.inl hmem)⟩
  | removeParticipant roomId peerId => exact h.removeParticipant roomId peerId

/-! ## When ids identify -/

theorem Identified.idsIdentify_iff (h : s.Identified) (op : ManagerOp) :
    s.IdsIdentify op ↔ s.DrawsFree op := by
  cases op with
  | createRoom name n =>
    refine and_iff_left_of_imp fun hnew r room hr => ⟨?_, ?_⟩
    · refine Manager.rooms_createRoom.2 (.inr ⟨?_, hr⟩)
      intro he
      rw [he] at hr
      exact absurd (hnew.symm.trans hr) (Option.some_ne_none room).symm
    · exact Function.update_of_ne (Nat.ne_of_lt (h.ledger.refs r room hr)) _ _
  | addParticipant info roomId username n =>
    simp only [IdsIdentify, DrawsFree]
    cases hr : s.manager.rooms roomId with
    | none =>
      rw [addParticipant_none hr]
      simp
    | some room =>
      rw [addParticipant_some hr]
      constructor
      · intro hid _
        exact (hid _ rfl).1
      · intro hfree p hp
        obtain rfl := Except.ok.inj hp
        have hnew := hfree (Option.some_ne_none room)
        refine ⟨hnew, ?_⟩
        by_contra hreg
        exact hnew ((carried_iff h.ledger).2 (h.registered _ hreg))
  | removeParticipant roomId peerId =>
    refine iff_of_true (fun room hr hmem id hc => ?_) trivial
    have hl := (h.removeParticipant roomId peerId).ledger
    obtain ⟨room', hin, hnot⟩ := (present_removeParticipant hr).1 ((carried_iff hl).1 hc)
    rw [removeParticipant_some hr]
    refine MediaServer.removePeer_peers_ne fun he => hnot ⟨?_, he⟩
    exact h.ledger.unique room' room peerId (he ▸ hin) hmem

/-- **When ids identify**, along every run of calls and draws. -/
theorem ids_identify_iff (ops : List ManagerOp) :
    Meets call IdsIdentify {} ops ↔ Meets call DrawsFree {} ops :=
  Runs.meets_congr_below (I := Identified) (fun _ op h hfree => h.step op hfree)
    (fun _ op h => h.idsIdentify_iff op) ⟨Manager.ledger_start, fun _ hid => absurd rfl hid⟩

/-- Two calls that draw the same number: the second room takes the place of the first. -/
theorem createRoom_twice (n : Fin 900000) :
    ¬ Meets call IdsIdentify {} [.createRoom "a" n, .createRoom "b" n] := by
  intro h
  have hused : (call {} (.createRoom "a" n)).manager.rooms (Manager.drawRoomId n) = some 0 :=
    Function.update_self _ _ _
  exact Option.some_ne_none 0 (hused.symm.trans h.2.1.1)

theorem room_replaced :
    ¬ Meets call IdsIdentify {} [.createRoom "a" 0, .createRoom "b" 0] :=
  createRoom_twice 0

end System

end Namecon
