import Namecon.Signal.Proof.Sequential

/-!
# The rooms and who is in them

What the operations of the room manager do to the keys of `Participants` (`Manager.keys`), and
`Manager.Ledger`, which they keep: a room with participants is in `m.rooms`, under one id, and no
participant is in two rooms.
-/

namespace Namecon.Manager

open Function (update)
open ListFacts (mem_keys_setKey mem_keys_eraseKey)

variable {m : Manager} {room room' : RoomRef} {id peerId roomId r : String} {p : Participant}

/-- The keys of `Participants`. -/
def keys (m : Manager) (room : RoomRef) : List String := (m.heap room).participants.map Prod.fst

/-- The id is that of a participant of some room. -/
def Present (m : Manager) (id : String) : Prop := ∃ room, id ∈ m.keys room

theorem keys_eq_nil : m.keys room = [] ↔ (m.heap room).participants = [] := List.map_eq_nil_iff

theorem exists_mem_keys : (∃ id, id ∈ m.keys room) ↔ (m.heap room).participants ≠ [] := by
  rw [ne_eq, ← keys_eq_nil, List.eq_nil_iff_forall_not_mem, not_forall_not]

theorem mem_keys_setParticipant : id ∈ (m.setParticipant room peerId p).keys room' ↔
    id ∈ m.keys room' ∨ room' = room ∧ id = peerId := by
  unfold keys setParticipant
  by_cases hr : room' = room
  · subst hr
    simp only [Function.update_self, mem_keys_setKey, true_and]
  · simp only [Function.update_of_ne hr, hr, false_and, or_false]

theorem mem_keys_deleteParticipant : id ∈ (m.deleteParticipant room peerId).keys room' ↔
    id ∈ m.keys room' ∧ ¬ (room' = room ∧ id = peerId) := by
  unfold keys deleteParticipant
  by_cases hr : room' = room
  · subst hr
    simp only [Function.update_self, mem_keys_eraseKey, true_and]
  · simp only [Function.update_of_ne hr, hr, false_and, not_false_eq_true, and_true]

theorem mem_keys_createRoom {name : String} {k : Fin 900000} :
    id ∈ (m.createRoom name k).1.keys room' ↔ id ∈ m.keys room' ∧ room' ≠ m.nextRoom := by
  unfold keys createRoom
  by_cases hr : room' = m.nextRoom
  · subst hr
    simp
  · simp only [Function.update_of_ne hr, ne_eq, hr, not_false_eq_true, and_true]

theorem rooms_createRoom {name : String} {k : Fin 900000} :
    (m.createRoom name k).1.rooms r = some room ↔
      (r = drawRoomId k ∧ room = m.nextRoom) ∨ (r ≠ drawRoomId k ∧ m.rooms r = some room) := by
  unfold createRoom
  generalize drawRoomId k = roomId
  by_cases hr : r = roomId
  · subst hr
    simp [eq_comm]
  · simp [hr]

theorem rooms_deleteRoom : (m.deleteRoom roomId).rooms r = some room ↔
    r ≠ roomId ∧ m.rooms r = some room := by
  unfold deleteRoom
  by_cases hr : r = roomId
  · subst hr
    simp
  · simp [hr]

/-- The rooms as the calls keep them. -/
structure Ledger (m : Manager) : Prop where
  refs : ∀ r room, m.rooms r = some room → room < m.nextRoom
  inj : ∀ r r' room, m.rooms r = some room → m.rooms r' = some room → r = r'
  located : ∀ room id, id ∈ m.keys room → ∃ r, m.rooms r = some room
  unique : ∀ room room' id, id ∈ m.keys room → id ∈ m.keys room' → room = room'

theorem ledger_start : ({} : Manager).Ledger where
  refs _ _ hr := by cases hr
  inj _ _ _ hr := by cases hr
  located _ _ hid := by cases hid
  unique _ _ _ hid := by cases hid

theorem Ledger.lt (h : m.Ledger) (hid : id ∈ m.keys room) : room < m.nextRoom :=
  (h.located room id hid).elim fun r hr => h.refs r room hr

theorem Ledger.mem_keys_createRoom (h : m.Ledger) {name : String} {k : Fin 900000} :
    id ∈ (m.createRoom name k).1.keys room ↔ id ∈ m.keys room :=
  Manager.mem_keys_createRoom.trans (and_iff_left_of_imp fun hid => Nat.ne_of_lt (h.lt hid))

theorem Ledger.createRoom (h : m.Ledger) (name : String) {k : Fin 900000}
    (hnew : m.rooms (drawRoomId k) = none) : (m.createRoom name k).1.Ledger := by
  have hold : ∀ {r room}, m.rooms r = some room → (m.createRoom name k).1.rooms r = some room :=
    fun {r room} hr => by
      refine rooms_createRoom.2 (.inr ⟨fun he => ?_, hr⟩)
      rw [he, hnew] at hr
      cases hr
  refine ⟨fun r room hr => ?_, fun r r' room hr hr' => ?_, fun room id hid => ?_,
    fun room room' id hid hid' => ?_⟩
  · rcases rooms_createRoom.1 hr with ⟨-, rfl⟩ | ⟨-, hr⟩
    · exact Nat.lt_succ_self _
    · exact Nat.lt_succ_of_lt (h.refs r room hr)
  · rcases rooms_createRoom.1 hr with ⟨rfl, rfl⟩ | ⟨-, hr⟩
    · rcases rooms_createRoom.1 hr' with ⟨rfl, -⟩ | ⟨-, hr'⟩
      · rfl
      · exact absurd (h.refs r' _ hr') (Nat.lt_irrefl _)
    · rcases rooms_createRoom.1 hr' with ⟨-, rfl⟩ | ⟨-, hr'⟩
      · exact absurd (h.refs r _ hr) (Nat.lt_irrefl _)
      · exact h.inj r r' room hr hr'
  · exact (h.located room id (h.mem_keys_createRoom.1 hid)).imp fun _ hr => hold hr
  · exact h.unique room room' id (h.mem_keys_createRoom.1 hid) (h.mem_keys_createRoom.1 hid')

theorem Ledger.setParticipant (h : m.Ledger) (hroom : m.rooms roomId = some room)
    (hnew : ¬ m.Present peerId) : (m.setParticipant room peerId p).Ledger := by
  refine ⟨h.refs, h.inj, fun room' id hid => ?_, fun room' room'' id hid hid' => ?_⟩
  · rcases mem_keys_setParticipant.1 hid with hid | ⟨rfl, -⟩
    · exact h.located room' id hid
    · exact ⟨roomId, hroom⟩
  · rcases mem_keys_setParticipant.1 hid with hin | ⟨rfl, rfl⟩
    · rcases mem_keys_setParticipant.1 hid' with hin' | ⟨rfl, rfl⟩
      · exact h.unique room' room'' id hin hin'
      · exact absurd ⟨room', hin⟩ hnew
    · rcases mem_keys_setParticipant.1 hid' with hin' | ⟨rfl, -⟩
      · exact absurd ⟨room'', hin'⟩ hnew
      · rfl

theorem Ledger.deleteParticipant (h : m.Ledger) : (m.deleteParticipant room peerId).Ledger :=
  ⟨h.refs, h.inj, fun room' id hid => h.located room' id (mem_keys_deleteParticipant.1 hid).1,
    fun room' room'' id hid hid' => h.unique room' room'' id (mem_keys_deleteParticipant.1 hid).1
      (mem_keys_deleteParticipant.1 hid').1⟩

/-- An empty room may go. -/
theorem Ledger.deleteRoom (h : m.Ledger) (hroom : m.rooms roomId = some room)
    (hempty : m.keys room = []) : (m.deleteRoom roomId).Ledger := by
  refine ⟨fun r room' hr => h.refs r room' (rooms_deleteRoom.1 hr).2,
    fun r r' room' hr hr' => h.inj r r' room' (rooms_deleteRoom.1 hr).2 (rooms_deleteRoom.1 hr').2,
    fun room' id hid => ?_, h.unique⟩
  obtain ⟨r, hr⟩ := h.located room' id hid
  refine ⟨r, rooms_deleteRoom.2 ⟨?_, hr⟩⟩
  intro he
  obtain rfl := he
  obtain rfl := Option.some.inj (hroom.symm.trans hr)
  replace hid : id ∈ m.keys room := hid
  rw [hempty] at hid
  cases hid

/-! ## Where a participant is -/

/-- The participant, if it is in a room, is in that with the id `roomId`. -/
def Resides (m : Manager) (roomId id : String) : Prop :=
  ∀ room, id ∈ m.keys room → m.rooms roomId = some room

theorem Resides.createRoom (hr : m.Resides roomId id) (h : m.Ledger) (name : String)
    {k : Fin 900000} (hnew : m.rooms (drawRoomId k) = none) :
    (m.createRoom name k).1.Resides roomId id := by
  intro room hid
  have hroom := hr room (h.mem_keys_createRoom.1 hid)
  refine rooms_createRoom.2 (.inr ⟨fun he => ?_, hroom⟩)
  rw [he, hnew] at hroom
  cases hroom

theorem Resides.setParticipant (hr : m.Resides roomId id) (hne : id ≠ peerId) :
    (m.setParticipant room peerId p).Resides roomId id := fun room' hid =>
  hr room' ((mem_keys_setParticipant.1 hid).resolve_right fun he => hne he.2)

theorem Resides.deleteParticipant (hr : m.Resides roomId id) :
    (m.deleteParticipant room peerId).Resides roomId id := fun room' hid =>
  hr room' (mem_keys_deleteParticipant.1 hid).1

theorem Resides.deleteRoom (hr : m.Resides roomId id) (hroom : m.rooms r = some room)
    (hempty : m.keys room = []) : (m.deleteRoom r).Resides roomId id := by
  intro room' hid
  replace hid : id ∈ m.keys room' := hid
  refine rooms_deleteRoom.2 ⟨?_, hr room' hid⟩
  intro he
  obtain rfl := he
  obtain rfl := Option.some.inj (hroom.symm.trans (hr room' hid))
  rw [hempty] at hid
  cases hid

end Namecon.Manager
