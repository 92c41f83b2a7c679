import Namecon.Signal.Proof.Announcements
import Namecon.Signal.Proof.Ledger

/-!
# What a connection leaves behind

A connection remembers one room and one peer id, and `handleLeave` removes that one participant.
`disconnect_clean`: in every interleaving of the handlers, nothing that a connection has made is
there when it has ended, as long as no client joins a second time on a connection that it has not
left, no room goes out of `m.rooms` that is in use, and no `handleLeave` misses its room while the
participant is being removed for another connection.
-/

namespace Namecon

open Function (update)
open Manager (keys mem_keys_setParticipant mem_keys_deleteParticipant)

/-- What connections have made: who has put the participant into the room, and the peers for which
`RemovePeer` has not been called since. -/
structure Books where
  owner : RoomRef → String → Option ClientRef := fun _ _ => none
  due : List (ClientRef × String) := []

/-- The books after a step of the hub. -/
def Books.record (b : Books) (h : Hub) : HubOp → Books
  | .advance c env => match (h.client c).pc with
    | .addPeer _ _ _ => { b with due := (c, Manager.drawPeerId env.n) :: b.due }
    | .insert room p =>
      if h.roomHeld room then b
      else { b with owner := update b.owner room (update (b.owner room) p.id (some c)) }
    | .removePeer _ => { b with due := b.due.filter (·.2 ≠ (h.client c).peerID) }
    | _ => b
  | _ => b

namespace Books

variable {m m' : Manager} {b b' : Books} {E E' : String → Prop} {c t : ClientRef}
  {r i : String} {x : Client}

/-- Nothing of `t` is left. -/
structure Clear (m : Manager) (b : Books) (t : ClientRef) : Prop where
  owns : ∀ room j, j ∈ m.keys room → b.owner room j ≠ some t
  due : ∀ j, (t, j) ∉ b.due

/-- Nothing of `t` is in a room, and at most `i` is due. -/
structure Owes (m : Manager) (b : Books) (t : ClientRef) (i : String) : Prop where
  owns : ∀ room j, j ∈ m.keys room → b.owner room j ≠ some t
  due : ∀ j, (t, j) ∈ b.due → j = i

/-- All that is left of `t` is the participant `i` in the room at `room`. -/
structure Found (m : Manager) (b : Books) (t : ClientRef) (room : RoomRef) (i : String) :
    Prop where
  owns : ∀ room' j, j ∈ m.keys room' → b.owner room' j = some t → room' = room ∧ j = i
  due : ∀ j, (t, j) ∈ b.due → j = i

/-- All that is left of `t` is the participant `i` in the room `r`; `E` are the ids for which
another client is about to call `RemovePeer`. -/
structure Tied (m : Manager) (b : Books) (E : String → Prop) (t : ClientRef) (r i : String) :
    Prop where
  owns : ∀ room j, j ∈ m.keys room → b.owner room j = some t → j = i ∧ m.rooms r = some room
  due : ∀ j, (t, j) ∈ b.due →
    r ≠ "" ∧ j = i ∧ (E j ∨ ∃ room, m.rooms r = some room ∧ j ∈ m.keys room)

/-- A client that is not joining or leaving. -/
structure Rests (m : Manager) (b : Books) (E : String → Prop) (t : ClientRef) (x : Client) :
    Prop where
  tied : Tied m b E t x.roomID x.peerID
  left : x.closed = true ∨ x.pc = .ended → Clear m b t

theorem Clear.tied (h : Clear m b t) (E : String → Prop) (r i : String) : Tied m b E t r i :=
  ⟨fun room j hj ho => absurd ho (h.owns room j hj), fun j hj => absurd hj (h.due j)⟩

/-- A client whose room is gone has nothing to remove, if nobody else is about to. -/
theorem Tied.clear (h : Tied m b E t r i) (hr : m.rooms r = none) (hE : ¬ E i) : Clear m b t := by
  refine ⟨fun room j hj ho => ?_, fun j hj => ?_⟩
  · have hroom := (h.owns room j hj ho).2
    rw [hr] at hroom
    cases hroom
  · obtain ⟨-, rfl, he | ⟨room, hroom, -⟩⟩ := h.due j hj
    · exact hE he
    · rw [hr] at hroom
      cases hroom

theorem Tied.clear_of_blank (h : Tied m b E t x.roomID x.peerID) (hn : m.NoBlankRoom)
    (hx : x.roomID ≠ "" → x.peerID ≠ "") (hblank : x.roomID = "" ∨ x.peerID = "") :
    Clear m b t := by
  have hroom : x.roomID = "" := hblank.elim id fun hid => by
    by_contra hroom
    exact hx hroom hid
  exact ⟨fun room j hj ho => hn.ne (h.owns room j hj ho).2 hroom, fun j hj => (h.due j hj).1 hroom⟩

theorem Tied.found {room : RoomRef} (h : Tied m b E t r i) (hroom : m.rooms r = some room) :
    Found m b t room i := by
  refine ⟨fun room' j hj ho => ?_, fun j hj => (h.due j hj).2.1⟩
  obtain ⟨rfl, hroom'⟩ := h.owns room' j hj ho
  exact ⟨Option.some.inj (hroom'.symm.trans hroom), rfl⟩

/-! ### Steps of other clients -/

/-- Nothing is added to what is left of `t`, and what is due can be removed as before. -/
structure Shrinks (m : Manager) (b : Books) (E : String → Prop) (m' : Manager) (b' : Books)
    (E' : String → Prop) (t : ClientRef) : Prop where
  owns : ∀ room j, j ∈ m'.keys room → b'.owner room j = some t →
    j ∈ m.keys room ∧ b.owner room j = some t
  due : ∀ j, (t, j) ∈ b'.due → (t, j) ∈ b.due
  rooms : ∀ r room j, j ∈ m.keys room → m.rooms r = some room → m'.rooms r = some room
  keys : ∀ r room j, (t, j) ∈ b'.due → m.rooms r = some room → j ∈ m.keys room →
    E' j ∨ j ∈ m'.keys room
  pending : ∀ j, (t, j) ∈ b'.due → E j → E' j

theorem Clear.mono (h : Clear m b t) (hs : Shrinks m b E m' b' E' t) : Clear m' b' t :=
  ⟨fun room j hj ho => h.owns room j (hs.owns room j hj ho).1 (hs.owns room j hj ho).2,
    fun j hj => h.due j (hs.due j hj)⟩

theorem Owes.mono (h : Owes m b t i) (hs : Shrinks m b E m' b' E' t) : Owes m' b' t i :=
  ⟨fun room j hj ho => h.owns room j (hs.owns room j hj ho).1 (hs.owns room j hj ho).2,
    fun j hj => h.due j (hs.due j hj)⟩

theorem Found.mono {room : RoomRef} (h : Found m b t room i) (hs : Shrinks m b E m' b' E' t) :
    Found m' b' t room i :=
  ⟨fun room' j hj ho => h.owns room' j (hs.owns room' j hj ho).1 (hs.owns room' j hj ho).2,
    fun j hj => h.due j (hs.due j hj)⟩

theorem Tied.mono (h : Tied m b E t r i) (hs : Shrinks m b E m' b' E' t) :
    Tied m' b' E' t r i := by
  refine ⟨fun room j hj ho => ?_, fun j hj => ?_⟩
  · obtain ⟨hj', ho'⟩ := hs.owns room j hj ho
    obtain ⟨rfl, hr⟩ := h.owns room j hj' ho'
    exact ⟨rfl, hs.rooms r room j hj' hr⟩
  · obtain ⟨hblank, rfl, he | ⟨room, hr, hin⟩⟩ := h.due j (hs.due j hj)
    · exact ⟨hblank, rfl, .inl (hs.pending j hj he)⟩
    · refine ⟨hblank, rfl, (hs.keys r room j hj hr hin).imp_right fun hin' => ?_⟩
      exact ⟨room, hs.rooms r room j hin hr, hin'⟩

theorem Rests.mono (h : Rests m b E t x) (hs : Shrinks m b E m' b' E' t) : Rests m' b' E' t x :=
  ⟨h.tied.mono hs, fun hx => (h.left hx).mono hs⟩

theorem Shrinks.refl (hE : ∀ j, E j → E' j) : Shrinks m b E m b E' t :=
  ⟨fun _ _ hj ho => ⟨hj, ho⟩, fun _ hj => hj, fun _ _ _ _ hr => hr, fun _ _ _ _ _ hj => .inr hj,
    fun j _ => hE j⟩

/-- What a step does to the ids that one client is about to remove, it does to those of all. -/
theorem Shrinks.pending_of {G G' : String → Prop} (hs : Shrinks m b E m' b' E' t)
    (hG : ∀ j, G j → E j ∨ G' j) (hE : ∀ j, E' j → G' j) : Shrinks m b G m' b' G' t :=
  ⟨hs.owns, hs.due, hs.rooms, fun r room j hj hr hin => (hs.keys r room j hj hr hin).imp_left (hE j),
    fun j hj hg => (hG j hg).elim (fun he => hE j (hs.pending j hj he)) id⟩

theorem shrinks_addPeer (hne : t ≠ c) (i : String) (hE : ∀ j, ¬ E j) :
    Shrinks m b E m { b with due := (c, i) :: b.due } E' t := by
  have hdue : ∀ j, (t, j) ∈ (c, i) :: b.due → (t, j) ∈ b.due := fun j hj =>
    (List.mem_cons.1 hj).resolve_left fun he => hne (congrArg Prod.fst he)
  exact ⟨fun _ _ hj ho => ⟨hj, ho⟩, hdue, fun _ _ _ _ hr => hr, fun _ _ _ _ _ hj => .inr hj,
    fun j _ he => absurd he (hE j)⟩

/-- The owner of an entry after `c` has written `i` into the room. -/
theorem owner_insert {room room' : RoomRef} {j : String} {u : ClientRef}
    (h : update b.owner room (update (b.owner room) i (some c)) room' j = some u) :
    (room' = room ∧ j = i ∧ u = c) ∨ (¬ (room' = room ∧ j = i) ∧ b.owner room' j = some u) := by
  by_cases hr : room' = room
  · subst hr
    rw [Function.update_self] at h
    by_cases hj : j = i
    · subst hj
      rw [Function.update_self] at h
      exact .inl ⟨rfl, rfl, (Option.some.inj h).symm⟩
    · rw [Function.update_of_ne hj] at h
      exact .inr ⟨fun he => hj he.2, h⟩
  · rw [Function.update_of_ne hr] at h
    exact .inr ⟨fun he => hr he.1, h⟩

theorem shrinks_insert (hne : t ≠ c) (room : RoomRef) (i : String) (p : Participant)
    (hE : ∀ j, ¬ E j) : Shrinks m b E (m.setParticipant room i p)
      { b with owner := update b.owner room (update (b.owner room) i (some c)) } E' t := by
  refine ⟨fun room' j hj ho => ?_, fun _ hj => hj, fun _ _ _ _ hr => hr,
    fun _ _ _ _ _ hj => .inr (mem_keys_setParticipant.2 (.inl hj)),
    fun j _ he => absurd he (hE j)⟩
  rcases owner_insert ho with ⟨-, -, rfl⟩ | ⟨hno, ho⟩
  · exact absurd rfl hne
  · exact ⟨(mem_keys_setParticipant.1 hj).resolve_right hno, ho⟩

theorem shrinks_delete (room : RoomRef) (i : String) (hE : ∀ j, ¬ E j) (hE' : E' i) :
    Shrinks m b E (m.deleteParticipant room i) b E' t := by
  refine ⟨fun room' j hj ho => ⟨(mem_keys_deleteParticipant.1 hj).1, ho⟩, fun _ hj => hj,
    fun _ _ _ _ hr => hr, fun _ room' j _ _ hj => ?_, fun j _ he => absurd he (hE j)⟩
  by_cases hi : j = i
  · exact .inl (hi ▸ hE')
  · exact .inr (mem_keys_deleteParticipant.2 ⟨hj, fun he => hi he.2⟩)

theorem shrinks_deleteRoom (hnew : ∀ room, m.rooms r = some room → m.keys room = [])
    (hE : ∀ j, E j → E' j) : Shrinks m b E (m.deleteRoom r) b E' t := by
  refine ⟨fun _ _ hj ho => ⟨hj, ho⟩, fun _ hj => hj, fun r' room j hj hr => ?_,
    fun _ _ _ _ _ hj => .inr hj, fun j _ => hE j⟩
  refine Manager.rooms_deleteRoom.2 ⟨?_, hr⟩
  intro he
  obtain rfl := he
  rw [hnew room hr] at hj
  cases hj

theorem shrinks_removePeer (i : String) (hE : ∀ j, E j → j = i) :
    Shrinks m b E m { b with due := b.due.filter (·.2 ≠ i) } E' t := by
  refine ⟨fun _ _ hj ho => ⟨hj, ho⟩, fun _ hj => List.mem_of_mem_filter hj, fun _ _ _ _ hr => hr,
    fun _ _ _ _ _ hj => .inr hj, fun j hj he => ?_⟩
  exact absurd (hE j he) (of_decide_eq_true (List.mem_filter.1 hj).2)

theorem shrinks_createRoom {name : String} {k : Fin 900000}
    (hrefs : ∀ r room, m.rooms r = some room → room < m.nextRoom)
    (hnew : ∀ room, m.rooms (Manager.drawRoomId k) = some room → m.keys room = []) :
    Shrinks m b E (m.createRoom name k).1 b E t := by
  refine ⟨fun room j hj ho => ⟨(Manager.mem_keys_createRoom.1 hj).1, ho⟩, fun _ hj => hj,
    fun r room j hj hr => ?_, fun r room j _ hr hj => ?_, fun _ _ he => he⟩
  · refine Manager.rooms_createRoom.2 (.inr ⟨?_, hr⟩)
    intro he
    obtain rfl := he
    rw [hnew room hr] at hj
    cases hj
  · exact .inr (Manager.mem_keys_createRoom.2 ⟨hj, Nat.ne_of_lt (hrefs r room hr)⟩)

/-! ### Steps of the client itself -/

theorem Clear.addPeer (h : Clear m b c) (i : String) :
    Owes m { b with due := (c, i) :: b.due } c i := by
  refine ⟨h.owns, fun j hj => ?_⟩
  rcases List.mem_cons.1 hj with he | hj
  · exact congrArg Prod.snd he
  · exact absurd hj (h.due j)

theorem Owes.insert {room : RoomRef} (h : Owes m b c i) (hroom : m.rooms r = some room)
    (hr : r ≠ "") (p : Participant) :
    Tied (m.setParticipant room i p)
      { b with owner := update b.owner room (update (b.owner room) i (some c)) } E c r i := by
  refine ⟨fun room' j hj hown => ?_, fun j hj => ?_⟩
  · rcases owner_insert hown with ⟨rfl, rfl, -⟩ | ⟨hno, hown⟩
    · exact ⟨rfl, hroom⟩
    · exact absurd hown (h.owns room' j ((mem_keys_setParticipant.1 hj).resolve_right hno))
  · obtain rfl := h.due j hj
    exact ⟨hr, rfl, .inr ⟨room, hroom, mem_keys_setParticipant.2 (.inr ⟨rfl, rfl⟩)⟩⟩

theorem Found.delete {room : RoomRef} (h : Found m b c room i) :
    Owes (m.deleteParticipant room i) b c i := by
  refine ⟨fun room' j hj hown => ?_, h.due⟩
  obtain ⟨hj, hno⟩ := mem_keys_deleteParticipant.1 hj
  exact hno (h.owns room' j hj hown)

theorem Owes.removePeer (h : Owes m b c i) :
    Clear m { b with due := b.due.filter (·.2 ≠ i) } c := by
  refine ⟨h.owns, fun j hj => ?_⟩
  have hne := of_decide_eq_true (List.mem_filter.1 hj).2
  exact hne (h.due j (List.mem_of_mem_filter hj))

end Books

open Books

/-- The steps that are entered in the books. -/
def ReadPump.Records : ReadPump → Prop
  | .addPeer _ _ _ | .insert _ _ | .removePeer _ => True
  | _ => False

/-- The participant is out of its room, and `RemovePeer` is to be called. -/
def ReadPump.removing : ReadPump → Bool
  | .deleteRoom _ | .removePeer _ => true
  | _ => false

/-- A join has found the room, and its participant is not there yet. -/
def ReadPump.joins (room : RoomRef) : ReadPump → Bool
  | .addPeer _ _ room' | .insert room' _ => room' == room
  | _ => false

/-- The id for which the client is about to call `RemovePeer`. -/
def Client.Pending (x : Client) (i : String) : Prop := x.pc.removing = true ∧ i = x.peerID

instance (x : Client) (i : String) : Decidable (x.Pending i) :=
  inferInstanceAs (Decidable (x.pc.removing = true ∧ i = x.peerID))

theorem Client.not_pending {x : Client} (hx : x.pc.removing = false) (i : String) :
    ¬ x.Pending i := by
  intro h
  rw [h.1] at hx
  cases hx

theorem Client.Pending.congr {x x' : Client} {i : String} (h : x.Pending i) (hx : x.Follows x') :
    x'.Pending i := by
  unfold Client.Pending at h ⊢
  rw [hx.pc, hx.peerID]
  exact h

/-- What the program counter of the client `t` says of what is left of it; `E` are the ids for
which another client is about to call `RemovePeer`. -/
def Client.Holds (m : Manager) (b : Books) (E : String → Prop) (t : ClientRef) (x : Client) :
    Prop :=
  match x.pc with
  | .addPeer r _ room => Clear m b t ∧ m.rooms r = some room
  | .insert room p => Owes m b t p.id ∧ m.rooms p.roomId = some room
  | .setPeerID p | .setRoomID p => Tied m b E t p.roomId p.id
  | .setUsername _ | .scan _ | .joined _ _ | .getRoom _ => Tied m b E t x.roomID x.peerID
  | .delete room _ => Found m b t room x.peerID
  | .deleteRoom _ | .removePeer _ => Owes m b t x.peerID
  | .peerLeft _ | .unregister _ | .closeSend _ | .broadcast _ (.peerLeft _) _ _ => Clear m b t
  | _ => Rests m b E t x

section
variable {m m' : Manager} {b b' : Books} {E E' : String → Prop} {t : ClientRef} {x : Client}

/-- What is left of a client is kept by the steps of others, if the room it is about to join stays
where it is. -/
theorem Client.Holds.mono (h : x.Holds m b E t) (hs : Shrinks m b E m' b' E' t)
    (hjoin : ∀ r room, x.pc.joins room → m.rooms r = some room → m'.rooms r = some room) :
    x.Holds m' b' E' t := by
  unfold Holds at h ⊢
  split at h
  · rename_i r _ room hpc
    exact ⟨h.1.mono hs, hjoin r room (by rw [hpc]; exact beq_self_eq_true room) h.2⟩
  · rename_i room p hpc
    exact ⟨h.1.mono hs, hjoin p.roomId room (by rw [hpc]; exact beq_self_eq_true room) h.2⟩
  all_goals exact h.mono hs

theorem Client.holds_handleLeave (h : Tied m b E t x.roomID x.peerID) (hn : m.NoBlankRoom)
    (hx : x.roomID ≠ "" → x.peerID ≠ "") (last : Bool) :
    ({ x with pc := x.handleLeave last } : Client).Holds m b E t := by
  unfold handleLeave
  split
  · exact h
  · rename_i hblank
    refine h.clear_of_blank hn hx ?_
    by_contra hno
    exact hblank ⟨fun hr => hno (.inl hr), fun hp => hno (.inr hp)⟩

theorem Books.Rests.congr (h : Rests m b E t x) {x' : Client} (hx : x.Follows x') :
    Rests m b E t x' := by
  refine ⟨?_, ?_⟩
  · rw [hx.roomID, hx.peerID]
    exact h.tied
  · rw [hx.closed, hx.pc]
    exact h.left

theorem Books.Rests.born (h : Rests m b E t {}) : Rests m b E t { pc := .readMessage } :=
  ⟨h.tied, fun hx => by obtain hx | hx := hx <;> cases hx⟩

theorem Client.Holds.congr (h : x.Holds m b E t) {x' : Client} (hx : x.Follows x') :
    x'.Holds m b E t := by
  unfold Holds at h ⊢
  rw [hx.pc, hx.roomID, hx.peerID]
  split at h
  all_goals first | exact h | exact h.congr hx

/-- On an open channel nothing is asked of a handler beyond what is left. -/
theorem Books.Tied.rests (h : Tied m b E t x.roomID x.peerID) (hopen : x.closed = false)
    (hpc : x.pc ≠ .ended) : Rests m b E t x := by
  refine ⟨h, ?_⟩
  intro h
  rcases h with hc | he
  · rw [hopen] at hc
    cases hc
  · exact absurd he hpc

theorem Books.Rests.goto (h : Rests m b E t x) {pc : ReadPump} (hpc : pc ≠ .ended) :
    Rests m b E t { x with pc } := by
  refine ⟨h.tied, ?_⟩
  intro h
  rcases h with hc | he
  · exact h.left (.inl hc)
  · exact absurd he hpc

end

namespace Hub

variable {h h' : Hub} {op : HubOp} {c t : ClientRef} {x x' : Client} {s' : System} {b : Books}

/-- Another client than `t` is about to call `RemovePeer(i)`. -/
def PendingElsewhere (h : Hub) (t : ClientRef) (i : String) : Prop :=
  ∃ u, u ≠ t ∧ (h.client u).Pending i

/-- No room of this id has participants, or a join that has found it. -/
def Vacant (h : Hub) (roomId : String) : Prop :=
  ∀ room, h.system.manager.rooms roomId = some room →
    (h.system.manager.heap room).participants = [] ∧
      ∀ c < h.nextClient, (h.client c).pc.joins room = false

instance (h : Hub) (roomId : String) : Decidable (h.Vacant roomId) :=
  match hr : h.system.manager.rooms roomId with
  | none => .isTrue fun _ he => nomatch hr.symm.trans he
  | some room => decidable_of_iff ((h.system.manager.heap room).participants = [] ∧
      ∀ c < h.nextClient, (h.client c).pc.joins room = false)
    ⟨fun hp _ he => Option.some.inj (hr.symm.trans he) ▸ hp, fun hp => hp room hr⟩

/-- A step of `handleLeave` in the goroutine of `c` takes no room out that is in use, and where it
misses its room, no other client is about to call `RemovePeer` for its participant. -/
def LeavesTidy (h : Hub) (c : ClientRef) : Prop :=
  (∀ last, (h.client c).pc = .deleteRoom last → h.Vacant (h.client c).roomID) ∧
    ∀ last, (h.client c).pc = .getRoom last → h.system.manager.rooms (h.client c).roomID = none →
      ∀ t < h.nextClient, t ≠ c → ¬ (h.client t).Pending (h.client c).peerID

instance (h : Hub) (c : ClientRef) : Decidable (h.LeavesTidy c) :=
  inferInstanceAs (Decidable (_ ∧ _))

/-- A join finds its room only on a connection that has not joined, or has left; a new room takes
the place of no room in use; and `handleLeave` leaves the rooms tidy. -/
def Tidy (h : Hub) : HubOp → Prop
  | .message c _ (.join roomId _) => (h.client c).pc = .readMessage →
    h.system.manager.rooms roomId ≠ none → (h.client c).peerID = "" ∨ (h.client c).closed = true
  | .createRoom _ k => h.Vacant (Manager.drawRoomId k)
  | .advance c _ => h.LeavesTidy c
  | _ => True

instance (h : Hub) (op : HubOp) : Decidable (h.Tidy op) :=
  match op with
  | .message c _ (.join roomId _) => inferInstanceAs (Decidable ((h.client c).pc = .readMessage →
      h.system.manager.rooms roomId ≠ none → (h.client c).peerID = "" ∨ (h.client c).closed = true))
  | .createRoom _ k => inferInstanceAs (Decidable (h.Vacant (Manager.drawRoomId k)))
  | .advance c _ => inferInstanceAs (Decidable (h.LeavesTidy c))
  | .message _ _ .invalid | .message _ _ (.offer _ _) | .message _ _ .leave
  | .message _ _ .unknown | .serveWS | .hangUp _ | .writeMessage _ | .packet _ _ _ => .isTrue trivial

theorem Vacant.keys {roomId : String} (hv : h.Vacant roomId) {room : RoomRef}
    (hroom : h.system.manager.rooms roomId = some room) : h.system.manager.keys room = [] :=
  Manager.keys_eq_nil.2 (hv room hroom).1

theorem Vacant.not_joins {roomId : String} (hv : h.Vacant roomId) (hs : h.Staged) {room : RoomRef}
    (hroom : h.system.manager.rooms roomId = some room) (t : ClientRef) :
    (h.client t).pc.joins room = false := by
  by_cases ht : t < h.nextClient
  · exact (hv room hroom).2 t ht
  · rw [hs.unborn t (Nat.not_lt.1 ht)]
    rfl

theorem pending_born (hs : h.Staged) {i : String} (hp : (h.client t).Pending i) :
    t < h.nextClient :=
  hs.born_of_pc fun he => Client.not_pending (by rw [he]; rfl) i hp

theorem record_same (b : Books) {env : HubEnv} (hpc : ¬ (h.client c).pc.Records) :
    b.record h (.advance c env) = b := by
  unfold Books.record
  dsimp only
  split
  · rename_i he
    exact absurd (by rw [he]; trivial) hpc
  · rename_i he
    exact absurd (by rw [he]; trivial) hpc
  · rename_i he
    exact absurd (by rw [he]; trivial) hpc
  · rfl

/-- What a step of `c` does to what is left of itself. -/
theorem Act.holds (ha : Act h c (h.client c) op x' s') (hm : h.Mailboxes) (ho : h.Tidy op)
    (hx : (h.client c).Holds h.system.manager b (h.PendingElsewhere c) c) :
    x'.Holds s'.manager (b.record h op) (h.PendingElsewhere c) c := by
  have hstage := hm.toStaged.stage c
  have hnamed := (hm.placed c).named
  unfold Client.Stage at hstage
  unfold Client.Holds at hx
  cases ha with
  | answer hpc => rw [hpc] at hx; exact hx.goto nofun
  | join hpc hroom =>
    rw [hpc] at hx
    refine ⟨?_, hroom⟩
    rcases ho hpc (by rw [hroom]; exact Option.some_ne_none _) with hid | hclosed
    · exact hx.tied.clear_of_blank hm.noBlankRoom hnamed (.inr hid)
    · exact hx.left (.inl hclosed)
  | leave hpc =>
    rw [hpc] at hx
    exact Client.holds_handleLeave hx.tied hm.noBlankRoom hnamed false
  | hangUp hpc =>
    rw [hpc] at hx
    exact Client.holds_handleLeave hx.tied hm.noBlankRoom hnamed true
  | addPeer hpc =>
    rw [hpc] at hx
    simp only [Books.record, hpc]
    exact ⟨hx.1.addPeer _, hx.2⟩
  | @insert env room p hpc hfree =>
    rw [hpc] at hx
    simp only [Books.record, hpc, hfree, Bool.false_eq_true, if_false]
    exact hx.1.insert hx.2 (hm.noBlankRoom.ne hx.2) p
  | setPeerID hpc =>
    rw [hpc] at hx
    rw [record_same b (by rw [hpc]; exact id)]
    exact hx
  | setRoomID hpc =>
    rw [hpc] at hx hstage
    rw [record_same b (by rw [hpc]; exact id)]
    unfold Client.Holds
    dsimp only
    rw [hstage.2]
    exact hx
  | joined hpc hopen =>
    rw [hpc] at hx
    rw [record_same b (by rw [hpc]; exact id)]
    refine Books.Tied.rests ?_ ((Client.push_closed _ _).trans hopen) nofun
    rw [Client.push_roomID, Client.push_peerID]
    exact hx
  | reply hpc hopen =>
    rw [hpc] at hx
    rw [record_same b (by rw [hpc]; exact id)]
    refine Books.Tied.rests ?_ ((Client.push_closed _ _).trans hopen) nofun
    rw [Client.push_roomID, Client.push_peerID]
    exact hx.tied
  | panic hpc =>
    rcases hpc with ⟨_, _, hpc⟩ | ⟨_, hpc⟩
    · rw [hpc] at hx
      rw [record_same b (by rw [hpc]; exact id)]
      exact Client.holds_handleLeave hx hm.noBlankRoom hnamed true
    · rw [hpc] at hx
      rw [record_same b (by rw [hpc]; exact id)]
      exact Client.holds_handleLeave hx.tied hm.noBlankRoom hnamed true
  | sendPanic hpc _ _ hclosed =>
    rw [hm.visited_open hpc] at hclosed
    cases hclosed
  | renegotiate hpc | collect hpc =>
    rw [hpc] at hx
    rw [record_same b (by rw [hpc]; exact id)]
    exact hx.goto nofun
  | skip hpc =>
    rw [hpc] at hx
    rw [record_same b (by rw [hpc]; exact id)]
    obtain ⟨-, -, ⟨_, rfl, -⟩ | ⟨_, rfl, -⟩⟩ := hm.toStaged.broadcast hpc
    · exact hx.goto nofun
    · exact hx
  | sent hpc =>
    rw [hpc] at hx
    rw [record_same b (by rw [hpc]; exact id)]
    obtain ⟨-, -, ⟨_, rfl, rfl⟩ | ⟨_, rfl, rfl⟩⟩ := hm.toStaged.broadcast hpc
    · exact hx.goto nofun
    · exact hx
  | setupConsumers hpc hnext =>
    rw [hpc] at hx
    rw [record_same b (by rw [hpc]; exact id)]
    rcases hnext with rfl | ⟨_, rfl⟩ <;> exact hx.goto nofun
  | addConsumer hpc hm hnext =>
    rw [hpc] at hx
    rw [record_same b (by rw [hpc]; exact id)]
    rcases hnext with rfl | ⟨_, rfl⟩ <;> exact hx.goto nofun
  | noRoom hpc hroom =>
    rw [hpc] at hx
    rw [record_same b (by rw [hpc]; exact id)]
    refine hx.clear hroom ?_
    rintro ⟨u, hu, hpending⟩
    exact ho.2 _ hpc hroom u (pending_born hm.toStaged hpending) hu hpending
  | getRoom hpc hroom =>
    rw [hpc] at hx
    rw [record_same b (by rw [hpc]; exact id)]
    exact hx.found hroom
  | @delete env room last hpc =>
    rw [hpc] at hx
    rw [record_same b (by rw [hpc]; exact id)]
    split <;> exact hx.delete
  | deleteRoom hpc =>
    rw [hpc] at hx
    rw [record_same b (by rw [hpc]; exact id)]
    exact ⟨hx.owns, hx.due⟩
  | removePeer hpc =>
    rw [hpc] at hx
    simp only [Books.record, hpc]
    exact hx.removePeer
  | closeSend hpc =>
    rw [hpc] at hx
    rw [record_same b (by rw [hpc]; exact id)]
    cases ‹Bool› <;> exact ⟨hx.tied _ _ _, fun _ => hx⟩
  | _ hpc =>
    rw [hpc] at hx
    rw [record_same b (by rw [hpc]; exact id)]
    exact hx

/-- What a step of `c` does to what is left of another client. -/
theorem Act.shrinks (ha : Act h c (h.client c) op x' s') (ho : h.Tidy op) (ht : t ≠ c) :
    Shrinks h.system.manager b (h.client c).Pending s'.manager (b.record h op) x'.Pending t := by
  have hsame : (h.client c).pc.removing = false → ∀ j, (h.client c).Pending j → x'.Pending j :=
    fun hpc j hj => absurd hj (Client.not_pending hpc j)
  cases ha with
  -- a frame is no step of a handler: nothing is recorded
  | answer hpc | join hpc | leave hpc | hangUp hpc => exact .refl (hsame (by rw [hpc]; rfl))
  | addPeer hpc =>
    simp only [Books.record, hpc]
    exact shrinks_addPeer ht _ (Client.not_pending (by rw [hpc]; rfl))
  | @insert env room p hpc hfree =>
    simp only [Books.record, hpc, hfree, Bool.false_eq_true, if_false]
    exact shrinks_insert ht _ _ _ (Client.not_pending (by rw [hpc]; rfl))
  | panic hpc =>
    have hpc' : (h.client c).pc.removing = false ∧ ¬ (h.client c).pc.Records := by
      rcases hpc with ⟨_, _, hpc⟩ | ⟨_, hpc⟩ <;> (rw [hpc]; exact ⟨rfl, id⟩)
    rw [record_same b hpc'.2]
    exact .refl (hsame hpc'.1)
  | delete hpc =>
    rw [record_same b (by rw [hpc]; exact id)]
    refine shrinks_delete _ _ (Client.not_pending (by rw [hpc]; rfl)) ⟨?_, rfl⟩
    dsimp only
    split <;> rfl
  | deleteRoom hpc =>
    rw [record_same b (by rw [hpc]; exact id)]
    exact shrinks_deleteRoom (fun room => (ho.1 _ hpc).keys) fun j hj => ⟨rfl, hj.2⟩
  | removePeer hpc =>
    simp only [Books.record, hpc]
    exact shrinks_removePeer _ fun j hj => hj.2
  | _ hpc =>
    rw [record_same b (by rw [hpc]; exact id)]
    exact .refl (hsame (by rw [hpc]; rfl))

/-- The room that another client is about to join stays where it is. -/
theorem Act.rooms_joined (ha : Act h c (h.client c) op x' s') (ho : h.Tidy op) (hs : h.Staged)
    {r : String} {room : RoomRef} (hj : (h.client t).pc.joins room = true)
    (hroom : h.system.manager.rooms r = some room) : s'.manager.rooms r = some room := by
  cases ha with
  | deleteRoom hpc =>
    refine Manager.rooms_deleteRoom.2 ⟨?_, hroom⟩
    intro he
    rw [he] at hroom
    rw [(ho.1 _ hpc).not_joins hs hroom t] at hj
    cases hj
  | _ => exact hroom

/-- What a step of another client does to the ids that are about to be removed elsewhere. -/
theorem pendingElsewhere_cases {i : String} (hp : h.PendingElsewhere t i) (c : ClientRef) :
    (h.client c).Pending i ∨ ∃ u, u ≠ t ∧ u ≠ c ∧ (h.client u).Pending i := by
  obtain ⟨u, hu, hpending⟩ := hp
  by_cases huc : u = c
  · exact .inl (huc ▸ hpending)
  · exact .inr ⟨u, hu, huc, hpending⟩

theorem PendingElsewhere.congr {i : String} (hp : h.PendingElsewhere t i)
    (hx : ∀ u, u ≠ t → (h.client u).Pending i → (h'.client u).Pending i) :
    h'.PendingElsewhere t i :=
  hp.imp fun u hu => ⟨hu.1, hx u hu.1 hu.2⟩

end Hub

/-! ## Runs -/

/-- A hub, and what its connections have made. -/
structure Tracked where
  hub : Hub := {}
  books : Books := {}

namespace Tracked

open Hub

variable {l : Tracked} {op : HubOp} {c t : ClientRef}

/-- A step of the hub, and what it adds to the books. -/
def step (l : Tracked) (op : HubOp) : Tracked :=
  { hub := l.hub.step op, books := l.books.record l.hub op }

/-- Of every connection no more is left than what its goroutine is to remove. -/
structure Kept (l : Tracked) : Prop extends Mailboxes l.hub where
  refs : ∀ r room, l.hub.system.manager.rooms r = some room → room < l.hub.system.manager.nextRoom
  holds : ∀ t,
    (l.hub.client t).Holds l.hub.system.manager l.books (l.hub.PendingElsewhere t) t

theorem record_wait (b : Books) {h : Hub}
    (hwait : ∀ c env, op = .advance c env → h.Waits (h.client c).pc) : b.record h op = b := by
  cases op with
  | advance c env =>
    have hpc := hwait c env rfl
    simp only [Books.record]
    split
    · rename_i he
      rw [he] at hpc
      exact hpc.elim
    · rename_i he
      rw [he] at hpc
      exact if_pos hpc
    · rename_i he
      rw [he] at hpc
      exact hpc.elim
    · rfl
  | _ => rfl

theorem refs_step {h : Hub} (op : HubOp)
    (hr : ∀ r room, h.system.manager.rooms r = some room → room < h.system.manager.nextRoom) :
    ∀ r room, (h.step op).system.manager.rooms r = some room →
      room < (h.step op).system.manager.nextRoom := by
  have hmoves := h.moves op
  generalize h.step op = h' at hmoves
  cases hmoves with
  | createRoom hs =>
    subst hs
    intro r room hroom
    rcases Manager.rooms_createRoom.1 hroom with ⟨-, rfl⟩ | ⟨-, hroom⟩
    · exact Nat.lt_succ_self _
    · exact Nat.lt_succ_of_lt (hr r room hroom)
  | act ha =>
    cases ha with
    | deleteRoom => exact fun r room hroom => hr r room (Manager.rooms_deleteRoom.1 hroom).2
    | _ => exact hr
  | _ => exact hr

/-- A step that changes neither the rooms nor the books, and no client beyond what it holds. -/
theorem Kept.frame (hc : Kept l) {h' : Hub} (hm : h'.Mailboxes)
    (hsys : h'.system.manager = l.hub.system.manager)
    (hpending : ∀ t j, (l.hub.client t).Pending j → (h'.client t).Pending j)
    (hx : ∀ t, (l.hub.client t).Holds l.hub.system.manager l.books (l.hub.PendingElsewhere t) t →
      (h'.client t).Holds l.hub.system.manager l.books (l.hub.PendingElsewhere t) t) :
    Kept ⟨h', l.books⟩ := by
  refine ⟨hm, ?_, fun t => ?_⟩
  · dsimp only
    rw [hsys]
    exact hc.refs
  · dsimp only
    rw [hsys]
    exact (hx t (hc.holds t)).mono (.refl fun j hj => hj.congr fun u _ => hpending u j)
      fun _ _ _ hr => hr

theorem Kept.frame_follows (hc : Kept l) {h' : Hub} (hm : h'.Mailboxes)
    (hsys : h'.system.manager = l.hub.system.manager)
    (hx : ∀ t, (l.hub.client t).Follows (h'.client t)) : Kept ⟨h', l.books⟩ :=
  hc.frame hm hsys (fun t _ hj => hj.congr (hx t)) fun t ht => ht.congr (hx t)

theorem Kept.createRoom (hc : Kept l) {name : String} {k : Fin 900000}
    (ho : l.hub.Tidy (.createRoom name k)) {s : System}
    (hs : s = { l.hub.system with manager := (l.hub.system.manager.createRoom name k).1 })
    (hm : ({ l.hub with system := s } : Hub).Mailboxes)
    (hrefs : ∀ r room, s.manager.rooms r = some room → room < s.manager.nextRoom) :
    Kept ⟨{ l.hub with system := s }, l.books⟩ := by
  have hv : l.hub.Vacant (Manager.drawRoomId k) := ho
  have hman : s.manager = (l.hub.system.manager.createRoom name k).1 := by rw [hs]
  refine ⟨hm, hrefs, fun t => ?_⟩
  dsimp only
  rw [hman]
  refine (hc.holds t).mono (shrinks_createRoom hc.refs fun room => hv.keys) fun r room hj hroom => ?_
  refine Manager.rooms_createRoom.2 (.inr ⟨?_, hroom⟩)
  intro he
  rw [he] at hroom
  rw [hv.not_joins hc.toStaged hroom t] at hj
  cases hj

theorem Kept.act (hc : Kept l) {x : Client} {s : System}
    (ha : Act l.hub c (l.hub.client c) op x s) (ho : l.hub.Tidy op)
    (hm : ({ l.hub with system := s, client := update l.hub.client c x } : Hub).Mailboxes)
    (hrefs : ∀ r room, s.manager.rooms r = some room → room < s.manager.nextRoom) :
    Kept ⟨{ l.hub with system := s, client := update l.hub.client c x },
      l.books.record l.hub op⟩ := by
  refine ⟨hm, hrefs, fun t => ?_⟩
  by_cases ht : t = c
  · subst ht
    simp only [Function.update_self]
    refine (ha.holds hc.toMailboxes ho (hc.holds t)).mono (.refl fun j hj => ?_) fun _ _ _ hr => hr
    refine hj.congr fun u hu hp => ?_
    simp only [Function.update_of_ne hu]
    exact hp
  · simp only [Function.update_of_ne ht]
    refine (hc.holds t).mono ((ha.shrinks ho ht).pending_of
      (fun j hj => (pendingElsewhere_cases hj c).imp_right ?_) fun j hj => ?_)
      fun r room => ha.rooms_joined ho hc.toStaged
    · rintro ⟨u, hu, huc, hp⟩
      refine ⟨u, hu, ?_⟩
      simp only [Function.update_of_ne huc]
      exact hp
    · refine ⟨c, Ne.symm ht, ?_⟩
      simp only [Function.update_self]
      exact hj

theorem Kept.serveWS (hc : Kept l)
    (hm : ({ l.hub with
      clients := ListFacts.setKey l.hub.clients l.hub.nextClient true
      client := update l.hub.client l.hub.nextClient { pc := .readMessage }
      nextClient := l.hub.nextClient + 1 } : Hub).Mailboxes) :
    Kept ⟨{ l.hub with
      clients := ListFacts.setKey l.hub.clients l.hub.nextClient true
      client := update l.hub.client l.hub.nextClient { pc := .readMessage }
      nextClient := l.hub.nextClient + 1 }, l.books⟩ := by
  have hborn : l.hub.client l.hub.nextClient = {} := hc.unborn _ le_rfl
  refine hc.frame hm rfl (fun t j hj => ?_) fun t hholds => ?_
  · by_cases hn : t = l.hub.nextClient
    · rw [hn, hborn] at hj
      cases hj.1
    · simp only [Function.update_of_ne hn]
      exact hj
  · by_cases hn : t = l.hub.nextClient
    · subst hn
      rw [hborn] at hholds
      simp only [Function.update_self]
      exact Books.Rests.born hholds
    · simp only [Function.update_of_ne hn]
      exact hholds

theorem Kept.step (hc : Kept l) (ho : l.hub.Tidy op) : Kept (l.step op) := by
  have hm' := hc.toMailboxes.step op
  have hrefs := refs_step op hc.refs
  have hmoves := l.hub.moves op
  simp only [Tracked.step]
  generalize l.hub.step op = h' at hm' hrefs hmoves
  cases hmoves with
  | stay hwait =>
    rw [record_wait l.books hwait]
    exact hc
  | createRoom hsys => exact hc.createRoom ho hsys hm' hrefs
  | packet m hm => exact hc.frame_follows hm' rfl fun _ => .refl _
  | serveWS => exact hc.serveWS hm'
  | write hsend => exact hc.frame_follows hm' rfl (Client.follows_update (Client.follows_write hsend))
  | act ha => exact hc.act ha ho hm' hrefs
  | @visit u env roomId msg t todo next hpc hroom hne hopen =>
    rw [record_same l.books (by rw [hpc]; exact id)]
    have hpushed := Client.follows_update (f := l.hub.client) ((l.hub.client t).follows_push msg)
    refine hc.frame hm' rfl (fun v j hj => ?_) fun v hholds => ?_
    · by_cases hv : v = u
      · rw [hv] at hj
        exact absurd hj (Client.not_pending (by rw [hpc]; rfl) j)
      · simp only [Function.update_of_ne hv]
        exact hj.congr (hpushed v)
    · by_cases hv : v = u
      · subst hv
        simp only [Function.update_self]
        unfold Client.Holds at hholds
        rw [hpc] at hholds
        obtain ⟨-, -, ⟨_, rfl, -⟩ | ⟨_, rfl, -⟩⟩ := hc.toStaged.broadcast hpc
        · exact hholds.goto nofun
        · exact hholds
      · simp only [Function.update_of_ne hv]
        exact hholds.congr (hpushed v)
  | @unregister u env last hpc hfree =>
    rw [record_same l.books (by rw [hpc]; exact id)]
    refine hc.frame hm' rfl (fun v j hj => ?_) fun v hholds => ?_
    · by_cases hv : v = u
      · rw [hv] at hj
        exact absurd hj (Client.not_pending (by rw [hpc]; rfl) j)
      · simp only [goto, modifyClient_ne hv]
        exact hj
    · by_cases hv : v = u
      · subst hv
        unfold Client.Holds at hholds
        rw [hpc] at hholds
        rw [goto_client]
        exact hholds
      · simp only [goto, modifyClient_ne hv]
        exact hholds

/-- Of a connection that has ended nothing is left: no participant it has made is in a room, and
`RemovePeer` has been called for every peer it has made. -/
def LeavesNothing (l : Tracked) : Prop := ∀ c < l.hub.nextClient, (l.hub.client c).pc = .ended →
  (∀ room, ∀ id ∈ (l.hub.system.manager.heap room).participants.map Prod.fst,
    l.books.owner room id ≠ some c) ∧ ∀ id, (c, id) ∉ l.books.due

theorem Kept.leavesNothing (hc : Kept l) : LeavesNothing l := by
  intro t ht hpc
  have hholds := hc.holds t
  unfold Client.Holds at hholds
  rw [hpc] at hholds
  have hclear := hholds.left (.inr hpc)
  exact ⟨hclear.owns, hclear.due⟩

theorem kept_start : Kept {} where
  toMailboxes := mailboxes_start
  refs _ _ hr := by cases hr
  holds _ := ⟨⟨fun _ _ hj => (by cases hj), fun _ hj => (by cases hj)⟩,
    fun _ => ⟨fun _ _ hj => (by cases hj), fun _ hj => (by cases hj)⟩⟩

/-- **When nothing is left behind**: in every interleaving whose steps are tidy. -/
theorem disconnect_clean (ops : List HubOp)
    (htidy : Runs.Meets step (fun l => l.hub.Tidy) {} ops) :
    Runs.Always step LeavesNothing {} ops :=
  (Runs.always_of_inv (fun _ _ hc ho => hc.step ho) kept_start htidy).mono
    fun _ hc => hc.leavesNothing

/-- Two clients join at the same time, and hang up at the same time. -/
def joinTogether : List HubOp :=
  [Logged.roomMade, .serveWS, .serveWS, .message 0 (fun _ _ v => (none, v)) (.join "100000" "a"),
    .message 1 (fun _ _ v => (none, v)) (.join "100000" "b")] ++
    (List.replicate 18 [.advance 0 (Logged.quietEnv 1), .advance 1 (Logged.quietEnv 2)]).flatten ++
    [.hangUp 0, .hangUp 1] ++
    (List.replicate 12 [.advance 0 (Logged.quietEnv 0), .advance 1 (Logged.quietEnv 0)]).flatten

theorem disconnect_clean_joinTogether : Runs.Always step LeavesNothing {} joinTogether :=
  disconnect_clean joinTogether (by decide)

/-- A client joins twice, and hangs up. -/
def joinTwice : List HubOp :=
  [Logged.roomMade, .serveWS, .message 0 (fun _ _ v => (none, v)) (.join "100000" "")] ++
    List.replicate 13 (.advance 0 (Logged.quietEnv 1)) ++
    .message 0 (fun _ _ v => (none, v)) (.join "100000" "") ::
    List.replicate 17 (.advance 0 (Logged.quietEnv 2)) ++
    .hangUp 0 :: List.replicate 11 (.advance 0 (Logged.quietEnv 0))

/-- The participant of the first join is still there when the connection has ended. -/
theorem joinTwice_leaves : Runs.Meets step (fun l => l.hub.InTurn) {} joinTwice ∧
    ¬ Runs.Always step LeavesNothing {} joinTwice := by
  refine ⟨by decide, fun h => ?_⟩
  obtain ⟨howns, -⟩ := h.last 0 (by decide) (by decide)
  exact howns 0 "peer_1" (by decide) (by decide)

end Tracked

end Namecon
