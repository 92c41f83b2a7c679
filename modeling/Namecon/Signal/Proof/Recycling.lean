import Namecon.Signal.Recycling

/-!
# When a room is recycled

`RemoveParticipant` sees that the room is empty in one critical section and takes it out of
`m.rooms` in another. `participants_kept_iff`: the participants that have been added and not removed
can be reached through the room id exactly in the runs in which a room is taken out only when no
`AddParticipant` has found it that is not done with it, and all its participants are being removed.
-/

namespace Namecon

open Function (update)

namespace RoomCall

/-- The call removes `p`. -/
def Removes (p : String) : RoomCall → Prop
  | .delete _ q | .deleteRoom q | .removePeer q => q = p
  | _ => False

/-- The call is about to insert `p`. -/
def Inserts (p : String) : RoomCall → Prop
  | .insert _ q => q.id = p
  | _ => False

/-- An `AddParticipant` that has found the room, and no peer yet. -/
def IsAddPeer : RoomCall → Prop
  | .addPeer _ _ => True
  | _ => False

/-- A `RemoveParticipant` that has seen the room empty and not taken it out yet. -/
def IsDeleteRoom : RoomCall → Prop
  | .deleteRoom _ => True
  | _ => False

/-- The room the call has found, where it still uses it. -/
def Uses (room : RoomRef) : RoomCall → Prop
  | .addPeer _ room' | .insert room' _ | .delete room' _ => room' = room
  | _ => True

end RoomCall

namespace RoomCalls

/-! ## What a step can do -/

/-- What a step can do, by the call that goes on. -/
inductive Moves (roomId : String) (s : RoomCalls) : RoomCallOp → RoomCalls → Prop
  | stay {op} (h : ∀ i info n, op = .advance i info n → s.call i = .returned) :
    Moves roomId s op s
  | addParticipant {username room} (hroom : s.system.manager.rooms roomId = some room) :
    Moves roomId s (.addParticipant username) (s.newCall (.addPeer username room))
  | removeParticipant {peerId room} (hroom : s.system.manager.rooms roomId = some room) :
    Moves roomId s (.removeParticipant peerId) (s.newCall (.delete room peerId))
  | addPeer {i info n username room} (m : MediaServer) (p : Participant)
      (hc : s.call i = .addPeer username room) (hid : p.id = Manager.drawPeerId n) :
    Moves roomId s (.advance i info n)
      { s with
        system := { s.system with media := m }
        call := update s.call i (.insert room p) }
  | insert {i info n room p} (hc : s.call i = .insert room p) :
    Moves roomId s (.advance i info n)
      { s with
        system := { s.system with manager := s.system.manager.setParticipant room p.id p }
        call := update s.call i .returned
        added := p.id :: s.added }
  | delete {i info n room q c} (hc : s.call i = .delete room q)
      (hnext : c = .deleteRoom q ∨ c = .removePeer q) :
    Moves roomId s (.advance i info n)
      { s with
        system := { s.system with manager := s.system.manager.deleteParticipant room q }
        call := update s.call i c }
  | deleteRoom {i info n q} (hc : s.call i = .deleteRoom q) :
    Moves roomId s (.advance i info n)
      { s with
        system := { s.system with manager := s.system.manager.deleteRoom roomId }
        call := update s.call i (.removePeer q) }
  | removePeer {i info n q} (m : MediaServer) (hc : s.call i = .removePeer q) :
    Moves roomId s (.advance i info n)
      { s with
        system := { s.system with media := m }
        call := update s.call i .returned
        removed := q :: s.removed }

theorem moves (roomId : String) (s : RoomCalls) (op : RoomCallOp) :
    Moves roomId s op (s.step roomId op) := by
  cases op with
  | addParticipant username =>
    simp only [step, Manager.getRoom]
    cases hr : s.system.manager.rooms roomId with
    | none => exact .stay fun _ _ _ he => by cases he
    | some room => exact .addParticipant hr
  | removeParticipant peerId =>
    simp only [step, Manager.getRoom]
    cases hr : s.system.manager.rooms roomId with
    | none => exact .stay fun _ _ _ he => by cases he
    | some room => exact .removeParticipant hr
  | advance i info n =>
    simp only [step, advance]
    cases hc : s.call i with
    | addPeer username room => exact .addPeer _ _ hc rfl
    | insert room p => exact .insert hc
    | delete room q =>
      refine .delete hc ?_
      split
      · exact .inl rfl
      · exact .inr rfl
    | deleteRoom q => exact .deleteRoom hc
    | removePeer q => exact .removePeer _ hc
    | returned =>
      refine .stay fun j _ _ h => ?_
      cases h
      exact hc

/-! ## Who is leaving, and who is there -/

section
variable {s : RoomCalls} {op : RoomCallOp} {roomId p : String}

/-- A `RemoveParticipant` of `p` has found the room. -/
def Leaving (s : RoomCalls) (p : String) : Prop := p ∈ s.removed ∨ ∃ i, (s.call i).Removes p

/-- `AddParticipant` has made the peer `p`. -/
def Made (s : RoomCalls) (p : String) : Prop := p ∈ s.added ∨ ∃ i, (s.call i).Inserts p

/-- What holds in every run from a single room, which is the object 0. -/
structure OneRoom (roomId : String) (s : RoomCalls) : Prop where
  unborn : ∀ i, s.nextCall ≤ i → s.call i = .returned
  room : ∀ room, s.system.manager.rooms roomId = some room → room = 0
  uses : ∀ i, (s.call i).Uses 0
  placed : ∀ p ∈ s.added, s.Leaving p ∨
    p ∈ (s.system.manager.heap 0).participants.map Prod.fst

/-- What one call does to a set of peers, spread over a list and the calls. -/
theorem or_exists_update {f : Nat → RoomCall} {Q : RoomCall → Prop} {a a' : Prop} {i : Nat}
    {c : RoomCall} (h : a' ∨ Q c ↔ a ∨ Q (f i)) :
    (a' ∨ ∃ j, Q (update f i c j)) ↔ a ∨ ∃ j, Q (f j) := by
  have hsplit : (∃ j, Q (f j)) ↔ Q (f i) ∨ ∃ j ≠ i, Q (f j) := by
    have he := Function.exists_update_iff f (a := i) (b := f i) fun _ => Q
    rwa [Function.update_eq_self] at he
  rw [Function.exists_update_iff f fun _ => Q, hsplit, ← or_assoc, ← or_assoc, h]

theorem leaving_step (hs : OneRoom roomId s)
    (hop : s.system.manager.rooms roomId = none ∨ ∃ i info n, op = .advance i info n) :
    (s.step roomId op).Leaving p ↔ s.Leaving p := by
  have hmoves := moves roomId s op
  generalize s.step roomId op = s' at hmoves
  cases hmoves with
  | stay => exact Iff.rfl
  | addParticipant =>
    refine or_exists_update (Q := RoomCall.Removes p) ?_
    rw [hs.unborn _ le_rfl]
    exact Iff.rfl
  | removeParticipant hroom =>
    rcases hop with hnone | ⟨_, _, _, he⟩
    · rw [hnone] at hroom
      cases hroom
    · cases he
  | addPeer m p hc => exact or_exists_update (by rw [hc]; exact Iff.rfl)
  | insert hc => exact or_exists_update (by rw [hc]; exact Iff.rfl)
  | delete hc hnext =>
    refine or_exists_update ?_
    rw [hc]
    rcases hnext with rfl | rfl <;> exact Iff.rfl
  | deleteRoom hc => exact or_exists_update (by rw [hc]; exact Iff.rfl)
  | removePeer m hc =>
    refine or_exists_update ?_
    rw [hc, List.mem_cons]
    show (p = _ ∨ p ∈ s.removed) ∨ False ↔ p ∈ s.removed ∨ _ = p
    rw [or_false, or_comm, eq_comm]

theorem Leaving.step (hs : OneRoom roomId s) (hp : s.Leaving p) (op : RoomCallOp) :
    (s.step roomId op).Leaving p := by
  by_cases hop : s.system.manager.rooms roomId = none ∨ ∃ i info n, op = .advance i info n
  · exact (leaving_step hs hop).2 hp
  · have hmoves := moves roomId s op
    generalize s.step roomId op = s' at hmoves
    cases hmoves with
    | stay => exact hp
    | addParticipant =>
      refine (or_exists_update (Q := RoomCall.Removes p) ?_).2 hp
      rw [hs.unborn _ le_rfl]
      exact Iff.rfl
    | removeParticipant =>
      refine hp.imp_right fun ⟨j, hj⟩ => ⟨j, ?_⟩
      have hne : j ≠ s.nextCall := fun he => by
        rw [hs.unborn j (Nat.le_of_eq he.symm)] at hj
        exact hj
      show RoomCall.Removes p (update s.call s.nextCall _ j)
      rw [Function.update_of_ne hne]
      exact hj
    | _ => exact absurd (.inr ⟨_, _, _, rfl⟩) hop

/-- A peer is made by the RPC alone. -/
theorem made_step (hs : OneRoom roomId s)
    (hop : ∀ i info n, op = .advance i info n → ¬ (s.call i).IsAddPeer) :
    (s.step roomId op).Made p ↔ s.Made p := by
  have hmoves := moves roomId s op
  generalize s.step roomId op = s' at hmoves
  cases hmoves with
  | stay => exact Iff.rfl
  | addParticipant =>
    refine or_exists_update (Q := RoomCall.Inserts p) ?_
    rw [hs.unborn _ le_rfl]
    exact Iff.rfl
  | removeParticipant =>
    refine or_exists_update (Q := RoomCall.Inserts p) ?_
    rw [hs.unborn _ le_rfl]
    exact Iff.rfl
  | addPeer m p hc => exact absurd (by rw [hc]; trivial) (hop _ _ _ rfl)
  | insert hc =>
    refine or_exists_update ?_
    rw [hc, List.mem_cons]
    show (p = _ ∨ p ∈ s.added) ∨ False ↔ p ∈ s.added ∨ _ = p
    rw [or_false, or_comm, eq_comm]
  | delete hc hnext =>
    refine or_exists_update ?_
    rw [hc]
    rcases hnext with rfl | rfl <;> exact Iff.rfl
  | deleteRoom hc => exact or_exists_update (by rw [hc]; exact Iff.rfl)
  | removePeer m hc => exact or_exists_update (by rw [hc]; exact Iff.rfl)

theorem OneRoom.unborn_step (hs : OneRoom roomId s) (op : RoomCallOp) :
    ∀ i, (s.step roomId op).nextCall ≤ i → (s.step roomId op).call i = .returned := by
  have hupdate : ∀ {j c}, s.call j ≠ .returned → ∀ i, s.nextCall ≤ i →
      update s.call j c i = .returned := fun {j c} hj i hi => by
    have hne : i ≠ j := fun he => hj (hs.unborn j (he ▸ hi))
    rw [Function.update_of_ne hne]
    exact hs.unborn i hi
  have hnew : ∀ {c} i, s.nextCall + 1 ≤ i → update s.call s.nextCall c i = .returned :=
    fun {c} i hi => by
      rw [Function.update_of_ne (by omega)]
      exact hs.unborn i (by omega)
  have hmoves := moves roomId s op
  generalize s.step roomId op = s' at hmoves
  cases hmoves with
  | stay => exact hs.unborn
  | addParticipant => exact hnew
  | removeParticipant => exact hnew
  | addPeer m p hc => exact hupdate (by rw [hc]; nofun)
  | insert hc => exact hupdate (by rw [hc]; nofun)
  | delete hc => exact hupdate (by rw [hc]; nofun)
  | deleteRoom hc => exact hupdate (by rw [hc]; nofun)
  | removePeer m hc => exact hupdate (by rw [hc]; nofun)

theorem OneRoom.room_step (hs : OneRoom roomId s) (op : RoomCallOp) :
    ∀ room, (s.step roomId op).system.manager.rooms roomId = some room → room = 0 := by
  have hmoves := moves roomId s op
  generalize s.step roomId op = s' at hmoves
  cases hmoves with
  | deleteRoom =>
    intro room hroom
    simp only [Manager.deleteRoom, Function.update_self] at hroom
    cases hroom
  | _ => exact hs.room

theorem OneRoom.uses_step (hs : OneRoom roomId s) (op : RoomCallOp) :
    ∀ i, ((s.step roomId op).call i).Uses 0 := by
  have hupdate : ∀ {j c}, c.Uses 0 → ∀ i, (update s.call j c i).Uses 0 := fun {j c} hc =>
    (Function.forall_update_iff s.call fun _ c => c.Uses 0).2 ⟨hc, fun i _ => hs.uses i⟩
  have hmoves := moves roomId s op
  generalize s.step roomId op = s' at hmoves
  cases hmoves with
  | stay => exact hs.uses
  | addParticipant hroom => exact hupdate (hs.room _ hroom)
  | removeParticipant hroom => exact hupdate (hs.room _ hroom)
  | @addPeer i info n username room m p hc =>
    have huses := hs.uses i
    rw [hc] at huses
    exact hupdate huses
  | insert => exact hupdate trivial
  | delete hc hnext => rcases hnext with rfl | rfl <;> exact hupdate trivial
  | deleteRoom => exact hupdate trivial
  | removePeer => exact hupdate trivial

theorem OneRoom.placed_step (hs : OneRoom roomId s) (op : RoomCallOp) :
    ∀ p ∈ (s.step roomId op).added, (s.step roomId op).Leaving p ∨
      p ∈ ((s.step roomId op).system.manager.heap 0).participants.map Prod.fst := by
  have hleaving : ∀ {p}, s.Leaving p → (s.step roomId op).Leaving p := fun hp => hp.step hs op
  have hmoves := moves roomId s op
  generalize s.step roomId op = s' at hmoves hleaving
  cases hmoves with
  | @insert i info n room q hc =>
    obtain rfl : room = 0 := by
      have huses := hs.uses i
      rw [hc] at huses
      exact huses
    intro p hp
    simp only [Manager.setParticipant, Function.update_self, ListFacts.mem_keys_setKey]
    rcases List.mem_cons.1 hp with rfl | hp
    · exact .inr (.inr rfl)
    · exact (hs.placed p hp).imp hleaving .inl
  | @delete i info n room q c hc hnext =>
    obtain rfl : room = 0 := by
      have huses := hs.uses i
      rw [hc] at huses
      exact huses
    intro p hp
    simp only [Manager.deleteParticipant, Function.update_self, ListFacts.mem_keys_eraseKey]
    by_cases hq : p = q
    · exact .inl (hleaving (.inr ⟨i, by rw [hc]; exact hq.symm⟩))
    · exact (hs.placed p hp).imp hleaving fun hin => ⟨hin, hq⟩
  | _ => exact fun p hp => (hs.placed p hp).imp_left hleaving

theorem OneRoom.step (hs : OneRoom roomId s) (op : RoomCallOp) :
    OneRoom roomId (s.step roomId op) :=
  ⟨hs.unborn_step op, hs.room_step op, hs.uses_step op, hs.placed_step op⟩

/-! ## Calls that nothing comes between -/

theorem advance_returned {i : Nat} (hc : s.call i = .returned) (info : ServerInfo)
    (n : Fin 99999) : s.step roomId (.advance i info n) = s := by
  simp only [RoomCalls.step, advance, hc]

theorem addParticipant_alone (hs : OneRoom roomId s) (username : String) (info : ServerInfo)
    (n : Fin 99999) :
    (Runs.exec (step roomId) s (.addParticipant username ::
      List.replicate 2 (.advance s.nextCall info n))).system =
        (s.system.addParticipant info roomId username n).1 := by
  have hnew := hs.unborn s.nextCall le_rfl
  cases hroom : s.system.manager.rooms roomId with
  | none =>
    have hstay : s.step roomId (.addParticipant username) = s := by
      simp only [RoomCalls.step, Manager.getRoom, hroom]
    simp only [List.replicate, Runs.exec_cons, Runs.exec_nil, hstay, advance_returned hnew,
      System.addParticipant, Manager.getRoom, hroom]
  | some room =>
    simp only [List.replicate, Runs.exec_cons, Runs.exec_nil, RoomCalls.step, advance, newCall,
      setCall, setMedia, setManager, System.addParticipant, Manager.getRoom, hroom,
      Function.update_self]
    rfl

theorem removeParticipant_alone (hs : OneRoom roomId s) (peerId : String) (info : ServerInfo)
    (n : Fin 99999) :
    (Runs.exec (step roomId) s (.removeParticipant peerId ::
      List.replicate 3 (.advance s.nextCall info n))).system =
        (s.system.removeParticipant roomId peerId).1 := by
  have hnew := hs.unborn s.nextCall le_rfl
  cases hroom : s.system.manager.rooms roomId with
  | none =>
    have hstay : s.step roomId (.removeParticipant peerId) = s := by
      simp only [RoomCalls.step, Manager.getRoom, hroom]
    simp only [List.replicate, Runs.exec_cons, Runs.exec_nil, hstay, advance_returned hnew,
      System.removeParticipant, Manager.getRoom, hroom]
  | some room =>
    cases hempty : ((s.system.manager.deleteParticipant room peerId).heap
      room).participants.isEmpty <;>
    simp only [List.replicate, Runs.exec_cons, Runs.exec_nil, RoomCalls.step, advance, newCall,
      setCall, setMedia, setManager, System.removeParticipant, Manager.getRoom, hroom, hempty,
      Function.update_self, if_true, Bool.false_eq_true, if_false]

/-! ## The condition -/

/-- No `AddParticipant` has found the room and no peer yet, and every peer that has been made is
being removed. -/
def Unused (s : RoomCalls) : Prop := (∀ i, ¬ (s.call i).IsAddPeer) ∧ ∀ p, s.Made p → s.Leaving p

/-- A step that takes the room out of `m.rooms` finds it unused. -/
def DeletesUnused (s : RoomCalls) : RoomCallOp → Prop
  | .advance i _ _ => (s.call i).IsDeleteRoom → s.Unused
  | _ => True

/-- An `AddPeer` draws an id that has not been drawn, and that no call names. -/
def FreshPeer (s : RoomCalls) : RoomCallOp → Prop
  | .advance i _ n => (s.call i).IsAddPeer →
    (Manager.drawPeerId n ∉ s.added ∧ Manager.drawPeerId n ∉ s.removed) ∧
      ∀ j < s.nextCall, ¬ (s.call j).Inserts (Manager.drawPeerId n) ∧
        ¬ (s.call j).Removes (Manager.drawPeerId n)
  | _ => True

instance (c : RoomCall) : Decidable c.IsAddPeer :=
  match c with
  | .addPeer _ _ => .isTrue trivial
  | .insert _ _ | .delete _ _ | .deleteRoom _ | .removePeer _ | .returned => .isFalse id

instance (c : RoomCall) (p : String) : Decidable (c.Inserts p) :=
  match c with
  | .insert _ q => inferInstanceAs (Decidable (q.id = p))
  | .addPeer _ _ | .delete _ _ | .deleteRoom _ | .removePeer _ | .returned => .isFalse id

instance (c : RoomCall) (p : String) : Decidable (c.Removes p) :=
  match c with
  | .delete _ q | .deleteRoom q | .removePeer q => inferInstanceAs (Decidable (q = p))
  | .addPeer _ _ | .insert _ _ | .returned => .isFalse id

instance (s : RoomCalls) (op : RoomCallOp) : Decidable (s.FreshPeer op) :=
  match op with
  | .advance i _ n => inferInstanceAs (Decidable ((s.call i).IsAddPeer →
      (Manager.drawPeerId n ∉ s.added ∧ Manager.drawPeerId n ∉ s.removed) ∧
        ∀ j < s.nextCall, ¬ (s.call j).Inserts (Manager.drawPeerId n) ∧
          ¬ (s.call j).Removes (Manager.drawPeerId n)))
  | .addParticipant _ | .removeParticipant _ => .isTrue trivial

/-- Where the room is gone, nobody needs it. -/
def Sound (roomId : String) (s : RoomCalls) : Prop :=
  s.system.manager.rooms roomId = none → s.Unused

theorem FreshPeer.not_leaving (hs : OneRoom roomId s) {i : Nat} {info : ServerInfo}
    {n : Fin 99999} (hf : s.FreshPeer (.advance i info n)) (hc : (s.call i).IsAddPeer) :
    ¬ s.Leaving (Manager.drawPeerId n) := by
  obtain ⟨⟨-, hremoved⟩, hcalls⟩ := hf hc
  intro h
  rcases h with hin | ⟨j, hj⟩
  · exact hremoved hin
  · by_cases hlt : j < s.nextCall
    · exact (hcalls j hlt).2 hj
    · rw [hs.unborn j (Nat.not_lt.1 hlt)] at hj
      exact hj

/-- An unused room stays unused, as long as it cannot be found. -/
theorem Unused.step (hs : OneRoom roomId s) (hu : s.Unused)
    (hop : s.system.manager.rooms roomId = none ∨ ∃ i info n, op = .advance i info n) :
    (s.step roomId op).Unused := by
  refine ⟨?_, fun p hp => ?_⟩
  · have hupdate : ∀ {j c}, ¬ c.IsAddPeer → ∀ i, ¬ (update s.call j c i).IsAddPeer :=
      fun {j c} hc =>
        (Function.forall_update_iff s.call fun _ c => ¬ c.IsAddPeer).2 ⟨hc, fun i _ => hu.1 i⟩
    have hmoves := moves roomId s op
    generalize s.step roomId op = s' at hmoves
    cases hmoves with
    | stay => exact hu.1
    | addParticipant hroom =>
      rcases hop with hnone | ⟨_, _, _, he⟩
      · rw [hnone] at hroom
        cases hroom
      · cases he
    | delete hc hnext => rcases hnext with rfl | rfl <;> exact hupdate id
    | _ => exact hupdate id
  · rw [leaving_step hs hop]
    exact hu.2 p ((made_step hs fun i _ _ _ => hu.1 i).1 hp)

/-- A step changes no call but its own. -/
theorem call_step {i : Nat} (hi : i < s.nextCall) (hne : ∀ info n, op ≠ .advance i info n) :
    (s.step roomId op).call i = s.call i := by
  have hmoves := moves roomId s op
  generalize s.step roomId op = s' at hmoves
  have hupdate : ∀ {j c info n}, op = .advance j info n → update s.call j c i = s.call i :=
    fun {j c info n} hop => Function.update_of_ne (fun he => hne info n (by rw [he]; exact hop)) _ _
  cases hmoves with
  | stay => rfl
  | addParticipant => exact Function.update_of_ne (Nat.ne_of_lt hi) _ _
  | removeParticipant => exact Function.update_of_ne (Nat.ne_of_lt hi) _ _
  | _ => exact hupdate rfl

/-- A room in use stays in use. -/
theorem Unused.of_step (hs : OneRoom roomId s) (hf : s.FreshPeer op)
    (hop : s.system.manager.rooms roomId = none ∨ ∃ i info n, op = .advance i info n)
    (hu : (s.step roomId op).Unused) : s.Unused := by
  by_cases hadd : ∃ i info n, op = .advance i info n ∧ (s.call i).IsAddPeer
  · -- the peer that is made now is not being removed
    obtain ⟨i, info, n, rfl, hc⟩ := hadd
    refine absurd ((leaving_step hs hop).1 (hu.2 _ (.inr ⟨i, ?_⟩))) (hf.not_leaving hs hc)
    simp only [RoomCalls.step, advance]
    split
    · simp only [setCall, Function.update_self]
      rfl
    all_goals rename_i hc'; rw [hc'] at hc; exact hc.elim
  · have hmade : ∀ i info n, op = .advance i info n → ¬ (s.call i).IsAddPeer :=
      fun i info n he hc => hadd ⟨i, info, n, he, hc⟩
    refine ⟨fun i hc => ?_, fun p hp => ?_⟩
    · have hi : i < s.nextCall := by
        by_contra hlt
        rw [hs.unborn i (Nat.not_lt.1 hlt)] at hc
        exact hc
      refine hu.1 i ?_
      rw [call_step hi fun info n he => hmade i info n he hc]
      exact hc
    · rw [← leaving_step hs hop]
      exact hu.2 p ((made_step hs hmade).2 hp)

/-- A room goes out of `m.rooms` only where it is deleted. -/
theorem rooms_step (roomId : String) (s : RoomCalls) (op : RoomCallOp) :
    (∃ i info n, op = .advance i info n ∧ (s.call i).IsDeleteRoom ∧
        (s.step roomId op).system.manager.rooms roomId = none) ∨
      (∀ i info n, op = .advance i info n → ¬ (s.call i).IsDeleteRoom) ∧
        (s.step roomId op).system.manager.rooms roomId = s.system.manager.rooms roomId := by
  have hmoves := moves roomId s op
  generalize s.step roomId op = s' at hmoves
  cases hmoves with
  | stay h => exact .inr ⟨fun i info n he => by rw [h i info n he]; exact id, rfl⟩
  | addParticipant => exact .inr ⟨nofun, rfl⟩
  | removeParticipant => exact .inr ⟨nofun, rfl⟩
  | deleteRoom hc =>
    exact .inl ⟨_, _, _, rfl, by rw [hc]; trivial, Function.update_self _ _ _⟩
  | addPeer m p hc => exact .inr ⟨fun _ _ _ he => by cases he; rw [hc]; exact id, rfl⟩
  | insert hc => exact .inr ⟨fun _ _ _ he => by cases he; rw [hc]; exact id, rfl⟩
  | delete hc => exact .inr ⟨fun _ _ _ he => by cases he; rw [hc]; exact id, rfl⟩
  | removePeer m hc => exact .inr ⟨fun _ _ _ he => by cases he; rw [hc]; exact id, rfl⟩

theorem sound_step (hs : OneRoom roomId s) (hf : s.FreshPeer op) (h : Sound roomId s) :
    Sound roomId (s.step roomId op) ↔ s.DeletesUnused op := by
  rcases rooms_step roomId s op with ⟨i, info, n, rfl, hc, hgone⟩ | ⟨hno, hrooms⟩
  · have hop : s.system.manager.rooms roomId = none ∨
        ∃ j info' n', RoomCallOp.advance i info n = .advance j info' n' := .inr ⟨_, _, _, rfl⟩
    exact ⟨fun hsound _ => (hsound hgone).of_step hs hf hop, fun hu _ => (hu hc).step hs hop⟩
  · refine iff_of_true (fun hgone => ?_) ?_
    · rw [hrooms] at hgone
      exact (h hgone).step hs (.inl hgone)
    · cases op with
      | advance i info n => exact fun hc => absurd hc (hno i info n rfl)
      | _ => trivial

/-- What is lost with the room does not come back. -/
theorem Sound.of_step (hs : OneRoom roomId s) (hf : s.FreshPeer op)
    (h : Sound roomId (s.step roomId op)) : Sound roomId s := by
  intro hgone
  refine (h ?_).of_step hs hf (.inl hgone)
  rcases rooms_step roomId s op with ⟨_, _, _, -, -, hnone⟩ | ⟨-, hrooms⟩
  · exact hnone
  · rw [hrooms]
    exact hgone

/-! ## When no call is in progress -/

/-- All calls have returned. -/
def Quiet (s : RoomCalls) : Prop := ∀ i < s.nextCall, s.call i = .returned

theorem OneRoom.quiet (hs : OneRoom roomId s) (hq : s.Quiet) (i : Nat) : s.call i = .returned := by
  by_cases hi : i < s.nextCall
  · exact hq i hi
  · exact hs.unborn i (Nat.not_lt.1 hi)

/-- Every participant that has been added and not removed is in the room that `GetRoom` finds, so
that `RemoveParticipant` removes it from the media server. -/
def Kept (roomId : String) (s : RoomCalls) : Prop := ∀ p ∈ s.added, p ∉ s.removed →
  (∃ room, s.system.manager.getRoom roomId = .ok room ∧
      p ∈ (s.system.manager.heap room).participants.map Prod.fst) ∧
    (s.system.removeParticipant roomId p).1.media = s.system.media.removePeer p

theorem kept_iff_sound (hs : OneRoom roomId s) (hq : s.Quiet) : Kept roomId s ↔ Sound roomId s := by
  replace hq := hs.quiet hq
  have hleaving : ∀ p, s.Leaving p ↔ p ∈ s.removed := fun p =>
    or_iff_left fun ⟨i, hi⟩ => by rw [hq i] at hi; exact hi
  constructor
  · intro h hgone
    refine ⟨fun i hc => by rw [hq i] at hc; exact hc, fun p hp => (hleaving p).2 ?_⟩
    rcases hp with hp | ⟨i, hi⟩
    · by_contra hno
      obtain ⟨⟨room, hroom, -⟩, -⟩ := h p hp hno
      simp only [Manager.getRoom, hgone] at hroom
      cases hroom
    · rw [hq i] at hi
      exact hi.elim
  · intro h p hp hno
    cases hroom : s.system.manager.rooms roomId with
    | none => exact absurd ((hleaving p).1 ((h hroom).2 p (.inl hp))) hno
    | some room =>
      obtain rfl := hs.room room hroom
      refine ⟨⟨0, ?_, ?_⟩, ?_⟩
      · simp only [Manager.getRoom, hroom]
      · exact (hs.placed p hp).resolve_left fun hl => hno ((hleaving p).1 hl)
      · simp only [System.removeParticipant, Manager.getRoom, hroom]

theorem oneRoom_opened (name : String) (k : Fin 900000) :
    OneRoom (Manager.drawRoomId k) (opened name k) where
  unborn _ _ := rfl
  room room hroom := by
    unfold opened System.opened Manager.createRoom at hroom
    generalize Manager.drawRoomId k = r at hroom
    simp only [Function.update_self] at hroom
    exact (Option.some.inj hroom).symm
  uses _ := trivial
  placed _ hp := by cases hp

theorem sound_opened (name : String) (k : Fin 900000) :
    Sound (Manager.drawRoomId k) (opened name k) := by
  intro hgone
  unfold opened System.opened Manager.createRoom at hgone
  generalize Manager.drawRoomId k = r at hgone
  simp only [Function.update_self] at hgone
  cases hgone

instance (s : RoomCalls) : Decidable s.Quiet := Nat.decidableBallLT _ _

/-- **When a participant is not lost**: in the runs in which a room is taken out only when it is
unused, whoever has been added and not removed can be reached whenever no call is in progress; and
in the others not, once all calls have returned. -/
theorem participants_kept_iff (name : String) (k : Fin 900000) (ops : List RoomCallOp)
    (hops : Runs.Meets (step (Manager.drawRoomId k)) FreshPeer (opened name k) ops) :
    (Runs.Meets (step (Manager.drawRoomId k)) DeletesUnused (opened name k) ops →
      Runs.Always (step (Manager.drawRoomId k))
        (fun s => s.Quiet → Kept (Manager.drawRoomId k) s) (opened name k) ops) ∧
    ((Runs.exec (step (Manager.drawRoomId k)) (opened name k) ops).Quiet →
      Kept (Manager.drawRoomId k) (Runs.exec (step (Manager.drawRoomId k)) (opened name k) ops) →
        Runs.Meets (step (Manager.drawRoomId k)) DeletesUnused (opened name k) ops) := by
  have hI : ∀ s op, OneRoom (Manager.drawRoomId k) s → s.FreshPeer op →
      OneRoom (Manager.drawRoomId k) (s.step (Manager.drawRoomId k) op) :=
    fun s op hs _ => hs.step op
  constructor
  · intro hdel
    refine (Runs.always_of_inv
      (I := fun s => OneRoom (Manager.drawRoomId k) s ∧ Sound (Manager.drawRoomId k) s) ?_
      ⟨oneRoom_opened name k, sound_opened name k⟩ (hops.and hdel)).mono
      fun s hs hq => (kept_iff_sound hs.1 hq).2 hs.2
    exact fun s op hs hop => ⟨hs.1.step op, (sound_step hs.1 hop.1 hs.2).2 hop.2⟩
  · intro hq hkept
    have hs := Runs.exec_inv hI (oneRoom_opened name k) hops
    refine (Runs.last_iff_meets_of hI (fun s op hs hf h => sound_step hs hf h)
      (fun s op hs hf h h' => h (h'.of_step hs hf)) hops (oneRoom_opened name k)
      (sound_opened name k)).1 ?_
    exact (kept_iff_sound hs hq).1 hkept

/-- Call `i` goes on; if it draws, it draws `n`. -/
def next (i n : Nat) : RoomCallOp := .advance i {} (Manager.intn n)

/-- A participant comes and goes. -/
def inTurn : List RoomCallOp :=
  [.addParticipant "a", next 0 1, next 0 1,
    .removeParticipant "peer_1", next 1 0, next 1 0, next 1 0]

theorem participants_kept_iff_inTurn :
    (Runs.Meets (step (Manager.drawRoomId 0)) DeletesUnused (opened "" 0) inTurn →
      Runs.Always (step (Manager.drawRoomId 0))
        (fun s => s.Quiet → Kept (Manager.drawRoomId 0) s) (opened "" 0) inTurn) ∧
    ((Runs.exec (step (Manager.drawRoomId 0)) (opened "" 0) inTurn).Quiet →
      Kept (Manager.drawRoomId 0) (Runs.exec (step (Manager.drawRoomId 0)) (opened "" 0) inTurn) →
        Runs.Meets (step (Manager.drawRoomId 0)) DeletesUnused (opened "" 0) inTurn) :=
  participants_kept_iff "" 0 inTurn (by decide)

/-- The second participant finds the room when the first has left it and it has not been taken out
of `m.rooms`. -/
def overlapping : List RoomCallOp :=
  [.addParticipant "a", next 0 1, next 0 1, .removeParticipant "peer_1", next 1 0,
    .addParticipant "b", next 1 0, next 1 0, next 2 2, next 2 2]

/-- The second participant has been added, and its room is gone. -/
theorem overlapping_lost :
    Runs.Meets (step (Manager.drawRoomId 0)) FreshPeer (opened "" 0) overlapping ∧
    (Runs.exec (step (Manager.drawRoomId 0)) (opened "" 0) overlapping).Quiet ∧
    ¬ Kept (Manager.drawRoomId 0)
      (Runs.exec (step (Manager.drawRoomId 0)) (opened "" 0) overlapping) := by
  refine ⟨by decide, by decide, fun h => ?_⟩
  obtain ⟨⟨room, hroom, -⟩, -⟩ := h "peer_2" (by decide) (by decide)
  have hgone : (Runs.exec (step (Manager.drawRoomId 0)) (opened "" 0)
      overlapping).system.manager.rooms (Manager.drawRoomId 0) = none := by decide
  simp only [Manager.getRoom, hgone] at hroom
  cases hroom

end

end RoomCalls

end Namecon
