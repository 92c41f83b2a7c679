import Namecon.Signal.Leaving
import Namecon.Signal.Proof.Announcements
import Namecon.Signal.Proof.Sequential

/-!
# Leaving twice

* `broadcastToRoom_eq`: a broadcast as one push for every time it reaches a client.
* `leave_comes`: a `leave` frame or the end of the connection comes to what `Hub.handleLeave` says.
* `leavesQuietly_iff`: exactly when a second `handleLeave` does nothing that others see. Rooms do
  not change, but where the room is still there the RPC is made again, and every room mate with
  space in its mailbox is told again.
-/

namespace Namecon

open ListFacts (MapRange eraseKey eraseKey_eraseKey isEmpty_eraseKey)

/-! ## Pushes -/

/-- `n` messages one after the other. -/
def Client.pushes (msg : Message) (n : Nat) (x : Client) : Client := (fun x => x.push msg)^[n] x

namespace Client

variable {x : Client} {msg : Message} {n : Nat}

theorem pushes_succ (msg : Message) (n : Nat) (x : Client) :
    pushes msg (n + 1) x = pushes msg n (x.push msg) := rfl

theorem pushes_field {β : Type} (f : Client → β) (hf : ∀ x, f (x.push msg) = f x) (n : Nat)
    (x : Client) : f (pushes msg n x) = f x := by
  induction n generalizing x with
  | zero => rfl
  | succ n ih => rw [pushes_succ, ih, hf]

/-- A mailbox takes messages until it is full. -/
theorem length_pushes (msg : Message) (n : Nat) (x : Client) :
    (pushes msg n x).send.length = max x.send.length (min 32 (x.send.length + n)) := by
  induction n generalizing x with
  | zero => exact (max_eq_left (Nat.min_le_right _ _)).symm
  | succ n ih =>
    rw [pushes_succ, ih]
    unfold push
    split
    · rw [List.length_append, List.length_singleton]
      omega
    · omega

theorem full_pushes : 32 ≤ (pushes msg n x).send.length ↔ 32 ≤ x.send.length + n := by
  rw [length_pushes]
  omega

theorem pushes_of_full (h : 32 ≤ x.send.length) : pushes msg n x = x := by
  induction n with
  | zero => rfl
  | succ n ih => rw [pushes_succ, push, if_neg (Nat.not_lt.2 h), ih]

/-- The mailbox stays as it is exactly if nothing is sent or it is full. -/
theorem send_pushes_eq : (pushes msg n x).send = x.send ↔ n = 0 ∨ 32 ≤ x.send.length := by
  constructor
  · intro h
    have hlen := length_pushes msg n x
    rw [h] at hlen
    omega
  · rintro (rfl | hfull)
    · rfl
    · rw [pushes_of_full hfull]

end Client

/-! ## A participant that is removed again -/

namespace System

variable {s : System} {roomId id : String}

theorem manager_removeParticipant {room : RoomRef} (h : s.manager.rooms roomId = some room)
    (id : String) : (s.removeParticipant roomId id).1.manager =
      if (eraseKey (s.manager.heap room).participants id).isEmpty then
        (s.manager.deleteParticipant room id).deleteRoom roomId
      else s.manager.deleteParticipant room id := by
  rw [removeParticipant_some h]
  simp only [Manager.deleteParticipant, Function.update_self]

/-- The room is gone once nobody else is in it. -/
theorem rooms_removeParticipant :
    (s.removeParticipant roomId id).1.manager.rooms roomId = none ↔
      ∀ room, s.manager.rooms roomId = some room →
        ∀ e ∈ (s.manager.heap room).participants, e.1 = id := by
  cases hroom : s.manager.rooms roomId with
  | none =>
    rw [removeParticipant_none hroom]
    exact iff_of_true hroom fun room h => absurd h (Option.some_ne_none room).symm
  | some room =>
    have hrooms : (s.manager.deleteParticipant room id).rooms roomId = some room := hroom
    rw [manager_removeParticipant hroom]
    by_cases hempty : (eraseKey (s.manager.heap room).participants id).isEmpty = true
    · rw [if_pos hempty]
      refine iff_of_true (Function.update_self ..) ?_
      rintro _ ⟨⟩
      exact isEmpty_eraseKey.1 hempty
    · rw [if_neg hempty, hrooms]
      exact iff_of_false (Option.some_ne_none room) fun h =>
        hempty (isEmpty_eraseKey.2 (h room rfl))

theorem deleteParticipant_twice (m : Manager) (room : RoomRef) (id : String) :
    (m.deleteParticipant room id).deleteParticipant room id = m.deleteParticipant room id := by
  unfold Manager.deleteParticipant
  simp only [Function.update_self, Function.update_idem, eraseKey_eraseKey]

/-- The second time no room changes. -/
theorem removeParticipant_twice (s : System) (roomId id : String) :
    ((s.removeParticipant roomId id).1.removeParticipant roomId id).1.manager =
      (s.removeParticipant roomId id).1.manager := by
  cases hroom : s.manager.rooms roomId with
  | none => rw [removeParticipant_none hroom, removeParticipant_none hroom]
  | some room =>
    have hfirst := manager_removeParticipant hroom id
    by_cases hempty : (eraseKey (s.manager.heap room).participants id).isEmpty = true
    · have hgone := rooms_removeParticipant.2 fun room' (h : s.manager.rooms roomId = some room') =>
        Option.some.inj (hroom.symm.trans h) ▸ isEmpty_eraseKey.1 hempty
      rw [removeParticipant_none hgone]
    · rw [if_neg hempty] at hfirst
      have hagain : (s.removeParticipant roomId id).1.manager.rooms roomId = some room := by
        rw [hfirst]
        exact hroom
      have hheap : ((s.manager.deleteParticipant room id).heap room).participants =
          eraseKey (s.manager.heap room).participants id := by
        simp only [Manager.deleteParticipant, Function.update_self]
      rw [manager_removeParticipant hagain, hfirst, hheap, eraseKey_eraseKey, if_neg hempty,
        deleteParticipant_twice]

end System

namespace Hub

variable {h : Hub} {c t : ClientRef} {roomId : String} {msg : Message} {order : List ClientRef}
  {clients : MapRange ClientRef Bool}

/-! ## A broadcast -/

theorem mates_cons (h : Hub) (c : ClientRef) (roomId : String) (t : ClientRef)
    (order : List ClientRef) : h.mates c roomId (t :: order) =
      if (h.client t).roomID = roomId ∧ t ≠ c then t :: h.mates c roomId order
      else h.mates c roomId order := by
  unfold mates
  rw [List.filter_cons]
  by_cases ht : (h.client t).roomID = roomId ∧ t ≠ c
  · rw [if_pos (decide_eq_true ht), if_pos ht]
  · rw [if_neg (by rw [decide_eq_false ht]; exact Bool.false_ne_true), if_neg ht]

theorem reached_cons (h : Hub) (c : ClientRef) (roomId : String) (t : ClientRef)
    (order : List ClientRef) : h.reached c roomId (t :: order) =
      if (h.client t).roomID = roomId ∧ t ≠ c then
        if (h.client t).closed then [] else t :: h.reached c roomId order
      else h.reached c roomId order := by
  unfold reached
  rw [mates_cons]
  split
  · rw [List.takeWhile_cons]
    cases (h.client t).closed <;> rfl
  · rfl

theorem allOpen_cons (h : Hub) (c : ClientRef) (roomId : String) (t : ClientRef)
    (order : List ClientRef) : h.allOpen c roomId (t :: order) =
      if (h.client t).roomID = roomId ∧ t ≠ c then
        !(h.client t).closed && h.allOpen c roomId order
      else h.allOpen c roomId order := by
  unfold allOpen
  rw [mates_cons]
  split
  · rw [List.all_cons]
  · rfl

/-- Whom a broadcast reaches depends on the rooms and the channels of the others alone. -/
theorem reached_congr {h' : Hub} (roomId : String) (order : List ClientRef)
    (hroom : ∀ t, t ≠ c → (h'.client t).roomID = (h.client t).roomID)
    (hclosed : ∀ t, t ≠ c → (h'.client t).closed = (h.client t).closed) :
    h'.reached c roomId order = h.reached c roomId order ∧
      h'.allOpen c roomId order = h.allOpen c roomId order := by
  induction order with
  | nil => exact ⟨rfl, rfl⟩
  | cons t order ih =>
    rw [reached_cons, reached_cons, allOpen_cons, allOpen_cons, ih.1, ih.2]
    by_cases ht : t = c
    · rw [if_neg fun h => h.2 ht, if_neg fun h => h.2 ht, if_neg fun h => h.2 ht,
        if_neg fun h => h.2 ht]
      exact ⟨rfl, rfl⟩
    · rw [hroom t ht, hclosed t ht]
      exact ⟨rfl, rfl⟩

theorem modifyClient_field {β : Type} (f : Client → β) {g : Client → Client}
    (hf : ∀ x, f (g x) = f x) (u : ClientRef) :
    f ((h.modifyClient t g).client u) = f (h.client u) := by
  by_cases hu : u = t
  · subst hu
    rw [modifyClient_self, hf]
  · rw [modifyClient_ne hu]

/-- **A broadcast** pushes its message once for every time it reaches a client, and comes to its end
if no channel of the room is closed. -/
theorem broadcastToRoom_eq (h : Hub) (c : ClientRef) (roomId : String) (msg : Message)
    (order : List ClientRef) : h.broadcastToRoom c roomId msg order =
      ({ h with client := fun u =>
          Client.pushes msg ((h.reached c roomId order).count u) (h.client u) },
        h.allOpen c roomId order) := by
  induction order generalizing h with
  | nil => rfl
  | cons t order ih =>
    rw [broadcastToRoom, reached_cons, allOpen_cons]
    by_cases ht : (h.client t).roomID = roomId ∧ t ≠ c
    · rw [if_pos ht, if_pos ht, if_pos ht]
      cases hclosed : (h.client t).closed with
      | true => rfl
      | false =>
        obtain ⟨hreached, hopen⟩ := reached_congr (c := c) roomId order
          (fun u _ => modifyClient_field Client.roomID (fun x => x.push_roomID msg) u)
          (fun u _ => modifyClient_field (h := h) (t := t) Client.closed
            (fun x => x.push_closed msg) u)
        rw [if_neg Bool.false_ne_true, if_neg Bool.false_ne_true, ih, hreached, hopen]
        refine Prod.ext ?_ rfl
        have hclient : (fun u => Client.pushes msg ((h.reached c roomId order).count u)
            ((h.modifyClient t fun x => x.push msg).client u)) = fun u =>
            Client.pushes msg ((t :: h.reached c roomId order).count u) (h.client u) := by
          funext u
          by_cases hu : u = t
          · subst hu
            rw [modifyClient_self, List.count_cons_self, Client.pushes_succ]
          · rw [modifyClient_ne hu, List.count_cons_of_ne (Ne.symm hu)]
        dsimp only
        rw [hclient]
        rfl
    · rw [if_neg ht, if_neg ht, if_neg ht, ih]

theorem not_mem_reached (h : Hub) (c : ClientRef) (roomId : String) (order : List ClientRef) :
    c ∉ h.reached c roomId order := by
  intro hc
  have hmate := (List.mem_filter.1 ((List.takeWhile_sublist _).subset hc)).2
  exact (of_decide_eq_true hmate).2 rfl

/-- The sender gets nothing. -/
theorem broadcastToRoom_self (h : Hub) (c : ClientRef) (roomId : String) (msg : Message)
    (order : List ClientRef) :
    (h.broadcastToRoom c roomId msg order).1.client c = h.client c := by
  rw [broadcastToRoom_eq]
  dsimp only
  rw [List.count_eq_zero_of_not_mem (h.not_mem_reached c roomId order)]
  rfl

/-! ## The steps of a call -/

/-- Steps of the goroutine of `c` lead from `h` to `h'`. -/
def Comes (c : ClientRef) (env : HubEnv) (h h' : Hub) : Prop :=
  ∃ n, Runs.exec Hub.step h (List.replicate n (.advance c env)) = h'

variable {env : HubEnv} {h' h'' : Hub} {last : Bool}

theorem Comes.refl (h : Hub) : Comes c env h h := ⟨0, rfl⟩

theorem Comes.head (hs : h.advance c env = h') (hc : Comes c env h' h'') : Comes c env h h'' := by
  subst hs
  obtain ⟨n, hn⟩ := hc
  exact ⟨n + 1, hn⟩

theorem Comes.of_step (hs : h.advance c env = h') : Comes c env h h' := .head hs (.refl h')

theorem Comes.trans (h₁ : Comes c env h h') (h₂ : Comes c env h' h'') : Comes c env h h'' := by
  obtain ⟨n, hn⟩ := h₁
  obtain ⟨m, hm⟩ := h₂
  refine ⟨n + m, ?_⟩
  rw [List.replicate_add, Runs.exec_append, hn, hm]

theorem modifyClient_twice (h : Hub) (c : ClientRef) (f g : Client → Client) :
    (h.modifyClient c f).modifyClient c g = h.modifyClient c fun x => g (f x) := by
  simp only [modifyClient, Function.update_self, Function.update_idem]

theorem goto_goto (h : Hub) (c : ClientRef) (pc pc' : ReadPump) :
    (h.goto c pc).goto c pc' = h.goto c pc' := modifyClient_twice ..

theorem goto_push {t : ClientRef} (ht : t ≠ c) (msg : Message) (pc pc' : ReadPump) :
    ((h.goto c pc).modifyClient t fun x => x.push msg).goto c pc' =
      (h.modifyClient t fun x => x.push msg).goto c pc' := by
  simp only [goto, modifyClient, Function.update_of_ne ht, Function.update_of_ne (Ne.symm ht),
    Function.update_self, Function.update_comm ht, Function.update_idem]

theorem OneBusy.goto (hb : h.OneBusy c) (pc : ReadPump) : (h.goto c pc).OneBusy c := by
  intro t ht
  rw [Hub.goto, modifyClient_ne ht]
  exact hb t ht

theorem advance_getRoom (h : Hub) (c : ClientRef) (last : Bool) (env : HubEnv) :
    (h.goto c (.getRoom last)).advance c env =
      (h.system.manager.rooms (h.client c).roomID).elim (h.goto c (.peerLeft last)) fun room =>
        h.goto c (.delete room last) := by
  have hsystem : (h.goto c (.getRoom last)).system = h.system := rfl
  simp only [advance, goto_client, goto_goto, hsystem, Manager.getRoom]
  cases h.system.manager.rooms (h.client c).roomID <;> rfl

theorem advance_delete (hb : h.OneBusy c) (room : RoomRef) (last : Bool) (env : HubEnv) :
    (h.goto c (.delete room last)).advance c env =
      (h.setManager (h.system.manager.deleteParticipant room (h.client c).peerID)).goto c
        (if ((h.system.manager.deleteParticipant room (h.client c).peerID).heap
          room).participants.isEmpty then .deleteRoom last else .removePeer last) := by
  have hfree : (h.goto c (.delete room last)).roomHeld room = false :=
    (hb.goto _).roomHeld (fun _ _ he => by rw [goto_client] at he; cases he) room
  simp only [advance, goto_client, hfree, Bool.false_eq_true, if_false]
  exact goto_goto (h.setManager _) c _ _

theorem advance_deleteRoom (h : Hub) (c : ClientRef) (last : Bool) (env : HubEnv) :
    (h.goto c (.deleteRoom last)).advance c env =
      (h.setManager (h.system.manager.deleteRoom (h.client c).roomID)).goto c
        (.removePeer last) := by
  simp only [advance, goto_client]
  exact goto_goto (h.setManager _) c _ _

theorem advance_removePeer (h : Hub) (c : ClientRef) (last : Bool) (env : HubEnv) :
    (h.goto c (.removePeer last)).advance c env =
      (h.setMedia (h.system.media.removePeer (h.client c).peerID)).goto c (.peerLeft last) := by
  simp only [advance, goto_client]
  exact goto_goto (h.setMedia _) c _ _

/-- From `getRoom` to `peerLeft`. -/
theorem comes_removeParticipant (hb : h.OneBusy c) (last : Bool) (env : HubEnv) :
    Comes c env (h.goto c (.getRoom last))
      ({ h with system := (h.system.removeParticipant (h.client c).roomID
        (h.client c).peerID).1 }.goto c (.peerLeft last)) := by
  have hget := advance_getRoom h c last env
  cases hroom : h.system.manager.rooms (h.client c).roomID with
  | none =>
    rw [hroom] at hget
    rw [System.removeParticipant_none hroom]
    exact .of_step hget
  | some room =>
    rw [hroom] at hget
    rw [System.removeParticipant_some hroom]
    refine .head hget (.head (advance_delete hb room last env) ?_)
    dsimp only
    split
    · exact .head (advance_deleteRoom ..) (.of_step (advance_removePeer ..))
    · exact .of_step (advance_removePeer ..)

/-- A broadcast of `handleLeave` goes on to `unregister`, or ends the call. -/
theorem comes_broadcastToRoom (h : Hub) (c : ClientRef) (roomId : String) (msg : Message)
    (order : List ClientRef) (last : Bool) (env : HubEnv) :
    Comes c env (h.goto c (.broadcast roomId msg order (.unregister last)))
      ((h.broadcastToRoom c roomId msg order).1.goto c
        (if (h.broadcastToRoom c roomId msg order).2 then .unregister last
          else .afterLeave last)) := by
  induction order generalizing h with
  | nil =>
    refine .of_step ?_
    simp only [advance, goto_client, goto_goto]
    rfl
  | cons t order ih =>
    have hround : (h.goto c (.broadcast roomId msg (t :: order) (.unregister last))).advance c env =
        (h.goto c (.broadcast roomId msg (t :: order) (.unregister last))).broadcastOne c roomId msg
          t order (.unregister last) := by
      simp only [advance, goto_client]
    unfold broadcastToRoom
    by_cases ht : t = c
    · rw [broadcastOne, if_neg fun hcond => hcond.2 ht, goto_goto] at hround
      rw [if_neg fun hcond => hcond.2 ht]
      exact .head hround (ih h)
    · have hclient : (h.goto c (.broadcast roomId msg (t :: order) (.unregister last))).client t =
          h.client t := modifyClient_ne ht ..
      rw [broadcastOne, hclient] at hround
      split at hround
      · rename_i hroom
        rw [if_pos hroom]
        cases hclosed : (h.client t).closed with
        | true =>
          rw [hclosed, if_pos rfl, goto_goto] at hround
          exact .of_step hround
        | false =>
          rw [hclosed, if_neg Bool.false_ne_true, goto_push ht] at hround
          exact .head hround (ih _)
      · rename_i hroom
        rw [goto_goto] at hround
        rw [if_neg hroom]
        exact .head hround (ih h)

/-- `unregister` and `closeSend`. -/
theorem comes_unregister (hb : h.OneBusy c) (last : Bool) (env : HubEnv) :
    Comes c env (h.goto c (.unregister last)) ((h.unregister c).goto c (.afterLeave last)) := by
  have hfree : (h.goto c (.unregister last)).hubHeld = false :=
    (hb.goto _).hubHeld fun _ _ _ _ he => by rw [goto_client] at he; cases he
  have hdelete : (h.goto c (.unregister last)).advance c env =
      { h with clients := eraseKey h.clients c }.goto c (.closeSend last) := by
    simp only [advance, goto_client, hfree, Bool.false_eq_true, if_false]
    exact goto_goto { h with clients := _ } c _ _
  have hclose : ({ h with clients := eraseKey h.clients c }.goto c (.closeSend last)).advance c env =
      (h.unregister c).goto c (.afterLeave last) := by
    simp only [advance, goto_client]
    rw [unregister, Hub.goto, Hub.goto, modifyClient_twice, modifyClient_twice]
  exact .head hdelete (.of_step hclose)

theorem OneBusy.broadcastToRoom (hb : h.OneBusy c) (roomId : String) (msg : Message)
    (order : List ClientRef) : (h.broadcastToRoom c roomId msg order).1.OneBusy c := by
  intro t ht
  rw [broadcastToRoom_eq]
  dsimp only
  rw [Client.pushes_field Client.pc fun x => x.push_pc msg]
  exact hb t ht

/-- **`handleLeave`**, started by a `leave` frame (`last` is `false`) or by the end of the
connection, comes to what `Hub.handleLeave` says while no other handler runs. -/
theorem leave_comes (hb : h.OneBusy c) (last : Bool) (env : HubEnv) :
    Comes c env (h.goto c ((h.client c).handleLeave last))
      ((h.handleLeave c env.clients).1.goto c (.afterLeave last)) := by
  unfold Client.handleLeave handleLeave
  by_cases hj : (h.client c).roomID ≠ "" ∧ (h.client c).peerID ≠ ""
  · rw [if_pos hj]
    dsimp only
    rw [if_pos hj]
    refine (comes_removeParticipant hb last env).trans ?_
    generalize hremoved : { h with system := (h.system.removeParticipant (h.client c).roomID
      (h.client c).peerID).1 } = removed
    have hb' : removed.OneBusy c := hremoved ▸ hb
    have hstart : (removed.goto c (.peerLeft last)).advance c env =
        removed.goto c (.broadcast (h.client c).roomID (.peerLeft (h.client c).peerID)
          ((env.clients.walk h.clients).map Prod.fst) (.unregister last)) := by
      rw [← hremoved]
      simp only [advance, goto_client]
      exact goto_goto { h with system := _ } c _ _
    refine .head hstart ((comes_broadcastToRoom removed c _ _ _ last env).trans ?_)
    split
    · exact comes_unregister (hb'.broadcastToRoom _ _ _) last env
    · exact .refl _
  · rw [if_neg hj]
    dsimp only
    rw [if_neg hj]
    exact comes_unregister hb last env

/-! ## One call -/

/-- Whom the broadcast of `handleLeave` reaches. -/
def told (h : Hub) (c : ClientRef) (clients : List ClientRef) : List ClientRef :=
  h.reached c (h.client c).roomID clients

/-- In a room. -/
def Joined (h : Hub) (c : ClientRef) : Prop := (h.client c).roomID ≠ "" ∧ (h.client c).peerID ≠ ""

theorem not_mem_told (h : Hub) (c : ClientRef) (order : List ClientRef) : c ∉ h.told c order :=
  h.not_mem_reached c _ order

/-- **One call** in a room: the participant is removed, the others are told, and the client is
unregistered if no channel was closed. -/
theorem handleLeave_joined (hj : h.Joined c) (clients : MapRange ClientRef Bool) :
    (h.handleLeave c clients).1.system =
        (h.system.removeParticipant (h.client c).roomID (h.client c).peerID).1 ∧
      (h.handleLeave c clients).1.clients = h.clientsAfter c clients ∧
      (∀ t, t ≠ c → (h.handleLeave c clients).1.client t = Client.pushes
        (.peerLeft (h.client c).peerID)
        ((h.told c ((clients.walk h.clients).map Prod.fst)).count t) (h.client t)) ∧
      ((h.handleLeave c clients).1.client c).roomID = (h.client c).roomID ∧
      ((h.handleLeave c clients).1.client c).peerID = (h.client c).peerID := by
  have hcond : (h.client c).roomID ≠ "" ∧ (h.client c).peerID ≠ "" := hj
  have hself := { h with system := (h.system.removeParticipant (h.client c).roomID
      (h.client c).peerID).1 }.broadcastToRoom_self c (h.client c).roomID
    (.peerLeft (h.client c).peerID) ((clients.walk h.clients).map Prod.fst)
  have hall : { h with system := (h.system.removeParticipant (h.client c).roomID
      (h.client c).peerID).1 }.allOpen c (h.client c).roomID
        ((clients.walk h.clients).map Prod.fst) =
      h.allOpen c (h.client c).roomID ((clients.walk h.clients).map Prod.fst) := rfl
  unfold handleLeave clientsAfter
  dsimp only
  rw [if_pos hcond]
  rw [broadcastToRoom_eq] at hself ⊢
  dsimp only at hself ⊢
  have hroom := congrArg Client.roomID hself
  have hpeer := congrArg Client.peerID hself
  rw [hall]
  split
  · refine ⟨rfl, rfl, fun t ht => modifyClient_ne ht .., ?_, ?_⟩
    · rw [unregister, modifyClient_self]
      exact hroom
    · rw [unregister, modifyClient_self]
      exact hpeer
  · exact ⟨rfl, rfl, fun t _ => rfl, hroom, hpeer⟩

/-- The RPC is made unless the room is gone. -/
theorem handleLeave_rpcs (hj : h.Joined c) (clients : MapRange ClientRef Bool) :
    (h.handleLeave c clients).2 = [] ↔ h.system.manager.rooms (h.client c).roomID = none := by
  have hcond : (h.client c).roomID ≠ "" ∧ (h.client c).peerID ≠ "" := hj
  unfold handleLeave
  dsimp only
  rw [if_pos hcond]
  cases hroom : h.system.manager.rooms (h.client c).roomID with
  | none =>
    rw [System.removeParticipant_none hroom]
    exact iff_of_true rfl rfl
  | some room =>
    rw [System.removeParticipant_some hroom]
    exact iff_of_false (List.cons_ne_nil _ _) (Option.some_ne_none room)

/-- A client stays in its room, for all that `handleLeave` knows. -/
theorem Joined.handleLeave (hj : h.Joined c) (clients : MapRange ClientRef Bool) :
    (h.handleLeave c clients).1.Joined c := by
  obtain ⟨-, -, -, hroom, hpeer⟩ := handleLeave_joined hj clients
  exact ⟨hroom ▸ hj.1, hpeer ▸ hj.2⟩

/-- The second call reaches the clients it would have reached before the first. -/
theorem told_handleLeave (hj : h.Joined c) (clients : MapRange ClientRef Bool)
    (order : List ClientRef) : (h.handleLeave c clients).1.told c order = h.told c order := by
  obtain ⟨-, -, hother, hroom, -⟩ := handleLeave_joined hj clients
  rw [told, hroom]
  refine (reached_congr _ order (fun t ht => ?_) fun t ht => ?_).1
  · rw [hother t ht]
    exact Client.pushes_field Client.roomID (fun x => x.push_roomID _) _ _
  · rw [hother t ht]
    exact Client.pushes_field Client.closed (fun x => x.push_closed _) _ _

/-- No message goes to another client exactly if every client that is told has a full mailbox. -/
theorem mailboxes_handleLeave (hj : h.Joined c) (clients : MapRange ClientRef Bool) :
    (∀ t, t ≠ c → ((h.handleLeave c clients).1.client t).send = (h.client t).send) ↔
      ∀ t ∈ h.told c ((clients.walk h.clients).map Prod.fst), 32 ≤ (h.client t).send.length := by
  obtain ⟨-, -, hother, -, -⟩ := handleLeave_joined hj clients
  constructor
  · intro hsame t ht
    have hne : t ≠ c := fun he => h.not_mem_told c _ (he ▸ ht)
    have hsend := hsame t hne
    rw [hother t hne, Client.send_pushes_eq] at hsend
    exact hsend.resolve_left (List.count_pos_iff.2 ht).ne'
  · intro hfull t ht
    rw [hother t ht, Client.send_pushes_eq]
    by_cases hmem : t ∈ h.told c ((clients.walk h.clients).map Prod.fst)
    · exact .inr (hfull t hmem)
    · exact .inl (List.count_eq_zero_of_not_mem hmem)

/-! ## Two calls -/

/-- **Leaving twice.** The second call does nothing that others see exactly if the first has emptied
the room, and every client that the second broadcast reaches has a mailbox that is full by then. -/
theorem leavesQuietly_iff (h : Hub) (c : ClientRef) (hj : h.Joined c)
    (first second : MapRange ClientRef Bool) :
    (h.handleLeave c first).1.LeavesQuietly c second ↔
      (∀ room, h.system.manager.rooms (h.client c).roomID = some room →
        ∀ e ∈ (h.system.manager.heap room).participants, e.1 = (h.client c).peerID) ∧
      ∀ t ∈ h.told c ((second.walk (h.clientsAfter c first)).map Prod.fst),
        32 ≤ (h.client t).send.length +
          (h.told c ((first.walk h.clients).map Prod.fst)).count t := by
  obtain ⟨hsystem, hclients, hother, hroom, hpeer⟩ := handleLeave_joined hj first
  have hj' := hj.handleLeave first
  have hrooms : ((h.handleLeave c first).1.handleLeave c second).1.system.manager =
      (h.handleLeave c first).1.system.manager := by
    rw [(handleLeave_joined hj' second).1, hroom, hpeer, hsystem, System.removeParticipant_twice]
  have hrpcs := handleLeave_rpcs hj' second
  rw [hroom, hsystem, System.rooms_removeParticipant] at hrpcs
  have hmail := mailboxes_handleLeave hj' second
  rw [told_handleLeave hj, hclients] at hmail
  have hfull : ∀ t ∈ h.told c ((second.walk (h.clientsAfter c first)).map Prod.fst),
      (32 ≤ ((h.handleLeave c first).1.client t).send.length ↔ 32 ≤ (h.client t).send.length +
        (h.told c ((first.walk h.clients).map Prod.fst)).count t) := by
    intro t ht
    rw [hother t fun he => h.not_mem_told c _ (he ▸ ht), Client.full_pushes]
  rw [← hrpcs]
  constructor
  · intro hq
    exact ⟨hq.rpcs, fun t ht => (hfull t ht).1 (hmail.1 hq.mailboxes t ht)⟩
  · rintro ⟨hnil, hlen⟩
    exact ⟨hrooms, hnil, hmail.2 fun t ht => (hfull t ht).2 (hlen t ht)⟩

/-- Only one client is in the room. -/
def alone : Hub := Runs.exec Hub.step {} ([Logged.roomMade, .serveWS] ++ Logged.joinOps 0 1 14)

theorem leavesQuietly_iff_alone :
    (alone.handleLeave 0 (.kept _ _)).1.LeavesQuietly 0 (.kept _ _) := by
  refine (leavesQuietly_iff alone 0 ⟨by decide, by decide⟩ (.kept _ _) (.kept _ _)).2
    ⟨fun room hroom => ?_, by decide⟩
  have hzero : alone.system.manager.rooms (alone.client 0).roomID = some 0 := by decide
  obtain rfl : 0 = room := Option.some.inj (hzero.symm.trans hroom)
  decide

/-- Two clients are in the room, and the first leaves twice: the RPC is made again, and the second
client is told again. -/
theorem leaveTwice_loud :
    let both := Runs.exec Hub.step {} joinBoth
    let left := (both.handleLeave 0 (.kept _ _)).1
    both.Joined 0 ∧ ¬ left.LeavesQuietly 0 (.kept _ _) ∧
      (left.handleLeave 0 (.kept _ _)).2 = ["peer_1"] ∧
      ((left.handleLeave 0 (.kept _ _)).1.client 1).send =
        (left.client 1).send ++ [.peerLeft "peer_1"] := by
  refine ⟨⟨by decide, by decide⟩, fun hq => ?_, by decide, by decide⟩
  exact absurd hq.rpcs (by decide)

end Hub

end Namecon
