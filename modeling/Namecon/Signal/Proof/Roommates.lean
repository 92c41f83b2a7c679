import Namecon.Signal.Proof.Ghosts
import Namecon.Signal.Proof.JoinedFirst

/-!
# Who is announced to whom

In a hub that nobody leaves, every id a client is told of is that of another client of its room, it
is told that nobody has left, and it is sent one `joined` at most (`Hub.Telling`).
-/

namespace Namecon

open Function (update)

/-- The answer to a join. -/
def Message.isJoined : Message → Bool
  | .joined _ _ _ _ _ _ _ => true
  | _ => false

theorem Message.IsReply.tells {msg : Message} (h : msg.IsReply) :
    msg.isJoined = false ∧ ∀ id, msg ≠ .peerLeft id := by
  cases msg with
  | error | answer => exact ⟨rfl, nofun⟩
  | _ => exact h.elim

theorem Message.IsRenegotiate.tells {msg : Message} (h : msg.IsRenegotiate) :
    msg.isJoined = false ∧ ∀ id, msg ≠ .peerLeft id := by
  cases msg with
  | renegotiate => exact ⟨rfl, nofun⟩
  | _ => exact h.elim

namespace ReadPump

/-- In a first join: the client is in no room yet. -/
def Unplaced : ReadPump → Prop
  | .addPeer _ _ _ | .insert _ _ | .setPeerID _ | .setRoomID _ => True
  | _ => False

end ReadPump

theorem Client.handleLeave_not_unplaced (x : Client) (last : Bool) :
    ¬ (x.handleLeave last).Unplaced ∧ ¬ (x.handleLeave last).Awaits := by
  rcases x.handleLeave_cases last with he | he <;> rw [he] <;> exact ⟨id, id⟩

namespace Hub

variable {h : Hub} {op : HubOp} {c A : ClientRef} {x x' : Client} {s' : System} {id : String}

/-- Another client of the room of `A` has the id. -/
def Roommate (h : Hub) (A : ClientRef) (id : String) : Prop := ∃ B, B ≠ A ∧
  (h.client B).roomID = (h.client A).roomID ∧ (h.client A).roomID ≠ "" ∧ (h.client B).peerID = id

/-- While clients only join: each is sent one `joined`, and what it has been told of are other
clients of its room. -/
structure Telling (h : Hub) : Prop extends Gathering h where
  unplaced : ∀ c, (h.client c).pc.Unplaced → (h.client c).roomID = ""
  once : ∀ c, (h.client c).stream.countP Message.isJoined ≤ 1
  before : ∀ c, (h.client c).peerID = "" ∨ (h.client c).pc.Awaits →
    (h.client c).stream.countP Message.isJoined = 0
  found : ∀ c p existing, (h.client c).pc = .joined p existing →
    ∀ id ∈ existing.map Prod.fst, h.Roommate c id
  told : ∀ c, ∀ m ∈ (h.client c).stream, (∀ id, m ≠ .peerLeft id) ∧
    ∀ id ∈ m.announces, h.Roommate c id

theorem telling_start : ({} : Hub).Telling where
  toGathering := gathering_start
  unplaced _ _ := rfl
  once _ := Nat.zero_le _
  before _ _ := rfl
  found _ _ _ hpc := by cases hpc
  told _ _ hm := by cases hm

/-! ## Rooms and ids -/

theorem Act.unplaced (ha : Act h c (h.client c) op x' s') (hg : h.Gathering)
    (hn : x'.pc.Unplaced) : x'.roomID = (h.client c).roomID ∧
      ((h.client c).pc.Unplaced ∨ ∃ g r u, op = .message c g (.join r u)) := by
  cases ha with
  | join => exact ⟨rfl, .inr ⟨_, _, _, rfl⟩⟩
  | addPeer hpc | insert hpc | setPeerID hpc => exact ⟨rfl, .inl (by rw [hpc]; trivial)⟩
  | leave | hangUp | panic => exact absurd hn (Client.handleLeave_not_unplaced _ _).1
  | sendPanic hpc hroom hne hclosed =>
    rw [hg.toMailboxes.visited_open hpc] at hclosed
    cases hclosed
  | sent hpc =>
    obtain ⟨-, -, ⟨_, -, rfl⟩ | ⟨_, -, rfl⟩⟩ := hg.toStaged.broadcast hpc <;> exact hn.elim
  | setupConsumers hpc hnext => rcases hnext with rfl | ⟨_, rfl⟩ <;> exact hn.elim
  | addConsumer hpc hm hnext => rcases hnext with rfl | ⟨_, rfl⟩ <;> exact hn.elim
  | delete => split at hn <;> exact hn.elim
  | @closeSend _ last => cases last <;> exact hn.elim
  | _ => exact hn.elim

theorem Telling.unplaced_step (ht : h.Telling) (ho : h.FirstJoin op) (t : ClientRef)
    (hn : ((h.step op).client t).pc.Unplaced) : ((h.step op).client t).roomID = "" := by
  have hturn := h.turns op t
  generalize (h.step op).client t = x' at hturn hn ⊢
  cases hturn with
  | same | wrote => exact ht.unplaced t hn
  | born | tells | unregisters => exact hn.elim
  | acted ha =>
    obtain ⟨hr, hpc | ⟨g, r, u, rfl⟩⟩ := ha.unplaced ht.toGathering hn
    · rw [hr]; exact ht.unplaced t hpc
    · rw [hr]
      by_contra hroom
      exact (ht.placed t).named hroom ho
  | told =>
    rw [Client.push_pc] at hn
    rw [Client.push_roomID]
    exact ht.unplaced t hn

/-- A client that is in a room stays there, under its id. -/
theorem Telling.room_step (ht : h.Telling) (op : HubOp) (hr : (h.client c).roomID ≠ "") :
    ((h.step op).client c).roomID = (h.client c).roomID ∧
      ((h.step op).client c).peerID = (h.client c).peerID := by
  have hturn := h.turns op c
  generalize (h.step op).client c = x' at hturn ⊢
  cases hturn with
  | same | wrote | tells | unregisters => exact ⟨rfl, rfl⟩
  | born hc =>
    rw [ht.unborn c hc.ge] at hr
    exact absurd rfl hr
  | told => exact ⟨Client.push_roomID _ _, Client.push_peerID _ _⟩
  | acted ha =>
    cases ha with
    | setPeerID hpc | setRoomID hpc =>
      exact absurd (ht.unplaced c (by rw [hpc]; trivial)) hr
    | joined | reply => exact ⟨Client.push_roomID _ _, Client.push_peerID _ _⟩
    | _ => exact ⟨rfl, rfl⟩

theorem Telling.roommate_step (ht : h.Telling) (op : HubOp) (hm : h.Roommate A id) :
    (h.step op).Roommate A id := by
  obtain ⟨B, hne, hroom, hr, hid⟩ := hm
  have hA := ht.room_step op hr
  have hB := ht.room_step op (c := B) (by rw [hroom]; exact hr)
  exact ⟨B, hne, by rw [hA.1, hB.1, hroom], by rw [hA.1]; exact hr, by rw [hB.2, hid]⟩

/-! ## What a step queues -/

/-- Only the joiner itself is sent a `joined`. -/
theorem Queues.isJoined (hg : h.Gathering) {m : Message} (hq : Queues h A op m)
    (hm : m.isJoined = true) : ∃ env p existing, op = .advance A env ∧
      (h.client A).pc = .joined p existing ∧ m = p.joined existing := by
  cases hq with
  | joined hpc => exact ⟨_, _, _, rfl, hpc, rfl⟩
  | reply hpc =>
    have hstage := hg.toStaged.stage A
    unfold Client.Stage at hstage
    rw [hpc] at hstage
    rw [hstage.tells.1] at hm
    cases hm
  | visit hne hpc =>
    rw [(hg.isRenegotiate hpc).tells.1] at hm
    cases hm

theorem Queues.told (ht : h.Telling) {m : Message} (hq : Queues h A op m) :
    (∀ id, m ≠ .peerLeft id) ∧ ∀ id ∈ m.announces, h.Roommate A id := by
  cases hq with
  | joined hpc => exact ⟨nofun, ht.found A _ _ hpc⟩
  | reply hpc =>
    have hstage := ht.toStaged.stage A
    unfold Client.Stage at hstage
    rw [hpc] at hstage
    refine ⟨hstage.tells.2, fun id hid => ?_⟩
    rw [hstage.announces] at hid
    cases hid
  | @visit c env _ todo next hne hpc =>
    refine ⟨(ht.isRenegotiate hpc).tells.2, fun id hid => ?_⟩
    obtain ⟨hroom, hr, ⟨_, rfl, -⟩ | ⟨_, rfl, -⟩⟩ := ht.toStaged.broadcast hpc
    · exact ⟨c, hne.symm, hroom, hr, (List.mem_singleton.1 hid).symm⟩
    · cases hid

/-- A client whose `joined` is to come was there before the step, or begins to join. -/
theorem Act.awaits (ha : Act h c (h.client c) op x' s') (hg : h.Gathering)
    (hn : x'.peerID = "" ∨ x'.pc.Awaits) : (h.client c).peerID = "" ∨ (h.client c).pc.Awaits ∨
      ∃ g r u, op = .message c g (.join r u) := by
  have hstage := hg.toStaged.stage c
  unfold Client.Stage at hstage
  cases ha with
  | join => exact .inr (.inr ⟨_, _, _, rfl⟩)
  | addPeer hpc | insert hpc | setPeerID hpc | setRoomID hpc | setUsername hpc | scan hpc
  | joined hpc => exact .inr (.inl (by rw [hpc]; trivial))
  | reply => exact .inl (hn.resolve_right id ▸ (Client.push_peerID _ _).symm)
  | leave | hangUp | panic =>
    exact .inl (hn.resolve_right (Client.handleLeave_not_unplaced _ _).2)
  | sendPanic hpc hroom hne hclosed =>
    rw [hg.toMailboxes.visited_open hpc] at hclosed
    cases hclosed
  | sent hpc =>
    obtain ⟨-, -, ⟨_, -, rfl⟩ | ⟨_, -, rfl⟩⟩ := hg.toStaged.broadcast hpc <;>
      exact .inl (hn.resolve_right id)
  | setupConsumers hpc hnext =>
    rcases hnext with rfl | ⟨_, rfl⟩ <;> exact .inl (hn.resolve_right id)
  | addConsumer hpc hm hnext =>
    rcases hnext with rfl | ⟨_, rfl⟩ <;> exact .inl (hn.resolve_right id)
  | delete => split at hn <;> exact .inl (hn.resolve_right id)
  | @closeSend _ last => cases last <;> exact .inl (hn.resolve_right id)
  | _ => exact .inl (hn.resolve_right id)

theorem Telling.awaits_step (ht : h.Telling) (ho : h.FirstJoin op) (t : ClientRef)
    (hn : ((h.step op).client t).peerID = "" ∨ ((h.step op).client t).pc.Awaits) :
    (h.client t).peerID = "" ∨ (h.client t).pc.Awaits := by
  have hturn := h.turns op t
  generalize (h.step op).client t = x' at hturn hn
  cases hturn with
  | same | wrote => exact hn
  | born hb => exact .inl (by rw [ht.unborn t hb.ge])
  | tells | unregisters => exact .inl (hn.resolve_right id)
  | acted ha =>
    rcases ha.awaits ht.toGathering hn with hid | hpc | ⟨g, r, u, rfl⟩
    · exact .inl hid
    · exact .inr hpc
    · exact .inl ho
  | told => rwa [Client.push_peerID, Client.push_pc] at hn

/-- The `joined` of a client are those before, and the one it queues for itself. -/
theorem Telling.joined_step (ht : h.Telling) (op : HubOp) (t : ClientRef) :
    ((h.step op).client t).stream.countP Message.isJoined =
        (h.client t).stream.countP Message.isJoined ∨
      (∃ env p existing, op = .advance t env ∧ (h.client t).pc = .joined p existing) ∧
        ((h.step op).client t).stream.countP Message.isJoined ≤
          (h.client t).stream.countP Message.isJoined + 1 := by
  rcases ht.toStaged.stream_step op t with he | ⟨m, hq, he⟩
  · exact .inl (by rw [he])
  · rw [he, Client.stream_push]
    split
    · rw [List.countP_append, List.countP_singleton]
      cases hm : m.isJoined with
      | false => exact .inl rfl
      | true =>
        obtain ⟨env, p, existing, hop, hpc, -⟩ := hq.isJoined ht.toGathering hm
        exact .inr ⟨⟨env, p, existing, hop, hpc⟩, le_rfl⟩
    · exact .inl (by rw [List.append_nil])

theorem Telling.before_step (ht : h.Telling) (ho : h.FirstJoin op) (t : ClientRef)
    (hn : ((h.step op).client t).peerID = "" ∨ ((h.step op).client t).pc.Awaits) :
    ((h.step op).client t).stream.countP Message.isJoined = 0 := by
  rcases ht.joined_step op t with he | ⟨⟨env, p, existing, rfl, hpc⟩, -⟩
  · rw [he]
    exact ht.before t (ht.awaits_step ho t hn)
  · -- it has its id, and its `joined` is queued
    have hstage := ht.toStaged.stage t
    unfold Client.Stage at hstage
    rw [hpc] at hstage
    have hstep : ((h.step (.advance t env)).client t) =
        { (h.client t).push (p.joined existing) with pc := .renegotiate p } := by
      simp only [Hub.step, advance, hpc, sendToClient, (ht.staying t).1, modifyClient,
        Bool.false_eq_true, if_false, Function.update_self]
      rfl
    rw [hstep] at hn
    refine absurd ?_ hstage.1.1
    rw [← hstage.2.1, ← Client.push_peerID (h.client t) (p.joined existing)]
    exact hn.resolve_right id

theorem Telling.once_step (ht : h.Telling) (op : HubOp) (t : ClientRef) :
    ((h.step op).client t).stream.countP Message.isJoined ≤ 1 := by
  rcases ht.joined_step op t with he | ⟨⟨env, p, existing, -, hpc⟩, hle⟩
  · rw [he]
    exact ht.once t
  · rwa [ht.before t (.inr (by rw [hpc]; trivial))] at hle

theorem roommate_existingPeers {range : ListFacts.MapRange ClientRef Bool}
    (hr : (h.client A).roomID ≠ "")
    (hid : id ∈ (h.existingPeers A (h.client A).roomID range).map Prod.fst) : h.Roommate A id := by
  obtain ⟨e, he, rfl⟩ := List.mem_map.1 hid
  obtain ⟨B, -, hB⟩ := List.mem_filterMap.1 he
  split at hB
  · rename_i hin
    obtain rfl := Option.some.inj hB
    exact ⟨B, hin.2.1, hin.1, hr, rfl⟩
  · cases hB

theorem Telling.found_step (ht : h.Telling) (t : ClientRef) (p : Participant)
    (existing : List (String × String)) (hpc : ((h.step op).client t).pc = .joined p existing) :
    ∀ id ∈ existing.map Prod.fst, (h.step op).Roommate t id := by
  suffices hfound : ∀ id ∈ existing.map Prod.fst, h.Roommate t id from
    fun id hid => ht.roommate_step op (hfound id hid)
  have hturn := h.turns op t
  generalize (h.step op).client t = x' at hturn hpc
  cases hturn with
  | same | wrote => exact ht.found t p existing hpc
  | born | tells | unregisters => cases hpc
  | told =>
    rw [Client.push_pc] at hpc
    exact ht.found t p existing hpc
  | acted ha =>
    have hawaits : x'.pc.Awaits := by rw [hpc]; trivial
    have hstage := ht.toStaged.stage t
    unfold Client.Stage at hstage
    cases ha with
    | scan hscan =>
      rw [hscan] at hstage
      injection hpc with _ hexisting
      subst hexisting
      intro id hid
      rw [← hstage.2.2] at hid
      exact roommate_existingPeers (by rw [hstage.2.2]; exact hstage.1.2) hid
    | leave | hangUp | panic => exact absurd hawaits (Client.handleLeave_not_unplaced _ _).2
    | sendPanic hpc' hroom hne hclosed =>
      rw [ht.toMailboxes.visited_open hpc'] at hclosed
      cases hclosed
    | sent hpc' =>
      obtain ⟨-, -, ⟨_, -, rfl⟩ | ⟨_, -, rfl⟩⟩ := ht.toStaged.broadcast hpc' <;> cases hpc
    | setupConsumers hpc' hnext => rcases hnext with rfl | ⟨_, rfl⟩ <;> cases hpc
    | addConsumer hpc' hm hnext => rcases hnext with rfl | ⟨_, rfl⟩ <;> cases hpc
    | delete => split at hpc <;> cases hpc
    | @closeSend _ last => cases last <;> cases hpc
    | _ => cases hpc

theorem Telling.told_step (ht : h.Telling) (t : ClientRef) (m : Message)
    (hm : m ∈ ((h.step op).client t).stream) : (∀ id, m ≠ .peerLeft id) ∧
      ∀ id ∈ m.announces, (h.step op).Roommate t id := by
  suffices htold : (∀ id, m ≠ .peerLeft id) ∧ ∀ id ∈ m.announces, h.Roommate t id from
    ⟨htold.1, fun id hid => ht.roommate_step op (htold.2 id hid)⟩
  rcases ht.toStaged.stream_step op t with he | ⟨m', hq, he⟩
  · exact ht.told t m (he ▸ hm)
  · rw [he, Client.stream_push] at hm
    rcases List.mem_append.1 hm with hm | hm
    · exact ht.told t m hm
    · split at hm
      · rw [List.mem_singleton.1 hm]
        exact hq.told ht
      · cases hm

theorem Telling.step (ht : h.Telling) (ho : h.Gathers op) : (h.step op).Telling where
  toGathering := ht.toGathering.step ho.1 ho.2.1
  unplaced := ht.unplaced_step ho.2.1
  once := ht.once_step op
  before := ht.before_step ho.2.1
  found := ht.found_step
  told := ht.told_step

/-! ## Runs -/

theorem telling_exec (ops : List HubOp) (hops : Runs.Meets Hub.step Gathers {} ops) :
    (Runs.exec Hub.step {} ops).Telling ∧ (Runs.exec Hub.step {} ops).Learned :=
  Runs.exec_inv (I := fun h => h.Telling ∧ h.Learned)
    (fun _ _ hh ho => ⟨hh.1.step ho, hh.2.step hh.1.toGathering ho⟩)
    ⟨telling_start, fun _ _ _ _ hr => absurd rfl hr⟩ hops

/-- When all of its room have joined, a client has been told of all of them. -/
theorem Learned.told (hl : h.Learned) (hjoined : ∀ B, (h.client B).roomID = (h.client A).roomID →
    h.HasJoined B) (hm : h.Roommate A id) : ∃ m ∈ (h.client A).stream, id ∈ m.announces := by
  obtain ⟨B, hne, hroom, hr, rfl⟩ := hm
  rcases hl A B hne.symm hroom.symm hr with hm | hscan | ⟨_, _, hpc, -⟩ | htell
  · exact hm
  · have hin := hscan.inJoin
    rw [(hjoined A rfl).2] at hin
    cases hin
  · have hout := (hjoined A rfl).2
    rw [hpc] at hout
    cases hout
  · have hin := htell.inJoin
    rw [(hjoined B hroom).2] at hin
    cases hin

end Hub

end Namecon
