import Namecon.Signal.Proof.Announcements

/-!
# Announcements of a client that has left

`handleLeave` tells the room with `peer-left` and takes the client out of the hub afterwards, while
`handleJoin` scans the hub and queues its `joined` in separate steps. `no_ghosts_iff`: when `A` has
left, every client that was told of it has also been told that it left exactly when nothing that
announces `A` was queued for a client that the `peer-left` had gone past.
-/

namespace Namecon

open Function (update)

/-- Every announcement of `id` is followed by a `peer-left` for it. -/
def Settled (id : String) (ms : List Message) : Prop := ∀ before m after,
  ms = before ++ m :: after → id ∈ m.announces → .peerLeft id ∈ after

theorem settled_snoc {id : String} {ms : List Message} {m : Message} :
    Settled id (ms ++ [m]) ↔ id ∉ m.announces ∧ (m = .peerLeft id ∨ Settled id ms) := by
  constructor
  · intro h
    refine ⟨fun hm => ?_, ?_⟩
    · cases h ms m [] rfl hm
    · by_cases hleft : m = .peerLeft id
      · exact .inl hleft
      · refine .inr fun before m' after he hm' => ?_
        have hin := h before m' (after ++ [m]) (by rw [he]; simp) hm'
        rcases List.mem_append.1 hin with hin | hin
        · exact hin
        · exact absurd (List.mem_singleton.1 hin).symm hleft
  · intro ⟨hno, h⟩ before m' after he hm'
    rcases ListFacts.snoc_eq_append_cons he with ⟨-, rfl, -⟩ | ⟨after, rfl, hms⟩
    · exact absurd hm' hno
    · rcases h with rfl | h
      · exact List.mem_append_right _ (.head _)
      · exact List.mem_append_left _ (h before m' after hms hm')

theorem settled_of_silent {id : String} {ms : List Message} (h : ∀ m ∈ ms, m.announces = []) :
    Settled id ms := by
  intro before m after he hm
  have hin : m ∈ ms := by rw [he]; simp
  rw [h m hin] at hm
  cases hm

theorem Message.IsReply.announces {msg : Message} (h : msg.IsReply) : msg.announces = [] := by
  cases msg with
  | error => rfl
  | answer => rfl
  | _ => exact h.elim

namespace ReadPump

/-- In `handleLeave`, with the broadcast of its `peer-left` past `S`. -/
def Past (S : ClientRef) : ReadPump → Prop
  | .broadcast _ (.peerLeft _) todo _ => S ∉ todo
  | .unregister _ => True
  | _ => False

/-- Where a goroutine can be whose client is out of the hub. -/
def Out : ReadPump → Prop
  | .closeSend _ | .readMessage | .ended => True
  | _ => False

/-- A join in progress is one to `roomId`. -/
def JoinsOnly (roomId : String) : ReadPump → Prop
  | .addPeer roomId' _ _ => roomId' = roomId
  | .insert _ p | .setPeerID p | .setRoomID p => p.roomId = roomId
  | _ => True

end ReadPump

namespace Hub

variable {h h' : Hub} {op : HubOp} {c t A S : ClientRef} {x x' : Client} {s' : System}
  {R : String} {m : Message}

/-! ## What a step queues for a client -/

/-- The step offers the message to the mailbox of `S`. -/
inductive Queues (h : Hub) (S : ClientRef) : HubOp → Message → Prop
  | joined {env p existing} (hpc : (h.client S).pc = .joined p existing) :
    Queues h S (.advance S env) (p.joined existing)
  | reply {env msg} (hpc : (h.client S).pc = .reply msg) : Queues h S (.advance S env) msg
  | visit {c env msg todo next} (hne : S ≠ c)
      (hpc : (h.client c).pc = .broadcast (h.client S).roomID msg (S :: todo) next) :
    Queues h S (.advance c env) msg

theorem Staged.stream_step (hs : h.Staged) (op : HubOp) (S : ClientRef) :
    ((h.step op).client S).stream = (h.client S).stream ∨
      ∃ m, Queues h S op m ∧ ((h.step op).client S).stream = ((h.client S).push m).stream := by
  have hturn := h.turns op S
  generalize (h.step op).client S = x' at hturn
  cases hturn with
  | same => exact .inl rfl
  | born ht =>
    rw [hs.unborn S (Nat.le_of_eq ht.symm)]
    exact .inl rfl
  | wrote hsend =>
    refine .inl ?_
    unfold Client.stream
    rw [hsend]
    simp
  | acted ha =>
    cases ha with
    | joined hpc => exact .inr ⟨_, .joined hpc, rfl⟩
    | reply hpc => exact .inr ⟨_, .reply hpc, rfl⟩
    | _ => exact .inl rfl
  | told hop hpc hroom hne =>
    subst hop hroom
    exact .inr ⟨_, .visit hne hpc, rfl⟩
  | tells => exact .inl rfl
  | unregisters => exact .inl rfl

theorem Queues.delivered (hq : Queues h S op m) (hopen : (h.client S).closed = false) :
    ((h.step op).client S).stream = ((h.client S).push m).stream := by
  cases hq with
  | joined hpc =>
    simp only [Hub.step, advance, hpc, sendToClient, hopen, modifyClient, Bool.false_eq_true,
      if_false, Function.update_self]
    rfl
  | reply hpc =>
    simp only [Hub.step, advance, hpc, sendToClient, hopen, modifyClient, Bool.false_eq_true,
      if_false, Function.update_self]
    rfl
  | visit hne hpc => rw [step_visit hpc rfl hne hopen]

/-- The room of a client changes only where it joins. -/
theorem Staged.roomID_step (hs : h.Staged) (op : HubOp) (t : ClientRef) :
    ((h.step op).client t).roomID = (h.client t).roomID ∨
      ∃ p, (h.client t).pc = .setRoomID p ∧ ((h.step op).client t).roomID = p.roomId := by
  have hturn := h.turns op t
  generalize (h.step op).client t = x' at hturn
  cases hturn with
  | born ht =>
    rw [hs.unborn t (Nat.le_of_eq ht.symm)]
    exact .inl rfl
  | acted ha =>
    cases ha with
    | setRoomID hpc => exact .inr ⟨_, hpc, rfl⟩
    | joined => exact .inl (Client.push_roomID _ _)
    | reply => exact .inl (Client.push_roomID _ _)
    | _ => exact .inl rfl
  | told => exact .inl (Client.push_roomID _ _)
  | _ => exact .inl rfl

theorem Staged.room_kept (hs : h.Staged) (op : HubOp) (ht : (h.client t).roomID ≠ "") :
    ((h.step op).client t).roomID ≠ "" := by
  rcases hs.roomID_step op t with he | ⟨p, hpc, he⟩
  · rw [he]
    exact ht
  · have hstage := hs.stage t
    unfold Client.Stage at hstage
    rw [hpc] at hstage
    rw [he]
    exact hstage.1.2

/-- A client that is sent an announcement has its room set. -/
theorem Queues.room_ne (hs : h.Staged) (hq : Queues h S op m) (hm : m.announces ≠ []) :
    (h.client S).roomID ≠ "" := by
  have hstage := hs.stage S
  unfold Client.Stage at hstage
  cases hq with
  | joined hpc =>
    rw [hpc] at hstage
    rw [hstage.2.2]
    exact hstage.1.2
  | reply hpc =>
    rw [hpc] at hstage
    exact absurd hstage.announces hm
  | visit hne hpc => exact (hs.broadcast hpc).2.1

/-! ## Runs in which `A` leaves -/

/-- The client is out of `h.clients`. -/
def Left (h : Hub) (A : ClientRef) : Prop := A < h.nextClient ∧ ¬ h.Connected A

/-- Clients join the room `R` and `A` leaves it, once; no mailbox is full. -/
def Parts (R : String) (A : ClientRef) (h : Hub) (op : HubOp) : Prop :=
  h.Roomy ∧ match op with
  | .message c _ (.join roomId _) => roomId = R ∧ (c = A → h.Connected A)
  | .message c _ .leave | .hangUp c => c = A ∧ h.Connected A ∧ (h.client A).roomID ≠ ""
  | .message c _ _ => c = A → h.Connected A
  | _ => True

instance (h : Hub) (c : ClientRef) : Decidable (h.Connected c) :=
  inferInstanceAs (Decidable (c ∈ h.clients.map Prod.fst))

instance (h : Hub) (A : ClientRef) : Decidable (h.Left A) :=
  inferInstanceAs (Decidable (A < h.nextClient ∧ ¬ h.Connected A))

instance (R : String) (A : ClientRef) (h : Hub) (op : HubOp) : Decidable (Parts R A h op) :=
  @instDecidableAnd _ _ _ (match op with
    | .message c _ (.join roomId _) =>
      inferInstanceAs (Decidable (roomId = R ∧ (c = A → h.Connected A)))
    | .message c _ .leave | .hangUp c =>
      inferInstanceAs (Decidable (c = A ∧ h.Connected A ∧ (h.client A).roomID ≠ ""))
    | .message c _ .invalid | .message c _ (.offer _ _) | .message c _ .unknown =>
      inferInstanceAs (Decidable (c = A → h.Connected A))
    | .createRoom _ _ | .serveWS | .advance _ _ | .writeMessage _ | .packet _ _ _ =>
      .isTrue trivial)

/-- All but `A` stay, everyone who has a room is in `R`, and no client has been told of another
before it has its room. -/
structure Parting (R : String) (A : ClientRef) (h : Hub) : Prop extends Mailboxes h where
  others : ∀ t, t ≠ A → (h.client t).closed = false ∧ (h.client t).pc.Stays
  present : ∀ t < h.nextClient, t ≠ A → h.Connected t
  leaver : h.Left A → (h.client A).pc.Out
  room : ∀ t, (h.client t).roomID = "" ∨ (h.client t).roomID = R
  joining : ∀ t, (h.client t).pc.JoinsOnly R
  heard : ∀ t, ∀ m ∈ (h.client t).stream, m.announces ≠ [] → (h.client t).roomID ≠ ""

theorem parting_start (R : String) (A : ClientRef) : Parting R A {} where
  toMailboxes := mailboxes_start
  others _ _ := ⟨rfl, trivial⟩
  present _ ht := absurd ht (Nat.not_lt_zero _)
  leaver hl := absurd hl.1 (Nat.not_lt_zero _)
  room _ := .inl rfl
  joining _ := trivial
  heard _ _ hm := by cases hm

/-- The goroutine of a client that does not leave. -/
theorem Act.stays (ha : Act h c (h.client c) op x' s') (hg : Parting R A h) (ho : Parts R A h op)
    (hne : c ≠ A) : x'.closed = false ∧ x'.pc.Stays := by
  have hx := hg.others c hne
  cases ha with
  | leave => exact absurd ho.2.1 hne
  | hangUp => exact absurd ho.2.1 hne
  | joined => exact ⟨(Client.push_closed _ _).trans hx.1, trivial⟩
  | reply => exact ⟨(Client.push_closed _ _).trans hx.1, trivial⟩
  | panic _ hclosed => rw [hx.1] at hclosed; cases hclosed
  | sendPanic hpc _ _ hclosed =>
    rw [hg.toMailboxes.visited_open hpc] at hclosed
    cases hclosed
  | skip hpc => exact ⟨hx.1, by have := hx.2; rw [hpc] at this; exact this⟩
  | sent hpc => exact ⟨hx.1, by have := hx.2; rw [hpc] at this; exact this⟩
  | setupConsumers hpc hnext => rcases hnext with rfl | ⟨_, rfl⟩ <;> exact ⟨hx.1, trivial⟩
  | addConsumer hpc hm hnext => rcases hnext with rfl | ⟨_, rfl⟩ <;> exact ⟨hx.1, trivial⟩
  | answer => exact ⟨hx.1, trivial⟩
  | join => exact ⟨hx.1, trivial⟩
  | addPeer => exact ⟨hx.1, trivial⟩
  | insert => exact ⟨hx.1, trivial⟩
  | setPeerID => exact ⟨hx.1, trivial⟩
  | setRoomID => exact ⟨hx.1, trivial⟩
  | setUsername => exact ⟨hx.1, trivial⟩
  | scan => exact ⟨hx.1, trivial⟩
  | renegotiate => exact ⟨hx.1, trivial⟩
  | collect => exact ⟨hx.1, trivial⟩
  | _ hpc =>
    have hstays := hx.2
    rw [hpc] at hstays
    exact hstays.elim

theorem Parting.others_step (hg : Parting R A h) (ho : Parts R A h op) (hne : t ≠ A) :
    ((h.step op).client t).closed = false ∧ ((h.step op).client t).pc.Stays := by
  have hx := hg.others t hne
  have hturn := h.turns op t
  generalize (h.step op).client t = x' at hturn
  cases hturn with
  | same => exact hx
  | born => exact ⟨rfl, trivial⟩
  | wrote => exact hx
  | acted ha => exact ha.stays hg ho hne
  | told => rw [Client.push_closed, Client.push_pc]; exact hx
  | tells hop hpc =>
    have hstays := hx.2
    rw [hpc] at hstays
    exact ⟨hx.1, hstays⟩
  | unregisters hpc =>
    have hstays := hx.2
    rw [hpc] at hstays
    exact hstays.elim

/-- A client leaves the hub only at its own `unregister`. -/
theorem unregister_of_left (hc : h.Connected t) (hout : ¬ (h.step op).Connected t) :
    ∃ last, (h.client t).pc = .unregister last ∧
      ((h.step op).client t).pc = .closeSend last := by
  have hmoves := h.moves op
  generalize h.step op = h' at hmoves hout ⊢
  cases hmoves with
  | serveWS => exact absurd (connected_register.2 (.inl hc)) hout
  | @unregister c env last hpc hfree =>
    have ht : t = c := by
      by_contra hne
      exact hout (connected_unregister.2 ⟨hc, hne⟩)
    subst ht
    refine ⟨last, hpc, ?_⟩
    simp only [goto, modifyClient_self]
  | _ => exact absurd hc hout

theorem connected_step (hc : h.Connected t) (hpc : ∀ last, (h.client t).pc ≠ .unregister last) :
    (h.step op).Connected t := by
  by_contra hout
  obtain ⟨last, hreg, -⟩ := unregister_of_left hc hout
  exact hpc last hreg

theorem nextClient_step (h : Hub) (op : HubOp) :
    (h.step op).nextClient = h.nextClient ∨
      (h.step op).nextClient = h.nextClient + 1 ∧ (h.step op).Connected h.nextClient := by
  have hmoves := h.moves op
  generalize h.step op = h' at hmoves
  cases hmoves with
  | serveWS => exact .inr ⟨rfl, connected_register.2 (.inr rfl)⟩
  | _ => exact .inl rfl

theorem Parting.present_step (hg : Parting R A h) (ht : t < (h.step op).nextClient)
    (hne : t ≠ A) : (h.step op).Connected t := by
  have hkept : t < h.nextClient → (h.step op).Connected t := fun hlt =>
    connected_step (hg.present t hlt hne) fun last hpc => by
      have hstays := (hg.others t hne).2
      rw [hpc] at hstays
      exact hstays.elim
  rcases h.nextClient_step op with he | ⟨he, hnew⟩
  · rw [he] at ht
    exact hkept ht
  · rw [he] at ht
    rcases Nat.lt_succ_iff_lt_or_eq.1 ht with hlt | rfl
    · exact hkept hlt
    · exact hnew

theorem left_of_step (hl : (h.step op).Left A) : h.Left A ∨ ∃ last,
    (h.client A).pc = .unregister last ∧ ((h.step op).client A).pc = .closeSend last := by
  by_cases hc : h.Connected A
  · exact .inr (unregister_of_left hc hl.2)
  · refine .inl ⟨?_, hc⟩
    rcases h.nextClient_step op with he | ⟨he, hnew⟩
    · exact he ▸ hl.1
    · rcases Nat.lt_succ_iff_lt_or_eq.1 (he ▸ hl.1) with hlt | rfl
      · exact hlt
      · exact absurd hnew hl.2

/-- The goroutine of a client that has left. -/
theorem Act.out (ha : Act h A (h.client A) op x' s') (ho : Parts R A h op) (hl : h.Left A)
    (hout : (h.client A).pc.Out) : x'.pc.Out ∧ x'.peerID = (h.client A).peerID := by
  cases ha with
  | @answer g frame msg m hpc =>
    cases frame with
    | join => exact absurd (ho.2.2 rfl) hl.2
    | leave => exact absurd ho.2.2.1 hl.2
    | _ => exact absurd (ho.2 rfl) hl.2
  | join => exact absurd (ho.2.2 rfl) hl.2
  | leave => exact absurd ho.2.2.1 hl.2
  | hangUp => exact absurd ho.2.2.1 hl.2
  | panic hpc =>
    rcases hpc with ⟨_, _, hpc⟩ | ⟨_, hpc⟩ <;> (rw [hpc] at hout; exact hout.elim)
  | @closeSend _ last => cases last <;> exact ⟨trivial, rfl⟩
  | _ hpc => rw [hpc] at hout; exact hout.elim

/-- What a step makes of a client that has left. -/
theorem Parting.out_turn (hg : Parting R A h) (ho : Parts R A h op) (hl : h.Left A) :
    ((h.step op).client A).pc.Out ∧ ((h.step op).client A).peerID = (h.client A).peerID := by
  have hout := hg.leaver hl
  have hturn := h.turns op A
  generalize (h.step op).client A = x' at hturn
  cases hturn with
  | same => exact ⟨hout, rfl⟩
  | born ht => exact absurd hl.1 (ht ▸ Nat.lt_irrefl _)
  | wrote => exact ⟨hout, rfl⟩
  | acted ha => exact ha.out ho hl hout
  | told => rw [Client.push_pc, Client.push_peerID]; exact ⟨hout, rfl⟩
  | tells hop hpc => rw [hpc] at hout; exact hout.elim
  | unregisters hpc => exact ⟨trivial, rfl⟩

theorem Parting.leaver_step (hg : Parting R A h) (ho : Parts R A h op)
    (hl : (h.step op).Left A) : ((h.step op).client A).pc.Out := by
  rcases left_of_step hl with hl' | ⟨last, -, hpc⟩
  · exact (hg.out_turn ho hl').1
  · rw [hpc]
    trivial

theorem Act.joinsOnly (ha : Act h c (h.client c) op x' s') (hm : h.Mailboxes)
    (ho : Parts R A h op) (hx : (h.client c).pc.JoinsOnly R) : x'.pc.JoinsOnly R := by
  cases ha with
  | join => exact ho.2.1
  | leave => rcases (h.client c).handleLeave_cases false with he | he <;> rw [he] <;> trivial
  | hangUp => rcases (h.client c).handleLeave_cases true with he | he <;> rw [he] <;> trivial
  | panic => rcases (h.client c).handleLeave_cases true with he | he <;> rw [he] <;> trivial
  | addPeer hpc => rw [hpc] at hx; exact hx
  | insert hpc => rw [hpc] at hx; exact hx
  | setPeerID hpc => rw [hpc] at hx; exact hx
  | sent hpc =>
    obtain ⟨-, -, ⟨_, -, rfl⟩ | ⟨_, -, rfl⟩⟩ := hm.toStaged.broadcast hpc <;> trivial
  | sendPanic hpc _ _ hclosed =>
    rw [hm.visited_open hpc] at hclosed
    cases hclosed
  | setupConsumers hpc hnext => rcases hnext with rfl | ⟨_, rfl⟩ <;> trivial
  | addConsumer hpc hm hnext => rcases hnext with rfl | ⟨_, rfl⟩ <;> trivial
  | delete => split <;> trivial
  | @closeSend _ last => cases last <;> trivial
  | _ => trivial

theorem Parting.joining_step (hg : Parting R A h) (ho : Parts R A h op) :
    ((h.step op).client t).pc.JoinsOnly R := by
  have hx := hg.joining t
  have hturn := h.turns op t
  generalize (h.step op).client t = x' at hturn
  cases hturn with
  | same => exact hx
  | wrote => exact hx
  | acted ha => exact ha.joinsOnly hg.toMailboxes ho hx
  | told => rw [Client.push_pc]; exact hx
  | _ => trivial

theorem Parting.room_step (hg : Parting R A h) (op : HubOp) :
    ((h.step op).client t).roomID = "" ∨ ((h.step op).client t).roomID = R := by
  rcases hg.toStaged.roomID_step op t with he | ⟨p, hpc, he⟩
  · rw [he]
    exact hg.room t
  · have hjoin := hg.joining t
    rw [hpc] at hjoin
    exact .inr (he.trans hjoin)

theorem Parting.heard_step (hg : Parting R A h) (op : HubOp)
    (hm : m ∈ ((h.step op).client t).stream) (hann : m.announces ≠ []) :
    ((h.step op).client t).roomID ≠ "" := by
  refine hg.toStaged.room_kept op ?_
  rcases hg.toStaged.stream_step op t with he | ⟨msg, hq, he⟩
  · exact hg.heard t m (he ▸ hm) hann
  · rw [he, Client.stream_push] at hm
    rcases List.mem_append.1 hm with hm | hm
    · exact hg.heard t m hm hann
    · split at hm
      · rw [List.mem_singleton.1 hm] at hann
        exact hq.room_ne hg.toStaged hann
      · cases hm

theorem Parting.step (hg : Parting R A h) (ho : Parts R A h op) : Parting R A (h.step op) where
  toMailboxes := hg.toMailboxes.step op
  others _ ht := hg.others_step ho ht
  present _ ht hne := hg.present_step ht hne
  leaver hl := hg.leaver_step ho hl
  room _ := hg.room_step op
  joining _ := hg.joining_step ho
  heard _ _ hm hann := hg.heard_step op hm hann

/-! ## The broadcast of `peer-left` -/

/-- The `peer-left` of `A` has gone past `S`. -/
def Passed (A S : ClientRef) (h : Hub) : Prop := (h.client A).pc.Past S ∨ h.Left A

/-- Nothing that announces `A` is queued for a client its `peer-left` has gone past. -/
def InTime (A : ClientRef) (h : Hub) (op : HubOp) : Prop := ∀ S, S ≠ A → Passed A S h → ∀ m,
  Queues h S op m → (h.client A).peerID ∉ m.announces

/-- Whoever the `peer-left` has gone past knows that `A` has left, if it was told of it. -/
def NoGhost (A : ClientRef) (h : Hub) : Prop := ∀ S, S ≠ A → Passed A S h →
  Settled (h.client A).peerID (h.client S).stream

theorem Act.past (ha : Act h A (h.client A) op x' s') (hm : h.Mailboxes)
    (hp : (h.client A).pc.Past S) : x'.pc.Past S ∧ x'.peerID = (h.client A).peerID := by
  cases ha with
  | skip hpc =>
    rw [hpc] at hp
    obtain ⟨-, -, ⟨_, rfl, -⟩ | ⟨_, rfl, -⟩⟩ := hm.toStaged.broadcast hpc
    · exact hp.elim
    · exact ⟨fun hin => hp (.tail _ hin), rfl⟩
  | sendPanic hpc _ _ hclosed =>
    rw [hm.visited_open hpc] at hclosed
    cases hclosed
  | sent hpc =>
    rw [hpc] at hp
    obtain ⟨-, -, ⟨_, rfl, -⟩ | ⟨_, -, rfl⟩⟩ := hm.toStaged.broadcast hpc
    · exact hp.elim
    · exact ⟨trivial, rfl⟩
  | panic hpc => rcases hpc with ⟨_, _, hpc⟩ | ⟨_, hpc⟩ <;> (rw [hpc] at hp; exact hp.elim)
  | _ hpc => rw [hpc] at hp; exact hp.elim

/-- A client in the hub was there, or is new. -/
theorem connected_of_step (hc : (h.step op).Connected t) : h.Connected t ∨ t = h.nextClient := by
  have hmoves := h.moves op
  generalize h.step op = h' at hmoves hc
  cases hmoves with
  | serveWS => exact connected_register.1 hc
  | unregister => exact .inl (connected_unregister.1 hc).1
  | _ => exact .inl hc

theorem Left.step (hl : h.Left A) (op : HubOp) : (h.step op).Left A := by
  refine ⟨?_, fun hc => ?_⟩
  · rcases h.nextClient_step op with he | ⟨he, -⟩
    · exact he ▸ hl.1
    · exact he ▸ Nat.lt_succ_of_lt hl.1
  · rcases connected_of_step hc with hc | rfl
    · exact hl.2 hc
    · exact Nat.lt_irrefl _ hl.1

/-- What is past stays past, and `A` keeps the id it had. -/
theorem Parting.passed_step (hg : Parting R A h) (ho : Parts R A h op) (hp : Passed A S h) :
    Passed A S (h.step op) ∧ ((h.step op).client A).peerID = (h.client A).peerID := by
  rcases hp with hp | hl
  · have hm' := hg.toMailboxes.step op
    have hturn := h.turns op A
    unfold Passed
    generalize hx : (h.step op).client A = x' at hturn
    cases hturn with
    | same => exact ⟨.inl hp, rfl⟩
    | born ht =>
      rw [hg.unborn A (Nat.le_of_eq ht.symm)] at hp
      exact hp.elim
    | wrote => exact ⟨.inl hp, rfl⟩
    | acted ha => exact (ha.past hg.toMailboxes hp).imp_left .inl
    | told => rw [Client.push_pc, Client.push_peerID]; exact ⟨.inl hp, rfl⟩
    | tells hop hpc =>
      rw [hpc] at hp
      obtain ⟨-, -, ⟨_, rfl, -⟩ | ⟨_, rfl, -⟩⟩ := hg.toStaged.broadcast hpc
      · exact hp.elim
      · exact ⟨.inl fun hin => hp (.tail _ hin), rfl⟩
    | @unregisters last hpc =>
      have hpc' : ((h.step op).client A).pc = .closeSend last := by rw [hx]
      refine ⟨.inr ⟨hm'.toStaged.born_of_pc (by rw [hpc']; nofun), ?_⟩, rfl⟩
      exact (hm'.sending A).closing _ hpc'
  · exact ⟨.inr (hl.step op), (hg.out_turn ho hl).2⟩

/-- Nothing is queued for a client by the broadcast of another that does not visit it. -/
theorem Parting.silent_step (hg : Parting R A h) {env : HubEnv} (hne : S ≠ A)
    (hsilent : ∀ m ∈ (h.client S).stream, m.announces = [])
    (hpc : ∀ m todo next, (h.client A).pc ≠ .broadcast (h.client S).roomID m (S :: todo) next) :
    ∀ m ∈ ((h.step (.advance A env)).client S).stream, m.announces = [] := by
  rcases hg.toStaged.stream_step (.advance A env) S with he | ⟨m, hq, -⟩
  · rw [he]
    exact hsilent
  · cases hq with
    | joined => exact absurd rfl hne
    | reply => exact absurd rfl hne
    | visit _ hpc' => exact absurd hpc' (hpc _ _ _)

/-- A client that is not in the room has heard of nobody. -/
theorem Parting.silent_of_room (hg : Parting R A h) (hroom : (h.client S).roomID = "") :
    ∀ m ∈ (h.client S).stream, m.announces = [] := by
  intro m hm
  by_contra hann
  exact hg.heard S m hm hann hroom

/-- The round of the broadcast of `A` that has `S` in front of it. -/
theorem Parting.visited (hg : Parting R A h) {env : HubEnv} {roomId id : String}
    {todo : List ClientRef} {next : ReadPump} (hne : S ≠ A)
    (hpc : (h.client A).pc = .broadcast roomId (.peerLeft id) (S :: todo) next) :
    Queues h S (.advance A env) (.peerLeft (h.client A).peerID) ∨
      ∀ m ∈ ((h.step (.advance A env)).client S).stream, m.announces = [] := by
  obtain ⟨hroom, hr, hmsg⟩ := hg.toStaged.broadcast hpc
  obtain rfl : id = (h.client A).peerID := by
    rcases hmsg with ⟨_, he, -⟩ | ⟨_, he, -⟩
    · cases he
    · exact Message.peerLeft.inj he
  by_cases hS : (h.client S).roomID = roomId
  · exact .inl (.visit hne (by rw [hS]; exact hpc))
  · have hblank : (h.client S).roomID = "" := by
      rcases hg.room S with he | he
      · exact he
      · rcases hg.room A with hA | hA
        · exact absurd (hA.symm.trans hroom).symm hr
        · exact absurd (he.trans (hA.symm.trans hroom)) hS
    refine .inr (hg.silent_step hne (hg.silent_of_room hblank) fun _ _ _ he => ?_)
    rw [hpc] at he
    injection he with he
    exact hS he.symm

/-- The broadcast is past `S` after its next client: it was so before, or that client is `S`. -/
theorem Parting.passed_of_visit (hg : Parting R A h) {env : HubEnv} {roomId : String}
    {msg : Message} {u : ClientRef} {todo : List ClientRef} {next : ReadPump} (hne : S ≠ A)
    (hpc : (h.client A).pc = .broadcast roomId msg (u :: todo) next)
    (hp : (ReadPump.broadcast roomId msg todo next).Past S) :
    (h.client A).pc.Past S ∨ Queues h S (.advance A env) (.peerLeft (h.client A).peerID) ∨
      ∀ m ∈ ((h.step (.advance A env)).client S).stream, m.announces = [] := by
  cases msg with
  | peerLeft id =>
    by_cases hu : S = u
    · subst hu
      exact .inr (hg.visited hne hpc)
    · refine .inl ?_
      rw [hpc]
      exact fun hin => (List.mem_cons.1 hin).elim hu hp
  | _ => exact hp.elim

/-- How a step of its goroutine takes the `peer-left` of `A` past `S`. -/
theorem Act.past_of_step (ha : Act h A (h.client A) op x' s') (hg : Parting R A h)
    (ho : Parts R A h op) (hne : S ≠ A) (hp : x'.pc.Past S) :
    Passed A S h ∨ (Queues h S op (.peerLeft (h.client A).peerID) ∧
      x'.peerID = (h.client A).peerID) ∨
      ∀ m ∈ ((h.step op).client S).stream, m.announces = [] := by
  have hleave : (h.client A).roomID ≠ "" → ∀ last,
      (h.client A).handleLeave last = .getRoom last := fun hr last =>
    if_pos ⟨hr, (hg.placed A).named hr⟩
  cases ha with
  | leave => rw [hleave ho.2.2.2] at hp; exact hp.elim
  | hangUp => rw [hleave ho.2.2.2] at hp; exact hp.elim
  | panic hpc hclosed =>
    -- a closed channel is that of a client that has left, and no handler runs there
    refine .inl (.inr ⟨?_, fun hc => ?_⟩)
    · refine hg.toStaged.born_of_pc fun he => ?_
      rcases hpc with ⟨_, _, hpc⟩ | ⟨_, hpc⟩ <;> (rw [hpc] at he; cases he)
    · rw [(hg.sending A).channel hc] at hclosed
      cases hclosed
  | sendPanic hpc _ _ hclosed =>
    rw [hg.toMailboxes.visited_open hpc] at hclosed
    cases hclosed
  | peerLeft hpc =>
    -- nobody new is in the hub, so `S` has not connected
    refine .inr (.inr (hg.silent_step hne (fun m hm => ?_) (by rw [hpc]; nofun)))
    have hout : h.nextClient ≤ S := by
      by_contra hlt
      exact hp (connected_walk.2 (hg.present S (Nat.lt_of_not_le hlt) hne))
    rw [hg.unborn S hout] at hm
    cases hm
  | @skip env roomId msg u todo next hpc hskip =>
    exact (hg.passed_of_visit hne hpc hp).imp .inl (Or.imp_left fun hq => ⟨hq, rfl⟩)
  | sent hpc =>
    obtain ⟨-, -, ⟨_, -, rfl⟩ | ⟨_, rfl, rfl⟩⟩ := hg.toStaged.broadcast hpc
    · exact hp.elim
    · refine .inl (.inl ?_)
      rw [hpc]
      exact List.not_mem_nil
  | setupConsumers hpc hnext => rcases hnext with rfl | ⟨_, rfl⟩ <;> exact hp.elim
  | addConsumer hpc hm hnext => rcases hnext with rfl | ⟨_, rfl⟩ <;> exact hp.elim
  | delete => split at hp <;> exact hp.elim
  | @closeSend _ last => cases last <;> exact hp.elim
  | _ => exact hp.elim

theorem Parting.passed_of_step (hg : Parting R A h) (ho : Parts R A h op) (hne : S ≠ A)
    (hp : Passed A S (h.step op)) :
    Passed A S h ∨ (Queues h S op (.peerLeft (h.client A).peerID) ∧
      ((h.step op).client A).peerID = (h.client A).peerID) ∨
      ∀ m ∈ ((h.step op).client S).stream, m.announces = [] := by
  rcases hp with hp | hl
  · have hturn := h.turns op A
    generalize (h.step op).client A = x' at hturn hp
    cases hturn with
    | same => exact .inl (.inl hp)
    | born => exact hp.elim
    | wrote => exact .inl (.inl hp)
    | acted ha => exact ha.past_of_step hg ho hne hp
    | told => rw [Client.push_pc] at hp; exact .inl (.inl hp)
    | @tells env roomId msg u todo next hop hpc =>
      subst hop
      exact (hg.passed_of_visit hne hpc hp).imp .inl (Or.imp_left fun hq => ⟨hq, rfl⟩)
    | unregisters => exact hp.elim
  · rcases left_of_step hl with hl | ⟨last, hpc, -⟩
    · exact .inl (.inr hl)
    · exact .inl (.inl (by rw [hpc]; trivial))

theorem Parts.full (ho : Parts R A h op) (hs : h.Staged) (S : ClientRef) :
    (h.client S).send.length < 32 := by
  by_cases hS : S < h.nextClient
  · exact ho.1 S hS
  · rw [hs.unborn S (Nat.not_lt.1 hS)]
    decide

theorem Parting.noGhost_step (hg : Parting R A h) (ho : Parts R A h op) (hn : NoGhost A h)
    (hin : InTime A h op) : NoGhost A (h.step op) := by
  intro S hne hp
  rcases hg.passed_of_step ho hne hp with hp | ⟨hq, hid⟩ | hsilent
  · rw [(hg.passed_step ho hp).2]
    rcases hg.toStaged.stream_step op S with he | ⟨m, hq, he⟩
    · rw [he]
      exact hn S hne hp
    · rw [he, Client.stream_push_self (ho.full hg.toStaged S)]
      exact settled_snoc.2 ⟨hin S hne hp m hq, .inr (hn S hne hp)⟩
  · rw [hid, hq.delivered (hg.others S hne).1, Client.stream_push_self (ho.full hg.toStaged S)]
    exact settled_snoc.2 ⟨List.not_mem_nil, .inl rfl⟩
  · exact settled_of_silent hsilent

theorem Parting.inTime_of_step (hg : Parting R A h) (ho : Parts R A h op)
    (hn : NoGhost A (h.step op)) : InTime A h op := by
  intro S hne hp m hq hm
  obtain ⟨hp', hid⟩ := hg.passed_step ho hp
  have hsettled := hn S hne hp'
  rw [hid, hq.delivered (hg.others S hne).1, Client.stream_push_self (ho.full hg.toStaged S)]
    at hsettled
  exact (settled_snoc.1 hsettled).1 hm

/-- Nobody says a second time that `A` has left. -/
theorem Parting.queues_ne (hg : Parting R A h) (hp : Passed A S h) (hq : Queues h S op m)
    (id : String) : m ≠ .peerLeft id := by
  intro he
  obtain rfl := he
  generalize hleft : Message.peerLeft id = msg at hq
  cases hq with
  | joined => cases hleft
  | reply hpc =>
    have hstage := hg.toStaged.stage S
    unfold Client.Stage at hstage
    rw [hpc, ← hleft] at hstage
    exact hstage.elim
  | @visit c env _ todo next hne hpc =>
    subst hleft
    by_cases hc : c = A
    · subst hc
      rcases hp with hp | hl
      · rw [hpc] at hp
        exact hp (.head _)
      · have hout := hg.leaver hl
        rw [hpc] at hout
        exact hout.elim
    · have hstays := (hg.others c hc).2
      obtain ⟨-, -, ⟨_, he, -⟩ | ⟨_, -, rfl⟩⟩ := hg.toStaged.broadcast hpc
      · cases he
      · rw [hpc] at hstays
        exact hstays.elim

/-- A ghost stays one. -/
theorem Parting.noGhost_of_step (hg : Parting R A h) (ho : Parts R A h op)
    (hn : NoGhost A (h.step op)) : NoGhost A h := by
  intro S hne hp
  obtain ⟨hp', hid⟩ := hg.passed_step ho hp
  have hsettled := hn S hne hp'
  rw [hid] at hsettled
  rcases hg.toStaged.stream_step op S with he | ⟨m, hq, he⟩
  · rwa [he] at hsettled
  · rw [he, Client.stream_push_self (ho.full hg.toStaged S)] at hsettled
    exact (settled_snoc.1 hsettled).2.resolve_left (hg.queues_ne hp hq _)

/-- **When nobody remains that only the others see**: `A` has left the room `R`, and every client
that was told of it has been told that it left, exactly in the runs in which nothing that announces
`A` is queued for a client its `peer-left` has gone past. -/
theorem no_ghosts_iff (R : String) (A : ClientRef) (ops : List HubOp)
    (hops : Runs.Meets Hub.step (Parts R A) {} ops) (hleft : (Runs.exec Hub.step {} ops).Left A) :
    (∀ S, S ≠ A → Settled ((Runs.exec Hub.step {} ops).client A).peerID
      ((Runs.exec Hub.step {} ops).client S).stream) ↔ Runs.Meets Hub.step (InTime A) {} ops := by
  have hstart : NoGhost A {} := fun _ _ _ => settled_of_silent fun _ hm => by cases hm
  rw [← Runs.last_iff_meets_of (I := Parting R A) (P := NoGhost A) (fun _ _ hg ho => hg.step ho)
    (fun _ _ hg ho hn => ⟨hg.inTime_of_step ho, hg.noGhost_step ho hn⟩)
    (fun _ _ hg ho hn hn' => hn (hg.noGhost_of_step ho hn')) hops (parting_start R A) hstart]
  exact ⟨fun h S hne _ => h S hne, fun h S hne => h S hne (.inr hleft)⟩

/-- The first client leaves when both have joined. -/
def leaveLate : List HubOp :=
  joinBoth ++ .hangUp 0 :: List.replicate 12 (.advance 0 (Logged.quietEnv 1))

theorem no_ghosts_iff_late :
    (∀ S, S ≠ 0 → Settled ((Runs.exec Hub.step {} leaveLate).client 0).peerID
      ((Runs.exec Hub.step {} leaveLate).client S).stream) ↔
        Runs.Meets Hub.step (InTime 0) {} leaveLate :=
  no_ghosts_iff "100000" 0 leaveLate (by decide) (by decide)

/-- The second client has scanned the hub when the first one leaves, and queues its `joined` when
the first one has left. -/
def leaveEarly : List HubOp :=
  [Logged.roomMade, .serveWS, .serveWS,
    .message 0 (fun _ _ v => (none, v)) (.join "100000" "a")] ++
    List.replicate 14 (.advance 0 (Logged.quietEnv 1)) ++
    .message 1 (fun _ _ v => (none, v)) (.join "100000" "b") ::
    List.replicate 6 (.advance 1 (Logged.quietEnv 2)) ++
    .hangUp 0 :: List.replicate 12 (.advance 0 (Logged.quietEnv 1)) ++
    List.replicate 12 (.advance 1 (Logged.quietEnv 2))

/-- The first client has left, all handlers have returned, and the second still believes the first
to be there. -/
theorem leaveEarly_ghost : Runs.Meets Hub.step (Parts "100000" 0) {} leaveEarly ∧
    (Runs.exec Hub.step {} leaveEarly).Left 0 ∧
    ((Runs.exec Hub.step {} leaveEarly).client 0).pc = .ended ∧
    ((Runs.exec Hub.step {} leaveEarly).client 1).pc = .readMessage ∧
    ¬ Settled ((Runs.exec Hub.step {} leaveEarly).client 0).peerID
      ((Runs.exec Hub.step {} leaveEarly).client 1).stream := by
  refine ⟨by decide, by decide, by decide, by decide, fun h => ?_⟩
  have hsecond : ((Runs.exec Hub.step {} leaveEarly).client 1).stream =
      [.peerLeft "peer_1", .joined "peer_2" "127.0.0.1" 10000 "" "" "" [("peer_1", "a")]] := by
    decide
  have hin := h [.peerLeft "peer_1"] _ [] hsecond (by decide)
  cases hin

end Hub

end Namecon
