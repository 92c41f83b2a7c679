import Namecon.Signal.Proof.Mailboxes
import Namecon.Signal.Proof.Readiness

/-!
# Who learns of whom

`handleJoin` makes a client visible (`roomID`), then looks who is there (`scan`), then tells the
room (`renegotiate`). Of two clients in a room, each is told of the other, because one of them was
visible before the other looked or told: `Hub.Learns` follows the announcement of one client to
another through the steps of both, and `everyone_learns` is what remains when both have joined.
-/

namespace Namecon

open Function (update)

/-! ## What has been put in a mailbox -/

namespace Client

/-- Every message that has been queued, the written ones first. -/
def stream (x : Client) : List Message := x.written ++ x.send

/-- Messages are queued at the end, or dropped where the channel is full. -/
theorem stream_push (x : Client) (msg : Message) :
    (x.push msg).stream = x.stream ++ if x.send.length < 32 then [msg] else [] := by
  unfold stream push
  split
  · exact (List.append_assoc _ _ _).symm
  · simp

theorem mem_stream_push {x : Client} {msg m : Message} (h : m ∈ x.stream) :
    m ∈ (x.push msg).stream := by
  rw [stream_push]
  exact List.mem_append_left _ h

theorem stream_push_self {x : Client} (hfull : x.send.length < 32) (msg : Message) :
    (x.push msg).stream = x.stream ++ [msg] := by
  rw [stream_push, if_pos hfull]

end Client

/-- `x'` is `x`, but for messages that have been queued or written since. -/
structure Client.Follows (x x' : Client) : Prop where
  stream : ∀ m ∈ x.stream, m ∈ x'.stream
  pc : x'.pc = x.pc
  peerID : x'.peerID = x.peerID
  roomID : x'.roomID = x.roomID
  closed : x'.closed = x.closed

theorem Client.Follows.refl (x : Client) : x.Follows x := ⟨fun _ hm => hm, rfl, rfl, rfl, rfl⟩

theorem Client.follows_push (x : Client) (msg : Message) : x.Follows (x.push msg) :=
  ⟨fun _ hm => mem_stream_push hm, x.push_pc msg, x.push_peerID msg, x.push_roomID msg,
    x.push_closed msg⟩

theorem Client.follows_write {x : Client} {msg : Message} {rest : List Message}
    (h : x.send = msg :: rest) :
    x.Follows { x with send := rest, written := x.written ++ [msg] } := by
  refine ⟨fun m hm => ?_, rfl, rfl, rfl, rfl⟩
  unfold Client.stream at hm ⊢
  rw [h] at hm
  simpa using hm

theorem Client.follows_update {f : ClientRef → Client} {c : ClientRef} {x : Client}
    (h : (f c).Follows x) (t : ClientRef) : (f t).Follows (update f c x t) := by
  by_cases ht : t = c
  · rw [ht, Function.update_self]
    exact h
  · rw [Function.update_of_ne ht]
    exact .refl _

namespace ReadPump

/-- In a first join: the client has no id yet. -/
def Newcomer : ReadPump → Prop
  | .addPeer _ _ _ | .insert _ _ | .setPeerID _ => True
  | _ => False

/-- Visible in the room, and the scan is to come. -/
def BeforeScan : ReadPump → Prop
  | .setUsername _ | .scan _ => True
  | _ => False

/-- The `renegotiate` of the join will still be offered to `c`. -/
def WillTell (c : ClientRef) : ReadPump → Prop
  | .setUsername _ | .scan _ | .joined _ _ | .renegotiate _ => True
  | .broadcast _ _ todo (.setupConsumers _) => c ∈ todo
  | _ => False

/-- In `handleJoin`. -/
def inJoin : ReadPump → Bool
  | .addPeer _ _ _ | .insert _ _ | .setPeerID _ | .setRoomID _ | .setUsername _ | .scan _
  | .joined _ _ | .renegotiate _ | .broadcast _ _ _ (.setupConsumers _) | .setupConsumers _
  | .collect _ | .addConsumer _ _ => true
  | _ => false

theorem BeforeScan.inJoin {pc : ReadPump} (h : pc.BeforeScan) : pc.inJoin = true := by
  unfold BeforeScan at h
  split at h
  · rfl
  · rfl
  · exact h.elim

theorem WillTell.inJoin {c : ClientRef} {pc : ReadPump} (h : pc.WillTell c) :
    pc.inJoin = true := by
  unfold WillTell at h
  split at h
  · rfl
  · rfl
  · rfl
  · rfl
  · rfl
  · exact h.elim

end ReadPump

namespace Hub

variable {h h' : Hub} {op : HubOp} {c A B : ClientRef} {x x' y y' : Client} {s' : System}

/-- A step of its own goroutine queues a message for a client only where it sends one. -/
theorem Act.stream (ha : Act h c x op x' s') : x'.stream = x.stream ∨
    (∃ p existing, x.pc = .joined p existing ∧ x'.stream = (x.push (p.joined existing)).stream) ∨
    ∃ msg, x.pc = .reply msg ∧ x'.stream = (x.push msg).stream := by
  cases ha with
  | joined hpc => exact .inr (.inl ⟨_, _, hpc, rfl⟩)
  | reply hpc => exact .inr (.inr ⟨_, hpc, rfl⟩)
  | _ => exact .inl rfl

theorem Act.mem_stream (ha : Act h c x op x' s') {m : Message} (hm : m ∈ x.stream) :
    m ∈ x'.stream := by
  rcases ha.stream with he | ⟨_, _, -, he⟩ | ⟨_, -, he⟩
  · rw [he]; exact hm
  · rw [he]; exact Client.mem_stream_push hm
  · rw [he]; exact Client.mem_stream_push hm

theorem mem_existingPeers {range : ListFacts.MapRange ClientRef Bool} {roomId : String}
    (hB : h.Connected B) (hroom : (h.client B).roomID = roomId) (hne : B ≠ c)
    (hid : (h.client B).peerID ≠ "") :
    (h.client B).peerID ∈ (h.existingPeers c roomId range).map Prod.fst := by
  refine List.mem_map.2 ⟨((h.client B).peerID, (h.client B).username), ?_, rfl⟩
  exact List.mem_filterMap.2 ⟨B, connected_walk.2 hB, if_pos ⟨hroom, hne, hid⟩⟩

/-! ## Runs in which clients only join -/

/-- A `join` is handled only for a client that has not joined. -/
def FirstJoin (h : Hub) : HubOp → Prop
  | .message c _ (.join _ _) => (h.client c).peerID = ""
  | _ => True

instance (h : Hub) (op : HubOp) : Decidable (h.FirstJoin op) :=
  match op with
  | .message c _ (.join _ _) => inferInstanceAs (Decidable ((h.client c).peerID = ""))
  | .message _ _ .invalid | .message _ _ (.offer _ _) | .message _ _ .leave
  | .message _ _ .unknown | .createRoom _ _ | .serveWS | .hangUp _ | .advance _ _
  | .writeMessage _ | .packet _ _ _ => .isTrue trivial

/-- No mailbox is full. -/
def Roomy (h : Hub) : Prop := ∀ c < h.nextClient, (h.client c).send.length < 32

instance (h : Hub) : Decidable h.Roomy := Nat.decidableBallLT _ _

/-- Nobody leaves, nobody joins twice, and no mailbox is full. -/
def Gathers (h : Hub) (op : HubOp) : Prop := op.Stays ∧ h.FirstJoin op ∧ h.Roomy

instance (h : Hub) (op : HubOp) : Decidable (h.Gathers op) :=
  inferInstanceAs (Decidable (_ ∧ _ ∧ _))

/-- What holds in such runs besides: whoever has connected is there, and the id is set once. -/
structure Gathering (h : Hub) : Prop extends Mailboxes h where
  staying : h.Staying
  connected : ∀ c < h.nextClient, h.Connected c
  newcomer : ∀ c, (h.client c).pc.Newcomer → (h.client c).peerID = ""

theorem gathering_start : ({} : Hub).Gathering where
  toMailboxes := mailboxes_start
  staying _ := ⟨rfl, trivial⟩
  connected _ hc := absurd hc (Nat.not_lt_zero _)
  newcomer _ hc := hc.elim

theorem Gathering.connected_of (hg : h.Gathering) (hroom : (h.client c).roomID ≠ "") :
    h.Connected c :=
  hg.connected c (hg.toStaged.born fun hc => hroom (by rw [hc]))

theorem Gathering.blank (hg : h.Gathering) (hc : (h.client c).pc.Newcomer) :
    (h.client c).roomID = "" := by
  by_contra hroom
  exact (hg.placed c).named hroom (hg.newcomer c hc)

theorem Act.newcomer (ha : Act h c (h.client c) op x' s') (hm : h.Mailboxes)
    (hn : x'.pc.Newcomer) : x'.peerID = (h.client c).peerID ∧
      ((h.client c).pc.Newcomer ∨ ∃ g r u, op = .message c g (.join r u)) := by
  cases ha with
  | join => exact ⟨rfl, .inr ⟨_, _, _, rfl⟩⟩
  | addPeer hpc => exact ⟨rfl, .inl (by rw [hpc]; trivial)⟩
  | insert hpc => exact ⟨rfl, .inl (by rw [hpc]; trivial)⟩
  | leave => rcases (h.client c).handleLeave_cases false with he | he <;>
      (rw [he] at hn; exact hn.elim)
  | hangUp => rcases (h.client c).handleLeave_cases true with he | he <;>
      (rw [he] at hn; exact hn.elim)
  | panic => rcases (h.client c).handleLeave_cases true with he | he <;>
      (rw [he] at hn; exact hn.elim)
  | sendPanic hpc hroom hne hclosed =>
    rw [hm.visited_open hpc] at hclosed
    cases hclosed
  | sent hpc =>
    obtain ⟨-, -, ⟨_, -, rfl⟩ | ⟨_, -, rfl⟩⟩ := hm.toStaged.broadcast hpc <;> exact hn.elim
  | setupConsumers hpc hnext => rcases hnext with rfl | ⟨_, rfl⟩ <;> exact hn.elim
  | addConsumer hpc hm hnext => rcases hnext with rfl | ⟨_, rfl⟩ <;> exact hn.elim
  | delete => split at hn <;> exact hn.elim
  | @closeSend _ last => cases last <;> exact hn.elim
  | _ => exact hn.elim

theorem Gathering.newcomer_step (hg : h.Gathering) (ho : h.FirstJoin op) (t : ClientRef)
    (ht : ((h.step op).client t).pc.Newcomer) : ((h.step op).client t).peerID = "" := by
  have hturn := h.turns op t
  generalize (h.step op).client t = x' at hturn ht ⊢
  cases hturn with
  | same => exact hg.newcomer t ht
  | born => exact ht.elim
  | wrote => exact hg.newcomer t ht
  | acted ha =>
    obtain ⟨hid, hpc | ⟨g, r, u, rfl⟩⟩ := ha.newcomer hg.toMailboxes ht
    · rw [hid]; exact hg.newcomer t hpc
    · rw [hid]; exact ho
  | told =>
    rw [Client.push_pc] at ht
    rw [Client.push_peerID]
    exact hg.newcomer t ht
  | tells => exact ht.elim
  | unregisters => exact ht.elim

theorem Gathering.connected_step (hg : h.Gathering) :
    ∀ c < (h.step op).nextClient, (h.step op).Connected c := by
  have hmoves := h.moves op
  generalize h.step op = h' at hmoves
  cases hmoves with
  | serveWS => exact fun c hc =>
      connected_register.2 ((Nat.lt_succ_iff_lt_or_eq.1 hc).imp (hg.connected c) id)
  | @unregister c env last hpc hfree =>
    have hstay := (hg.staying c).2
    rw [hpc] at hstay
    exact hstay.elim
  | _ => exact hg.connected

theorem Gathering.step (hg : h.Gathering) (hstay : op.Stays) (hfirst : h.FirstJoin op) :
    (h.step op).Gathering where
  toMailboxes := hg.toMailboxes.step op
  staying := hg.staying.step hstay
  connected := hg.connected_step
  newcomer := hg.newcomer_step hfirst

/-! ## The announcement of one client to another -/

/-- The client `A`, which is `x`, has been told of the client `y`, or will be. -/
def Learns (A : ClientRef) (x y : Client) : Prop :=
  (∃ m ∈ x.stream, y.peerID ∈ m.announces) ∨ x.pc.BeforeScan ∨
    (∃ p existing, x.pc = .joined p existing ∧ y.peerID ∈ existing.map Prod.fst) ∨ y.pc.WillTell A

theorem Learns.told {m : Message} (hm : m ∈ x.stream) (hy : y.peerID ∈ m.announces) :
    Learns A x y := .inl ⟨m, hm, hy⟩

/-- A step of `A`. -/
theorem Learns.actLeft (hg : h.Gathering) (hfull : (h.client A).send.length < 32) (hne : B ≠ A)
    (ha : Act h A (h.client A) op x' s') (hroom : x'.roomID = (h.client B).roomID)
    (hr : x'.roomID ≠ "")
    (hl : (h.client A).roomID = (h.client B).roomID → (h.client A).roomID ≠ "" →
      Learns A (h.client A) (h.client B)) : Learns A x' (h.client B) := by
  have hstage := hg.toStaged.stage A
  unfold Client.Stage at hstage
  have hB : h.Connected B := hg.connected_of (by rw [← hroom]; exact hr)
  have hBid : (h.client B).peerID ≠ "" := (hg.placed B).named (by rw [← hroom]; exact hr)
  by_cases hset : ∃ p, (h.client A).pc = .setRoomID p
  · obtain ⟨p, hpc⟩ := hset
    cases ha with
    | setRoomID => exact .inr (.inl trivial)
    | _ => simp_all
  have hsame : x'.roomID = (h.client A).roomID := by
    cases ha with
    | setRoomID hpc => exact absurd ⟨_, hpc⟩ hset
    | joined => exact Client.push_roomID _ _
    | reply => exact Client.push_roomID _ _
    | _ => rfl
  rw [hsame] at hroom hr
  rcases hl hroom hr with ⟨m, hm, hy⟩ | hscan | ⟨p, existing, hpc, hy⟩ | htell
  · exact .told (ha.mem_stream hm) hy
  · cases ha with
    | setUsername => exact .inr (.inl trivial)
    | scan hpc =>
      -- `B` is visible, so the scan finds it
      rw [hpc] at hstage
      refine .inr (.inr (.inl ⟨_, _, rfl, mem_existingPeers hB ?_ hne hBid⟩))
      rw [← hroom, hstage.2.2]
    | panic hpc =>
      rcases hpc with ⟨_, _, hpc⟩ | ⟨_, hpc⟩ <;> (rw [hpc] at hscan; exact hscan.elim)
    | _ hpc => rw [hpc] at hscan; exact hscan.elim
  · cases ha with
    | joined hpc' =>
      rw [hpc] at hpc'
      cases hpc'
      refine .told (m := p.joined existing) ?_ hy
      exact (Client.stream_push_self hfull _).symm ▸ List.mem_append_right _ (.head _)
    | panic _ hclosed => rw [(hg.staying A).1] at hclosed; cases hclosed
    | _ hpc' => rw [hpc] at hpc'; cases hpc'
  · exact .inr (.inr (.inr htell))

/-- A step of `B`. -/
theorem Learns.actRight (hg : h.Gathering) (hne : A ≠ B) (ha : Act h B (h.client B) op y' s')
    (hroom : (h.client A).roomID = y'.roomID) (hr : (h.client A).roomID ≠ "")
    (hl : (h.client A).roomID = (h.client B).roomID →
      Learns A (h.client A) (h.client B)) : Learns A (h.client A) y' := by
  by_cases hset : ∃ p, (h.client B).pc = .setRoomID p
  · obtain ⟨p, hpc⟩ := hset
    cases ha with
    | setRoomID => exact .inr (.inr (.inr trivial))
    | _ => simp_all
  have hsame : y'.roomID = (h.client B).roomID ∧ y'.peerID = (h.client B).peerID := by
    cases ha with
    | setRoomID hpc => exact absurd ⟨_, hpc⟩ hset
    | setPeerID hpc =>
      -- the id is set before the client is visible
      exact absurd (hroom.trans (hg.blank (by rw [hpc]; trivial))) hr
    | joined => exact ⟨Client.push_roomID _ _, Client.push_peerID _ _⟩
    | reply => exact ⟨Client.push_roomID _ _, Client.push_peerID _ _⟩
    | _ => exact ⟨rfl, rfl⟩
  rw [hsame.1] at hroom
  unfold Learns
  rw [hsame.2]
  rcases hl hroom with hm | hscan | hjoined | htell
  · exact .inl hm
  · exact .inr (.inl hscan)
  · exact .inr (.inr (.inl hjoined))
  refine .inr (.inr (.inr ?_))
  cases ha with
  | setUsername => trivial
  | scan => trivial
  | joined => trivial
  | renegotiate => exact connected_walk.2 (hg.connected_of hr)
  | panic _ hclosed => rw [(hg.staying B).1] at hclosed; cases hclosed
  | sendPanic hpc _ _ hclosed =>
    rw [hg.toMailboxes.visited_open hpc] at hclosed
    cases hclosed
  | skip hpc hskip =>
    rw [hpc] at htell
    obtain ⟨hB, -, ⟨_, -, rfl⟩ | ⟨_, -, rfl⟩⟩ := hg.toStaged.broadcast hpc
    · -- `A` is in the room, so it is not skipped
      rcases List.mem_cons.1 htell with rfl | htodo
      · exact absurd ⟨hroom.trans hB, hne⟩ hskip
      · exact htodo
    · exact htell.elim
  | sent hpc =>
    rw [hpc] at htell
    obtain ⟨-, -, ⟨_, -, rfl⟩ | ⟨_, -, rfl⟩⟩ := hg.toStaged.broadcast hpc
    · cases htell
    · exact htell.elim
  | _ hpc => rw [hpc] at htell; exact htell.elim

theorem Learns.mono (hl : Learns A x y) (hx : x.Follows x') (hy : y.Follows y') :
    Learns A x' y' := by
  unfold Learns
  rw [hx.pc, hy.pc, hy.peerID]
  exact hl.imp_left fun ⟨m, hm, hid⟩ => ⟨m, hx.stream m hm, hid⟩

/-- Of two clients in a room, each is told of the other. -/
def Learned (h : Hub) : Prop := ∀ A B, A ≠ B → (h.client A).roomID = (h.client B).roomID →
  (h.client A).roomID ≠ "" → Learns A (h.client A) (h.client B)

theorem Learned.visit (hl : h.Learned) (hg : h.Gathering) {c t : ClientRef} {roomId : String}
    {msg : Message} {todo : List ClientRef} {next : ReadPump}
    (hfull : (h.client t).send.length < 32)
    (hpc : (h.client c).pc = .broadcast roomId msg (t :: todo) next) :
    ({ h with
      client := update (update h.client t ((h.client t).push msg)) c
        { h.client c with pc := .broadcast roomId msg todo next } } : Hub).Learned := by
  intro A B hne hroom hr
  have hf := Client.follows_update (f := h.client) ((h.client t).follows_push msg)
  by_cases hAc : A = c
  · subst hAc
    have hBc : B ≠ A := hne.symm
    simp only [Function.update_self, Function.update_of_ne hBc] at hroom hr ⊢
    have hlearns := (hl A B hne (hroom.trans (hf B).roomID) hr).mono (.refl _) (hf B)
    rcases hlearns with hm | hscan | ⟨_, _, hjoined, -⟩ | htell
    · exact .inl hm
    · rw [hpc] at hscan; exact hscan.elim
    · rw [hpc] at hjoined; cases hjoined
    · exact .inr (.inr (.inr htell))
  · simp only [Function.update_of_ne hAc] at hr ⊢
    rw [(hf A).roomID] at hr
    by_cases hBc : B = c
    · subst hBc
      simp only [Function.update_self, Function.update_of_ne hAc] at hroom ⊢
      rw [(hf A).roomID] at hroom
      rcases (hl A B hne hroom hr).mono (hf A) (.refl _) with hm | hscan | hjoined | htell
      · exact .inl hm
      · exact .inr (.inl hscan)
      · exact .inr (.inr (.inl hjoined))
      · rw [hpc] at htell
        obtain ⟨-, -, ⟨username, rfl, rfl⟩ | ⟨_, -, rfl⟩⟩ := hg.toStaged.broadcast hpc
        · rcases List.mem_cons.1 htell with rfl | htodo
          · -- `A` is sent the announcement in this step
            rw [Function.update_self]
            refine .told (m := .renegotiate (h.client B).peerID username) ?_ (.head _)
            rw [Client.stream_push_self hfull]
            exact List.mem_append_right _ (.head _)
          · exact .inr (.inr (.inr htodo))
        · exact htell.elim
    · simp only [Function.update_of_ne hAc, Function.update_of_ne hBc] at hroom ⊢
      rw [(hf A).roomID, (hf B).roomID] at hroom
      exact (hl A B hne hroom hr).mono (hf A) (hf B)

theorem Learned.step (hl : h.Learned) (hg : h.Gathering) (ho : h.Gathers op) :
    (h.step op).Learned := by
  have hmoves := h.moves op
  generalize h.step op = h' at hmoves
  cases hmoves with
  | serveWS =>
    -- the new client is in no room
    intro A B hne hroom hr
    by_cases hA : A = h.nextClient
    · subst hA
      simp only [Function.update_self] at hr
      exact absurd rfl hr
    · by_cases hB : B = h.nextClient
      · subst hB
        simp only [Function.update_of_ne hA, Function.update_self] at hroom hr
        exact absurd hroom hr
      · simp only [Function.update_of_ne hA, Function.update_of_ne hB] at hroom hr ⊢
        exact hl A B hne hroom hr
  | @write c msg rest hsend =>
    intro A B hne hroom hr
    have hf := Client.follows_update (f := h.client) (Client.follows_write hsend)
    rw [(hf A).roomID] at hr
    rw [(hf A).roomID, (hf B).roomID] at hroom
    exact (hl A B hne hroom hr).mono (hf A) (hf B)
  | @act _ c x s ha =>
    intro A B hne hroom hr
    by_cases hA : A = c
    · subst hA
      have hB : B ≠ A := hne.symm
      simp only [Function.update_self, Function.update_of_ne hB] at hroom hr ⊢
      have hfull := ho.2.2 A (hg.toStaged.born_of_pc ha.not_ended)
      exact Learns.actLeft hg hfull hB ha hroom hr (hl A B hne)
    · by_cases hB : B = c
      · subst hB
        simp only [Function.update_self, Function.update_of_ne hA] at hroom hr ⊢
        exact Learns.actRight hg hne ha hroom hr fun he => hl A B hne he hr
      · simp only [Function.update_of_ne hA, Function.update_of_ne hB] at hroom hr ⊢
        exact hl A B hne hroom hr
  | visit hpc hroom => exact hl.visit hg (ho.2.2 _ (hg.toStaged.visited hpc hroom)) hpc
  | @unregister c env last hpc hfree =>
    have hstay := (hg.staying c).2
    rw [hpc] at hstay
    exact hstay.elim
  | _ => exact hl

/-- The client has joined, and its `handleJoin` has returned. -/
def HasJoined (h : Hub) (c : ClientRef) : Prop :=
  (h.client c).roomID ≠ "" ∧ (h.client c).pc.inJoin = false

/-- **Everyone learns of everyone**: of two clients that have joined a room, each has been sent the
id of the other. -/
theorem everyone_learns (ops : List HubOp) (hops : Runs.Meets Hub.step Gathers {} ops)
    (A B : ClientRef) (hne : A ≠ B) (hA : (Runs.exec Hub.step {} ops).HasJoined A)
    (hB : (Runs.exec Hub.step {} ops).HasJoined B)
    (hroom : ((Runs.exec Hub.step {} ops).client A).roomID =
      ((Runs.exec Hub.step {} ops).client B).roomID) :
    ∃ m ∈ ((Runs.exec Hub.step {} ops).client A).stream,
      ((Runs.exec Hub.step {} ops).client B).peerID ∈ m.announces := by
  have hinv := Runs.exec_inv (I := fun h => h.Gathering ∧ h.Learned)
    (fun h op hh ho => ⟨hh.1.step ho.1 ho.2.1, hh.2.step hh.1 ho⟩)
    ⟨gathering_start, fun _ _ _ _ hr => absurd rfl hr⟩ hops
  rcases hinv.2 A B hne hroom hA.1 with hm | hscan | ⟨_, _, hjoined, -⟩ | htell
  · exact hm
  · have hin := hscan.inJoin
    rw [hA.2] at hin
    cases hin
  · have hout := hA.2
    rw [hjoined] at hout
    cases hout
  · have hin := htell.inJoin
    rw [hB.2] at hin
    cases hin

/-- Two clients join, one step of each after the other. -/
def joinBoth : List HubOp :=
  [Logged.roomMade, .serveWS, .serveWS, .message 0 (fun _ _ v => (none, v)) (.join "100000" "a"),
    .message 1 (fun _ _ v => (none, v)) (.join "100000" "b")] ++
    (List.replicate 18 [.advance 0 (Logged.quietEnv 1), .advance 1 (Logged.quietEnv 2)]).flatten

theorem everyone_learns_both :
    ∃ m ∈ ((Runs.exec Hub.step {} joinBoth).client 0).stream,
      ((Runs.exec Hub.step {} joinBoth).client 1).peerID ∈ m.announces :=
  everyone_learns joinBoth (by decide) 0 1 (by decide) ⟨by decide, by decide⟩
    ⟨by decide, by decide⟩ (by decide)

end Hub

end Namecon
