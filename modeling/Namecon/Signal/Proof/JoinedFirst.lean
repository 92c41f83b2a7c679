import Namecon.Signal.Proof.Announcements

/-!
# The order of the first messages

A client is a target of broadcasts as soon as its `roomID` is set, several steps before its own
`joined` is queued. `joinedFirst_iff`: along a run of joins, no mailbox has a `renegotiate` ahead of
the `joined` of its client exactly when no broadcast visits a client between these two steps.
-/

namespace Namecon

open Function (update)

/-- The answer to a join. -/
def Message.IsJoined : Message → Prop
  | .joined _ _ _ _ _ _ _ => True
  | _ => False

/-- The call to offer anew. -/
def Message.IsRenegotiate : Message → Prop
  | .renegotiate _ _ => True
  | _ => False

theorem Message.IsReply.not_renegotiate {msg : Message} (h : msg.IsReply) :
    ¬ msg.IsRenegotiate := by
  cases msg with
  | error => exact id
  | answer => exact id
  | _ => exact h.elim

/-- Every `renegotiate` comes after a `joined`. -/
def InOrder (ms : List Message) : Prop := ∀ before m after, ms = before ++ m :: after →
  m.IsRenegotiate → ∃ j ∈ before, j.IsJoined

theorem inOrder_nil : InOrder [] := fun before m after h => by simp at h

theorem inOrder_snoc {ms : List Message} {m : Message} :
    InOrder (ms ++ [m]) ↔ InOrder ms ∧ (m.IsRenegotiate → ∃ j ∈ ms, j.IsJoined) := by
  constructor
  · intro h
    refine ⟨fun before m' after he => h before m' (after ++ [m]) ?_, h ms m [] rfl⟩
    rw [he, List.append_assoc]
    rfl
  · rintro ⟨h, hm⟩ before m' after he hm'
    rcases ListFacts.snoc_eq_append_cons he with ⟨rfl, rfl, -⟩ | ⟨after, -, hms⟩
    · exact hm hm'
    · exact h before m' after hms hm'

/-- In `handleJoin`, with its `joined` still to be queued. -/
def ReadPump.Awaits : ReadPump → Prop
  | .addPeer _ _ _ | .insert _ _ | .setPeerID _ | .setRoomID _ | .setUsername _ | .scan _
  | .joined _ _ => True
  | _ => False

/-- A target of broadcasts, with its `joined` still to be queued. -/
def ReadPump.Exposed : ReadPump → Prop
  | .setUsername _ | .scan _ | .joined _ _ => True
  | _ => False

theorem ReadPump.Exposed.awaits {pc : ReadPump} (h : pc.Exposed) : pc.Awaits := by
  cases pc with
  | setUsername | scan | joined => trivial
  | _ => exact h.elim

/-- What the mailbox of a client holds, by the progress of its join. -/
structure Client.Greeted (x : Client) : Prop where
  before : x.pc.Awaits →
    (∀ m ∈ x.stream, ¬ m.IsJoined) ∧ (InOrder x.stream → x.stream = [])
  after : x.roomID ≠ "" → ¬ x.pc.Exposed → InOrder x.stream → ∃ j ∈ x.stream, j.IsJoined

theorem Client.inOrder_push {x : Client} {msg : Message} (h : InOrder (x.push msg).stream) :
    InOrder x.stream := by
  rw [stream_push] at h
  split at h
  · exact (inOrder_snoc.1 h).1
  · rwa [List.append_nil] at h

theorem Client.inOrder_push_of {x : Client} {msg : Message} (h : InOrder x.stream)
    (hmsg : ¬ msg.IsRenegotiate) : InOrder (x.push msg).stream := by
  rw [stream_push]
  split
  · exact inOrder_snoc.2 ⟨h, fun hm => absurd hm hmsg⟩
  · rwa [List.append_nil]

theorem Client.Greeted.of_stream {x x' : Client} (hx : x.Greeted) (hs : x'.stream = x.stream)
    (ha : x'.pc.Awaits → x.pc.Awaits)
    (he : x'.roomID ≠ "" → ¬ x'.pc.Exposed → x.roomID ≠ "" ∧ ¬ x.pc.Exposed) : x'.Greeted := by
  refine ⟨fun h => ?_, fun hr hne => ?_⟩
  · rw [hs]
    exact hx.before (ha h)
  · rw [hs]
    exact hx.after (he hr hne).1 (he hr hne).2

theorem Client.Greeted.push {x : Client} (hx : x.Greeted) (ha : ¬ x.pc.Awaits) (msg : Message) :
    (x.push msg).Greeted := by
  refine ⟨fun h => absurd (Client.push_pc x msg ▸ h) ha, fun hr he hio => ?_⟩
  rw [Client.push_roomID] at hr
  rw [Client.push_pc] at he
  obtain ⟨j, hj, hjoined⟩ := hx.after hr he (Client.inOrder_push hio)
  exact ⟨j, Client.mem_stream_push hj, hjoined⟩

/-- What a broadcast makes of a client it visits. -/
theorem Client.Greeted.told {x : Client} (hx : x.Greeted) {msg : Message}
    (hmsg : msg.IsRenegotiate) : (x.push msg).Greeted := by
  by_cases ha : x.pc.Awaits
  · obtain ⟨hno, hempty⟩ := hx.before ha
    refine ⟨fun _ => ⟨fun m hm => ?_, fun hio => ?_⟩, fun hr he hio => ?_⟩
    · rw [Client.stream_push] at hm
      split at hm
      · rcases List.mem_append.1 hm with hm | hm
        · exact hno m hm
        · rw [List.mem_singleton.1 hm]
          cases msg with
          | renegotiate => exact id
          | _ => exact hmsg.elim
      · rw [List.append_nil] at hm
        exact hno m hm
    · -- the mailbox is empty, so the message is queued, and is the first
      have hs := hempty (Client.inOrder_push hio)
      have hsend : x.send = [] := (List.append_eq_nil_iff.1 hs).2
      rw [Client.stream_push_self (by rw [hsend]; decide)] at hio
      obtain ⟨j, hj, -⟩ := (inOrder_snoc.1 hio).2 hmsg
      rw [hs] at hj
      cases hj
    · rw [Client.push_roomID] at hr
      rw [Client.push_pc] at he
      obtain ⟨j, hj, hjoined⟩ := hx.after hr he (Client.inOrder_push hio)
      exact ⟨j, Client.mem_stream_push hj, hjoined⟩
  · exact hx.push ha msg

/-- What queueing its `joined` makes of a client. -/
theorem Client.Greeted.joined {x : Client} (hx : x.Greeted) (ha : x.pc.Awaits) {msg : Message}
    (hmsg : msg.IsJoined) {pc : ReadPump} (hpc : ¬ pc.Awaits) :
    ({ x.push msg with pc } : Client).Greeted := by
  refine ⟨fun h => absurd h hpc, fun _ _ hio => ?_⟩
  replace hio : InOrder (x.push msg).stream := hio
  have hsend : x.send = [] :=
    (List.append_eq_nil_iff.1 ((hx.before ha).2 (Client.inOrder_push hio))).2
  refine ⟨msg, ?_, hmsg⟩
  show msg ∈ (x.push msg).stream
  rw [Client.stream_push_self (by rw [hsend]; decide)]
  exact List.mem_append_right _ (.head _)

namespace Hub

variable {h h' : Hub} {op : HubOp} {c t : ClientRef} {x x' : Client} {s' : System}

/-- Each client sends one frame, a `join`. -/
def OnlyJoins (h : Hub) : HubOp → Prop
  | .message c _ (.join _ _) => (h.client c).peerID = "" ∧ (h.client c).stream = []
  | .message _ _ _ | .hangUp _ => False
  | _ => True

instance (h : Hub) (op : HubOp) : Decidable (h.OnlyJoins op) :=
  match op with
  | .message c _ (.join _ _) =>
    inferInstanceAs (Decidable ((h.client c).peerID = "" ∧ (h.client c).stream = []))
  | .message _ _ .invalid | .message _ _ (.offer _ _) | .message _ _ .leave
  | .message _ _ .unknown | .hangUp _ => .isFalse id
  | .createRoom _ _ | .serveWS | .advance _ _ | .writeMessage _ | .packet _ _ _ => .isTrue trivial

theorem OnlyJoins.stays (ho : h.OnlyJoins op) : op.Stays := by
  cases op with
  | message c g frame => cases frame <;> first | exact ho.elim | trivial
  | hangUp c => exact ho.elim
  | _ => trivial

theorem OnlyJoins.first (ho : h.OnlyJoins op) : h.FirstJoin op := by
  cases op with
  | message c g frame => cases frame <;> first | exact ho.1 | trivial
  | _ => trivial

/-- No mailbox has a `renegotiate` ahead of the `joined` of its client. -/
def JoinedFirst (h : Hub) : Prop := ∀ c, InOrder (h.client c).stream

/-- The step offers a message to no client that is about to be sent its `joined`. -/
def SparesExposed (h : Hub) : HubOp → Prop
  | .advance c _ => ∀ roomId msg t todo next,
      (h.client c).pc = .broadcast roomId msg (t :: todo) next → (h.client t).roomID = roomId →
        t ≠ c → ¬ (h.client t).pc.Exposed
  | _ => True

/-- Clients only join, and none has been told of another ahead of its `joined`. -/
structure Greeting (h : Hub) : Prop extends Gathering h where
  greeted : ∀ c, (h.client c).Greeted

theorem greeting_start : ({} : Hub).Greeting where
  toGathering := gathering_start
  greeted _ := ⟨fun h => h.elim, fun h => absurd rfl h⟩

/-- In a hub that nobody leaves, a broadcast announces a join. -/
theorem Gathering.isRenegotiate (hg : h.Gathering) {roomId : String} {msg : Message}
    {todo : List ClientRef} {next : ReadPump}
    (hpc : (h.client c).pc = .broadcast roomId msg todo next) : msg.IsRenegotiate := by
  obtain ⟨-, -, ⟨_, rfl, -⟩ | ⟨_, -, rfl⟩⟩ := hg.toStaged.broadcast hpc
  · trivial
  · have hstay := (hg.staying c).2
    rw [hpc] at hstay
    exact hstay.elim

theorem Act.greeted (hg : h.Greeting) (ho : h.OnlyJoins op)
    (ha : Act h c (h.client c) op x' s') : x'.Greeted := by
  have hx := hg.greeted c
  cases ha with
  | join hpc =>
    obtain ⟨hid, hs⟩ := ho
    refine ⟨fun _ => ⟨fun m hm => ?_, fun _ => hs⟩, fun hr => ?_⟩
    · replace hm : m ∈ (h.client c).stream := hm
      rw [hs] at hm
      cases hm
    · exact absurd hid ((hg.placed c).named hr)
  | leave => exact ho.elim
  | hangUp => exact ho.elim
  | addPeer hpc =>
    refine hx.of_stream rfl (fun _ => by rw [hpc]; trivial) fun hr => ?_
    exact absurd (hg.blank (by rw [hpc]; trivial)) hr
  | insert hpc =>
    refine hx.of_stream rfl (fun _ => by rw [hpc]; trivial) fun hr => ?_
    exact absurd (hg.blank (by rw [hpc]; trivial)) hr
  | setPeerID hpc =>
    refine hx.of_stream rfl (fun _ => by rw [hpc]; trivial) fun hr => ?_
    exact absurd (hg.blank (by rw [hpc]; trivial)) hr
  | setRoomID hpc =>
    exact hx.of_stream rfl (fun _ => by rw [hpc]; trivial) fun _ he => absurd trivial he
  | setUsername hpc =>
    exact hx.of_stream rfl (fun _ => by rw [hpc]; trivial) fun _ he => absurd trivial he
  | scan hpc =>
    exact hx.of_stream rfl (fun _ => by rw [hpc]; trivial) fun _ he => absurd trivial he
  | @joined _ p existing hpc =>
    exact hx.joined (by rw [hpc]; trivial) (show (p.joined existing).IsJoined from trivial) id
  | @reply _ msg hpc =>
    have hpush := hx.push (by rw [hpc]; exact id) msg
    exact hpush.of_stream rfl (fun h => h.elim)
      fun hr _ => ⟨hr, by rw [Client.push_pc, hpc]; exact id⟩
  | panic _ hclosed => rw [(hg.staying c).1] at hclosed; cases hclosed
  | sendPanic hpc _ _ hclosed =>
    rw [hg.toMailboxes.visited_open hpc] at hclosed
    cases hclosed
  | sent hpc =>
    obtain ⟨-, -, ⟨_, -, rfl⟩ | ⟨_, -, rfl⟩⟩ := hg.toStaged.broadcast hpc <;>
      exact hx.of_stream rfl (fun h => h.elim) fun hr _ => ⟨hr, by rw [hpc]; exact id⟩
  | setupConsumers hpc hnext =>
    rcases hnext with rfl | ⟨_, rfl⟩ <;>
      exact hx.of_stream rfl (fun h => h.elim) fun hr _ => ⟨hr, by rw [hpc]; exact id⟩
  | addConsumer hpc hm hnext =>
    rcases hnext with rfl | ⟨_, rfl⟩ <;>
      exact hx.of_stream rfl (fun h => h.elim) fun hr _ => ⟨hr, by rw [hpc]; exact id⟩
  | delete hpc =>
    have hstay := (hg.staying c).2
    rw [hpc] at hstay
    exact hstay.elim
  | closeSend hpc =>
    have hstay := (hg.staying c).2
    rw [hpc] at hstay
    exact hstay.elim
  | _ hpc => exact hx.of_stream rfl (fun h => h.elim) fun hr _ => ⟨hr, by rw [hpc]; exact id⟩

theorem Greeting.step (hg : h.Greeting) (ho : h.OnlyJoins op) : (h.step op).Greeting where
  toGathering := hg.toGathering.step ho.stays ho.first
  greeted t := by
    have hturn := h.turns op t
    generalize (h.step op).client t = x' at hturn
    cases hturn with
    | same => exact hg.greeted t
    | born => exact ⟨fun h => h.elim, fun h => absurd rfl h⟩
    | wrote hsend =>
      refine (hg.greeted t).of_stream ?_ id fun hr he => ⟨hr, he⟩
      simp [Client.stream, hsend]
    | acted ha => exact ha.greeted hg ho
    | told hop hpc => exact (hg.greeted t).told (hg.isRenegotiate hpc)
    | tells hop hpc =>
      exact (hg.greeted t).of_stream rfl (fun h => h.elim) fun hr _ => ⟨hr, by rw [hpc]; exact id⟩
    | unregisters hpc =>
      have hstay := (hg.staying t).2
      rw [hpc] at hstay
      exact hstay.elim

/-- A step of its own goroutine puts no `renegotiate` in a mailbox. -/
theorem Act.inOrder (ha : Act h c x op x' s') (hx : x.Stage) (h : InOrder x.stream) :
    InOrder x'.stream := by
  rcases ha.stream with he | ⟨_, _, -, he⟩ | ⟨msg, hpc, he⟩
  · rw [he]
    exact h
  · rw [he]
    exact Client.inOrder_push_of h id
  · unfold Client.Stage at hx
    rw [hpc] at hx
    rw [he]
    exact Client.inOrder_push_of h hx.not_renegotiate

/-- A broadcast that visits a client before its `joined` puts its message first. -/
theorem Greeting.exposed_visit (hg : h.Greeting) {env : HubEnv} {roomId : String} {msg : Message}
    {todo : List ClientRef} {next : ReadPump}
    (hpc : (h.client c).pc = .broadcast roomId msg (t :: todo) next)
    (hroom : (h.client t).roomID = roomId) (hne : t ≠ c) (he : (h.client t).pc.Exposed) :
    ¬ InOrder ((h.step (.advance c env)).client t).stream := by
  rw [step_visit hpc hroom hne (hg.toMailboxes.visited_open hpc)]
  intro hio
  have hs := ((hg.greeted t).before he.awaits).2 (Client.inOrder_push hio)
  have hsend : (h.client t).send = [] := (List.append_eq_nil_iff.1 hs).2
  rw [Client.stream_push_self (by rw [hsend]; decide), hs] at hio
  obtain ⟨_, hj, -⟩ := (inOrder_snoc.1 hio).2 (hg.isRenegotiate hpc)
  cases hj

theorem Greeting.joinedFirst_step (hg : h.Greeting) (hj : h.JoinedFirst) :
    (h.step op).JoinedFirst ↔ h.SparesExposed op := by
  constructor
  · intro hj'
    cases op with
    | advance c env =>
      intro roomId msg t todo next hpc hroom hne he
      exact hg.exposed_visit hpc hroom hne he (hj' t)
    | _ => trivial
  · intro hspare t
    have hturn := h.turns op t
    generalize (h.step op).client t = x' at hturn
    cases hturn with
    | same => exact hj t
    | born => exact inOrder_nil
    | wrote hsend =>
      have he := hj t
      unfold Client.stream at he ⊢
      rw [hsend] at he
      simpa using he
    | acted ha => exact ha.inOrder (hg.toStaged.stage t) (hj t)
    | told hop hpc hroom hne hopen =>
      subst hop
      -- the client is in the room, and its `joined` is in the mailbox
      have hr : (h.client t).roomID ≠ "" := by rw [hroom]; exact (hg.toStaged.broadcast hpc).2.1
      have hjoined := (hg.greeted t).after hr (hspare _ _ _ _ _ hpc hroom hne) (hj t)
      rw [Client.stream_push]
      split
      · exact inOrder_snoc.2 ⟨hj t, fun _ => hjoined⟩
      · rw [List.append_nil]
        exact hj t
    | tells => exact hj t
    | unregisters => exact hj t

/-- **When no announcement comes too early**: along the runs in which no broadcast visits a client
that is about to be sent its `joined`. -/
theorem joinedFirst_iff (ops : List HubOp) (hops : Runs.Meets Hub.step OnlyJoins {} ops) :
    Runs.Always Hub.step JoinedFirst {} ops ↔ Runs.Meets Hub.step SparesExposed {} ops :=
  Runs.always_iff_meets_of (I := Greeting) (fun _ _ hg ho => hg.step ho)
    (fun _ _ hg _ hj => hg.joinedFirst_step hj) hops greeting_start fun _ => inOrder_nil

theorem joinedFirst_iff_both :
    Runs.Always Hub.step JoinedFirst {} joinBoth ↔ Runs.Meets Hub.step SparesExposed {} joinBoth :=
  joinedFirst_iff joinBoth (by decide)

/-- The second client has set its `roomID` when the first one joins. -/
def joinEarly : List HubOp :=
  [Logged.roomMade, .serveWS, .serveWS, .message 0 (fun _ _ v => (none, v)) (.join "100000" "a"),
    .message 1 (fun _ _ v => (none, v)) (.join "100000" "b")] ++
    List.replicate 4 (.advance 1 (Logged.quietEnv 2)) ++
    List.replicate 18 (.advance 0 (Logged.quietEnv 1)) ++
    List.replicate 18 (.advance 1 (Logged.quietEnv 2))

/-- The announcement of the first client is ahead of the `joined` of the second. -/
theorem joinEarly_announced : Runs.Meets Hub.step OnlyJoins {} joinEarly ∧
    ¬ Runs.Always Hub.step JoinedFirst {} joinEarly := by
  refine ⟨by decide, fun h => ?_⟩
  have hsecond : ((Runs.exec Hub.step {} joinEarly).client 1).stream =
      [.renegotiate "peer_1" "a",
        .joined "peer_2" "127.0.0.1" 10000 "" "" "" [("peer_1", "a")]] := by decide
  obtain ⟨_, hj, -⟩ := h.last 1 [] _ _ hsecond trivial
  cases hj

end Hub

end Namecon
