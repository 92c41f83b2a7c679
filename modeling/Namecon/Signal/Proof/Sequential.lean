import Mathlib.Data.Prod.Lex
import Mathlib.Order.WellFounded
import Namecon.Signal.Proof.Mailboxes

/-!
# One handler after the other

The runs in which an event, a frame or the end of a connection, comes only when no handler is
running. At most one goroutine is then in a handler (`Hub.OneBusy`), no lock is held against it, and
it comes to the end of the handler, whatever the environment does (`OneBusy.returns`).
-/

namespace Namecon

open Function (update)

namespace ReadPump

/-- Not in a handler. -/
def Idle : ReadPump → Prop
  | .readMessage | .ended => True
  | _ => False

instance : DecidablePred Idle := fun pc =>
  match pc with
  | .readMessage | .ended => .isTrue trivial
  | .addPeer _ _ _ | .insert _ _ | .setPeerID _ | .setRoomID _ | .setUsername _ | .scan _
  | .joined _ _ | .renegotiate _ | .broadcast _ _ _ _ | .setupConsumers _ | .collect _
  | .addConsumer _ _ | .reply _ | .getRoom _ | .delete _ _ | .deleteRoom _ | .removePeer _
  | .peerLeft _ | .unregister _ | .closeSend _ => .isFalse id

/-- How far a handler is from its end: the steps that remain, and the rounds of the loop it is
in. -/
def rank : ReadPump → ℕ ×ₗ ℕ
  | .readMessage | .ended => toLex (0, 0)
  | .addPeer _ _ _ => toLex (21, 0)
  | .insert _ _ => toLex (20, 0)
  | .setPeerID _ => toLex (19, 0)
  | .setRoomID _ => toLex (18, 0)
  | .setUsername _ => toLex (17, 0)
  | .scan _ => toLex (16, 0)
  | .joined _ _ => toLex (15, 0)
  | .renegotiate _ => toLex (14, 0)
  | .broadcast _ _ todo (.unregister _) => toLex (4, todo.length)
  | .broadcast _ _ todo _ => toLex (13, todo.length)
  | .setupConsumers _ => toLex (12, 0)
  | .collect _ => toLex (11, 0)
  | .addConsumer _ todo => toLex (10, todo.length)
  | .reply _ => toLex (10, 0)
  | .getRoom _ => toLex (9, 0)
  | .delete _ _ => toLex (8, 0)
  | .deleteRoom _ => toLex (7, 0)
  | .removePeer _ => toLex (6, 0)
  | .peerLeft _ => toLex (5, 0)
  | .unregister _ => toLex (3, 0)
  | .closeSend _ => toLex (2, 0)

theorem rank_lt {a b n m : ℕ} (h : a < n ∨ a = n ∧ b < m) : toLex (a, b) < toLex (n, m) :=
  Prod.Lex.toLex_lt_toLex.2 h

theorem rank_handleLeave (x : Client) (last : Bool) {n m : ℕ} (hn : 9 < n) :
    (x.handleLeave last).rank < toLex (n, m) := by
  rcases x.handleLeave_cases last with he | he
  · rw [he]
    exact rank_lt (.inl hn)
  · rw [he]
    exact rank_lt (.inl (by omega))

theorem rank_afterLeave (last : Bool) {n m : ℕ} (hn : 0 < n) :
    (afterLeave last).rank < toLex (n, m) := by
  cases last <;> exact rank_lt (.inl hn)

end ReadPump

namespace Hub

variable {h h' : Hub} {op : HubOp} {c t : ClientRef} {x x' : Client} {s' : System}

/-- No handler is running. -/
def Idle (h : Hub) : Prop := ∀ c < h.nextClient, (h.client c).pc.Idle

instance (h : Hub) : Decidable h.Idle := Nat.decidableBallLT _ _

/-- Nobody but `c` is in a handler. -/
def OneBusy (h : Hub) (c : ClientRef) : Prop := ∀ t, t ≠ c → (h.client t).pc.Idle

/-- An event comes when no handler is running. -/
def InTurn (h : Hub) : HubOp → Prop
  | .createRoom _ _ | .message _ _ _ | .hangUp _ => h.Idle
  | _ => True

instance (h : Hub) (op : HubOp) : Decidable (h.InTurn op) :=
  match op with
  | .createRoom _ _ | .message _ _ _ | .hangUp _ => inferInstanceAs (Decidable h.Idle)
  | .serveWS | .advance _ _ | .writeMessage _ | .packet _ _ _ => .isTrue trivial

theorem Idle.all (hi : h.Idle) (hs : h.Staged) (c : ClientRef) : (h.client c).pc.Idle := by
  by_cases hc : c < h.nextClient
  · exact hi c hc
  · rw [hs.unborn c (Nat.not_lt.1 hc)]
    trivial

theorem Idle.oneBusy (hi : h.Idle) (hs : h.Staged) (c : ClientRef) : h.OneBusy c :=
  fun t _ => hi.all hs t

theorem OneBusy.eq_of_busy (hb : h.OneBusy c) (ht : ¬ (h.client t).pc.Idle) : t = c := by
  by_contra hne
  exact ht (hb t hne)

/-- The step of a goroutine is one of the busy client, or a handler starts. -/
theorem Act.busy (ha : Act h t (h.client t) op x' s') (hb : h.OneBusy c) (hin : h.InTurn op) :
    t = c ∨ h.Idle := by
  by_cases ht : t = c
  · exact .inl ht
  · have hidle := hb t ht
    cases ha with
    | answer => exact .inr hin
    | join => exact .inr hin
    | leave => exact .inr hin
    | hangUp => exact .inr hin
    | panic hpc =>
      rcases hpc with ⟨_, _, hpc⟩ | ⟨_, hpc⟩ <;> (rw [hpc] at hidle; exact hidle.elim)
    | _ hpc => rw [hpc] at hidle; exact hidle.elim

/-- A goroutine in a handler goes on with it. -/
theorem Act.advance (ha : Act h c x op x' s') (hx : ¬ x.pc.Idle) : ∃ env, op = .advance c env := by
  cases ha with
  | answer hpc => rw [hpc] at hx; exact absurd trivial hx
  | join hpc => rw [hpc] at hx; exact absurd trivial hx
  | leave hpc => rw [hpc] at hx; exact absurd trivial hx
  | hangUp hpc => rw [hpc] at hx; exact absurd trivial hx
  | _ => exact ⟨_, rfl⟩

/-! ## Handlers return -/

theorem OneBusy.not_running (hb : h.OneBusy c) {t : ClientRef} (ht : t ≠ c) :
    (h.client t).pc = .readMessage ∨ (h.client t).pc = .ended := by
  have hidle := hb t ht
  cases hpc : (h.client t).pc with
  | readMessage => exact .inl rfl
  | ended => exact .inr rfl
  | _ => rw [hpc] at hidle; exact hidle.elim

/-- A goroutine in no handler holds no lock, so a lock that `c` does not hold is free. -/
theorem OneBusy.not_held (hb : h.OneBusy c) {holds : ReadPump → Bool}
    (hread : holds .readMessage = false) (hended : holds .ended = false)
    (hc : holds (h.client c).pc = false) :
    ((List.range h.nextClient).any fun t => holds (h.client t).pc) = false := by
  refine List.any_eq_false.2 fun t _ => ?_
  by_cases ht : t = c
  · rw [ht, hc]
    exact Bool.false_ne_true
  · rcases hb.not_running ht with hpc | hpc
    · rw [hpc, hread]
      exact Bool.false_ne_true
    · rw [hpc, hended]
      exact Bool.false_ne_true

theorem OneBusy.roomHeld (hb : h.OneBusy c)
    (hc : ∀ room todo, (h.client c).pc ≠ .addConsumer room todo)
    (room : RoomRef) : h.roomHeld room = false := by
  refine hb.not_held rfl rfl ?_
  cases hpc : (h.client c).pc with
  | addConsumer room todo => exact absurd hpc (hc room todo)
  | _ => rfl

theorem OneBusy.hubHeld (hb : h.OneBusy c)
    (hc : ∀ r m todo next, (h.client c).pc ≠ .broadcast r m todo next) : h.hubHeld = false := by
  refine hb.not_held rfl rfl ?_
  cases hpc : (h.client c).pc with
  | broadcast r m todo next => exact absurd hpc (hc r m todo next)
  | _ => rfl

@[simp] theorem goto_client (h : Hub) (c : ClientRef) (pc : ReadPump) :
    (h.goto c pc).client c = { h.client c with pc } := by
  simp only [goto, modifyClient_self]

/-- A `sendToClient` in a handler goes on, or panics. -/
theorem sendToClient_rank (h : Hub) (c : ClientRef) (msg : Message) {next : ReadPump} {n m : ℕ}
    (hnext : next.rank < toLex (n, m)) (hpanic : (next.panic (h.client c)).rank < toLex (n, m)) :
    ((h.sendToClient c msg next).client c).pc.rank < toLex (n, m) := by
  unfold sendToClient
  split
  · rw [goto_client]
    exact hpanic
  · simp only [modifyClient_self]
    exact hnext

theorem broadcastOne_rank (hs : h.Staged) {roomId : String} {msg : Message}
    {u : ClientRef} {todo : List ClientRef} {next : ReadPump}
    (hpc : (h.client c).pc = .broadcast roomId msg (u :: todo) next) :
    ((h.broadcastOne c roomId msg u todo next).client c).pc.rank <
      (ReadPump.broadcast roomId msg (u :: todo) next).rank := by
  have hround : (ReadPump.broadcast roomId msg todo next).rank <
      (ReadPump.broadcast roomId msg (u :: todo) next).rank := by
    obtain ⟨-, -, ⟨_, -, rfl⟩ | ⟨_, -, rfl⟩⟩ := hs.broadcast hpc <;>
      exact ReadPump.rank_lt (.inr ⟨rfl, Nat.lt_succ_self _⟩)
  unfold broadcastOne
  split
  · split
    · rw [goto_client]
      obtain ⟨-, -, ⟨_, -, rfl⟩ | ⟨last, -, rfl⟩⟩ := hs.broadcast hpc
      · exact ReadPump.rank_handleLeave _ _ (by decide)
      · exact ReadPump.rank_afterLeave last (by decide)
    · rw [goto_client]
      exact hround
  · rw [goto_client]
    exact hround

/-- Every step of a handler that does not wait brings it closer to its end. -/
theorem advance_rank_of_not_waits (hs : h.Staged) (hc : ¬ h.Waits (h.client c).pc)
    (env : HubEnv) : ((h.advance c env).client c).pc.rank < (h.client c).pc.rank := by
  have hlater : ∀ {a b n m : ℕ}, a < n → toLex (a, b) < toLex (n, m) := fun ha =>
    ReadPump.rank_lt (.inl ha)
  cases hpc : (h.client c).pc with
  | readMessage => rw [hpc] at hc; exact absurd trivial hc
  | ended => rw [hpc] at hc; exact absurd trivial hc
  | addPeer => simp only [advance, hpc, goto_client]; exact hlater (by decide)
  | insert room p =>
    have hfree : h.roomHeld room = false := by simpa [hpc, Waits] using hc
    simp only [advance, hpc, hfree, Bool.false_eq_true, if_false, goto_client]
    exact hlater (by decide)
  | setPeerID =>
    simp only [advance, hpc, modifyClient_self]; exact hlater (by decide)
  | setRoomID =>
    simp only [advance, hpc, modifyClient_self]; exact hlater (by decide)
  | setUsername =>
    simp only [advance, hpc, modifyClient_self]; exact hlater (by decide)
  | scan => simp only [advance, hpc, goto_client]; exact hlater (by decide)
  | joined =>
    simp only [advance, hpc]
    exact sendToClient_rank h c _ (hlater (by decide)) (ReadPump.rank_handleLeave _ _ (by decide))
  | renegotiate => simp only [advance, hpc, goto_client]; exact hlater (by decide)
  | broadcast roomId msg todo next =>
    cases todo with
    | nil =>
      simp only [advance, hpc, goto_client]
      obtain ⟨-, -, ⟨_, -, rfl⟩ | ⟨_, -, rfl⟩⟩ := hs.broadcast hpc <;> exact hlater (by decide)
    | cons u todo => simp only [advance, hpc]; exact broadcastOne_rank hs hpc
  | setupConsumers =>
    simp only [advance, hpc]
    split <;> (rw [goto_client]; exact hlater (by decide))
  | collect => simp only [advance, hpc, goto_client]; exact hlater (by decide)
  | addConsumer room todo =>
    cases todo with
    | nil => simp only [advance, hpc, goto_client]; exact hlater (by decide)
    | cons call todo =>
      simp only [advance, hpc, goto_client]
      split
      · exact ReadPump.rank_lt (.inr ⟨rfl, Nat.lt_succ_self _⟩)
      · exact hlater (by decide)
  | reply =>
    simp only [advance, hpc]
    exact sendToClient_rank h c _ (hlater (by decide)) (ReadPump.rank_handleLeave _ _ (by decide))
  | getRoom =>
    simp only [advance, hpc]
    split <;> (rw [goto_client]; exact hlater (by decide))
  | delete room last =>
    have hfree : h.roomHeld room = false := by simpa [hpc, Waits] using hc
    simp only [advance, hpc, hfree, Bool.false_eq_true, if_false, goto_client]
    split <;> exact hlater (by decide)
  | deleteRoom => simp only [advance, hpc, goto_client]; exact hlater (by decide)
  | removePeer => simp only [advance, hpc, goto_client]; exact hlater (by decide)
  | peerLeft => simp only [advance, hpc, goto_client]; exact hlater (by decide)
  | unregister last =>
    have hfree : h.hubHeld = false := by simpa [hpc, Waits] using hc
    simp only [advance, hpc, hfree, Bool.false_eq_true, if_false, goto_client]
    exact hlater (by decide)
  | closeSend last =>
    simp only [advance, hpc, modifyClient_self]
    exact ReadPump.rank_afterLeave last (by decide)

/-- No lock is held against the one goroutine that is in a handler. -/
theorem OneBusy.not_waits (hb : h.OneBusy c) (hc : ¬ (h.client c).pc.Idle) :
    ¬ h.Waits (h.client c).pc := by
  intro hwait
  cases hpc : (h.client c).pc with
  | readMessage => rw [hpc] at hc; exact hc trivial
  | ended => rw [hpc] at hc; exact hc trivial
  | insert room p =>
    have hfree := hb.roomHeld (fun _ _ he => by rw [hpc] at he; cases he) room
    simp only [hpc, Waits, hfree, Bool.false_eq_true] at hwait
  | delete room last =>
    have hfree := hb.roomHeld (fun _ _ he => by rw [hpc] at he; cases he) room
    simp only [hpc, Waits, hfree, Bool.false_eq_true] at hwait
  | unregister last =>
    have hfree := hb.hubHeld (fun _ _ _ _ he => by rw [hpc] at he; cases he)
    simp only [hpc, Waits, hfree, Bool.false_eq_true] at hwait
  | _ => rw [hpc] at hwait; exact hwait

theorem advance_rank (hs : h.Staged) (hb : h.OneBusy c) (hc : ¬ (h.client c).pc.Idle)
    (env : HubEnv) : ((h.advance c env).client c).pc.rank < (h.client c).pc.rank :=
  advance_rank_of_not_waits hs (hb.not_waits hc) env

/-- A step of `c` is none of another client. -/
theorem OneBusy.step (hb : h.OneBusy c) (hop : ∃ env, op = .advance c env) :
    (h.step op).OneBusy c := by
  obtain ⟨env, rfl⟩ := hop
  intro t ht
  have hturn := h.turns (.advance c env) t
  generalize (h.step (.advance c env)).client t = x' at hturn
  cases hturn with
  | same => exact hb t ht
  | born => trivial
  | wrote => exact hb t ht
  | acted ha =>
    cases ha <;> exact absurd rfl ht
  | told => rw [Client.push_pc]; exact hb t ht
  | tells hop => cases hop; exact absurd rfl ht
  | unregisters hpc =>
    have hidle := hb t ht
    rw [hpc] at hidle
    exact hidle.elim

/-- **A handler returns**, when no other is running, whatever the environment chooses. -/
theorem OneBusy.returns (hb : h.OneBusy c) (hs : h.Staged) (envs : ℕ → HubEnv) :
    ∃ n, (Runs.exec Hub.step h ((List.range n).map fun i => .advance c (envs i))).Idle := by
  induction hr : (h.client c).pc.rank using WellFoundedLT.induction generalizing h envs with
  | ind r ih =>
    by_cases hc : (h.client c).pc.Idle
    · refine ⟨0, fun t _ => ?_⟩
      by_cases ht : t = c
      · rw [ht]
        exact hc
      · exact hb t ht
    · have hlt : ((h.step (.advance c (envs 0))).client c).pc.rank < r :=
        hr ▸ advance_rank hs hb hc (envs 0)
      obtain ⟨n, hn⟩ := ih _ hlt (hb.step ⟨_, rfl⟩) (hs.step _) (fun i => envs (i + 1)) rfl
      refine ⟨n + 1, ?_⟩
      rw [List.range_succ_eq_map, List.map_cons, List.map_map]
      exact hn

end Hub

end Namecon
