import Namecon.Signal.Proof.Stages

/-!
# Channels that broadcasts send on

`handleLeave` takes the client out of `h.clients` under the write lock and closes its channel
afterwards, and `broadcastToRoom` holds the read lock while it sends. `Hub.Mailboxes` is the
invariant behind it, and `broadcasts_safe` says that in no run a broadcast sends on a closed channel
or a registered client has one.
-/

namespace Namecon.Hub

open Function (update)
open ListFacts (setKey eraseKey)

variable {h h' : Hub} {op : HubOp}

/-- The client is in `h.clients`. -/
def Connected (h : Hub) (c : ClientRef) : Prop := c ∈ h.clients.map Prod.fst

/-- The step sends on no closed channel of another client. -/
def SendsOpen (h : Hub) : HubOp → Prop
  | .advance c _ => ∀ roomId msg t todo next,
      (h.client c).pc = .broadcast roomId msg (t :: todo) next → (h.client t).roomID = roomId →
        t ≠ c → (h.client t).closed = false
  | _ => True

/-- What the invariant says of one client: `K` are the registered ones. -/
structure Sending (K : ClientRef → Prop) (c : ClientRef) (x : Client) : Prop where
  channel : K c → x.closed = false
  /-- A broadcast visits clients that are still registered. -/
  visiting : ∀ roomId msg todo next, x.pc = .broadcast roomId msg todo next → ∀ t ∈ todo, K t
  closing : ∀ last, x.pc = .closeSend last → ¬ K c

/-- Registered clients have open channels, and a broadcast only visits registered ones. -/
structure Mailboxes (h : Hub) : Prop extends Staged h where
  known : ∀ c, h.Connected c → c < h.nextClient
  sending : ∀ c, Sending h.Connected c (h.client c)

theorem mailboxes_start : ({} : Hub).Mailboxes where
  toStaged := staged_start
  known _ hc := by cases hc
  sending _ := ⟨fun _ => rfl, nofun, nofun⟩

theorem connected_walk {range : ListFacts.MapRange ClientRef Bool} {t : ClientRef} :
    t ∈ (range.walk h.clients).map Prod.fst ↔ h.Connected t :=
  ((range.perm h.clients).map Prod.fst).mem_iff

theorem connected_register {c : ClientRef} :
    c ∈ (setKey h.clients h.nextClient true).map Prod.fst ↔ h.Connected c ∨ c = h.nextClient :=
  ListFacts.mem_keys_setKey

theorem connected_unregister {c t : ClientRef} :
    t ∈ (eraseKey h.clients c).map Prod.fst ↔ h.Connected t ∧ t ≠ c :=
  ListFacts.mem_keys_eraseKey

theorem Mailboxes.visited_open (hm : h.Mailboxes) {c t : ClientRef} {roomId : String}
    {msg : Message} {todo : List ClientRef} {next : ReadPump}
    (hpc : (h.client c).pc = .broadcast roomId msg (t :: todo) next) :
    (h.client t).closed = false :=
  (hm.sending t).channel ((hm.sending c).visiting _ _ _ _ hpc t (.head _))

section
variable {K : ClientRef → Prop} {c : ClientRef} {x : Client}

theorem Sending.of_pc (hx : Sending K c x) {x' : Client} (hclosed : x'.closed = x.closed)
    (hb : ∀ roomId msg todo next, x'.pc ≠ .broadcast roomId msg todo next)
    (hs : ∀ last, x'.pc ≠ .closeSend last) : Sending K c x' :=
  ⟨by rw [hclosed]; exact hx.channel, fun _ _ _ _ hpc => absurd hpc (hb _ _ _ _),
    fun _ hpc => absurd hpc (hs _)⟩

theorem Sending.broadcast (hx : Sending K c x) {roomId : String} {msg : Message}
    {todo : List ClientRef} {next : ReadPump} (htodo : ∀ t ∈ todo, K t) :
    Sending K c { x with pc := .broadcast roomId msg todo next } :=
  ⟨hx.channel, fun _ _ _ _ hpc => by cases hpc; exact htodo, nofun⟩

theorem Sending.handleLeave (hx : Sending K c x) (last : Bool) :
    Sending K c { x with pc := x.handleLeave last } := by
  unfold Client.handleLeave
  split
  · exact hx.of_pc rfl nofun nofun
  · exact hx.of_pc rfl nofun nofun

theorem Sending.push (hx : Sending K c x) (msg : Message) : Sending K c (x.push msg) where
  channel := by rw [Client.push_closed]; exact hx.channel
  visiting := by rw [Client.push_pc]; exact hx.visiting
  closing := by rw [Client.push_pc]; exact hx.closing

/-- More registered clients, none of them this one. -/
theorem Sending.mono (hx : Sending K c x) {K' : ClientRef → Prop} (hK : ∀ t, K t → K' t)
    (hc : K' c → K c) : Sending K' c x :=
  ⟨fun h => hx.channel (hc h), fun _ _ _ _ hpc t ht => hK t (hx.visiting _ _ _ _ hpc t ht),
    fun _ hpc h => hx.closing _ hpc (hc h)⟩

end

theorem Act.sending {c : ClientRef} {x' : Client} {s' : System}
    (ha : Act h c (h.client c) op x' s') (hm : h.Mailboxes) : Sending h.Connected c x' := by
  have hx := hm.sending c
  cases ha with
  | leave => exact hx.handleLeave false
  | hangUp => exact hx.handleLeave true
  | panic => exact hx.handleLeave true
  | joined hpc => exact (hx.push _).of_pc rfl nofun nofun
  | reply hpc => exact (hx.push _).of_pc rfl nofun nofun
  | renegotiate hpc => exact hx.broadcast fun t ht => connected_walk.1 ht
  | peerLeft hpc => exact hx.broadcast fun t ht => connected_walk.1 ht
  | skip hpc => exact hx.broadcast fun t ht => hx.visiting _ _ _ _ hpc t (.tail _ ht)
  | sendPanic hpc hroom hne hclosed =>
    rw [hm.visited_open hpc] at hclosed
    cases hclosed
  | sent hpc =>
    obtain ⟨-, -, ⟨_, -, rfl⟩ | ⟨_, -, rfl⟩⟩ := hm.toStaged.broadcast hpc
    · exact hx.of_pc rfl nofun nofun
    · exact hx.of_pc rfl nofun nofun
  | setupConsumers hpc hnext =>
    rcases hnext with rfl | ⟨_, rfl⟩ <;> exact hx.of_pc rfl nofun nofun
  | addConsumer hpc hm hnext =>
    rcases hnext with rfl | ⟨_, rfl⟩ <;> exact hx.of_pc rfl nofun nofun
  | delete hpc => split <;> exact hx.of_pc rfl nofun nofun
  | @closeSend _ last hpc =>
    have hout := hx.closing _ hpc
    cases last <;> exact ⟨fun hin => absurd hin hout, nofun, nofun⟩
  | _ => exact hx.of_pc rfl nofun nofun

theorem Mailboxes.step (hm : h.Mailboxes) (op : HubOp) : (h.step op).Mailboxes := by
  have hstaged := hm.toStaged.step op
  have hmoves := h.moves op
  generalize h.step op = h' at hstaged hmoves
  cases hmoves with
  | stay => exact hm
  | createRoom => exact ⟨hstaged, hm.known, hm.sending⟩
  | packet => exact ⟨hstaged, hm.known, hm.sending⟩
  | serveWS hfree =>
    refine ⟨hstaged, fun c hc => ?_, fun c => ?_⟩
    · rcases connected_register.1 hc with hc | rfl
      · exact Nat.lt_succ_of_lt (hm.known c hc)
      · exact Nat.lt_succ_self _
    · by_cases hc : c = h.nextClient
      · subst hc
        simp only [Function.update_self]
        exact ⟨fun _ => rfl, fun _ _ _ _ hpc => (by cases hpc), fun _ hpc => (by cases hpc)⟩
      · simp only [Function.update_of_ne hc]
        exact (hm.sending c).mono (fun t ht => connected_register.2 (.inl ht))
          fun hin => (connected_register.1 hin).resolve_right hc
  | @write c msg rest hsend =>
    refine ⟨hstaged, hm.known, fun t => ?_⟩
    by_cases ht : t = c
    · subst ht
      simp only [Function.update_self]
      exact ⟨(hm.sending t).channel, (hm.sending t).visiting, (hm.sending t).closing⟩
    · simp only [Function.update_of_ne ht]
      exact hm.sending t
  | @act _ c x s ha =>
    refine ⟨hstaged, hm.known, fun t => ?_⟩
    by_cases ht : t = c
    · subst ht
      simp only [Function.update_self]
      exact ha.sending hm
    · simp only [Function.update_of_ne ht]
      exact hm.sending t
  | @visit c env roomId msg t todo next hpc hroom hne hopen =>
    refine ⟨hstaged, hm.known, fun u => ?_⟩
    by_cases hu : u = c
    · subst hu
      simp only [Function.update_self]
      exact (hm.sending u).broadcast fun v hv =>
        (hm.sending u).visiting _ _ _ _ hpc v (.tail _ hv)
    · simp only [Function.update_of_ne hu]
      by_cases ht : u = t
      · subst ht
        simp only [Function.update_self]
        exact (hm.sending u).push msg
      · simp only [Function.update_of_ne ht]
        exact hm.sending u
  | @unregister c env last hpc hfree =>
    refine ⟨hstaged, fun t ht => hm.known t (connected_unregister.1 ht).1, fun t => ?_⟩
    by_cases ht : t = c
    · subst ht
      simp only [Hub.goto, Hub.modifyClient_self]
      refine ⟨fun hin => absurd rfl (connected_unregister.1 hin).2,
        fun _ _ _ _ hb => (by cases hb), fun _ _ hin => ?_⟩
      exact (connected_unregister.1 hin).2 rfl
    · simp only [Hub.goto, Hub.modifyClient_ne ht]
      refine ⟨fun hin => (hm.sending t).channel (connected_unregister.1 hin).1,
        fun _ _ _ _ hb => ?_, fun _ hc hin => ?_⟩
      · -- the write lock is free, so nobody is in a broadcast
        have hheld : h.hubHeld = true := List.any_eq_true.2
          ⟨t, List.mem_range.2 (hm.toStaged.born_of_pc fun he => by rw [hb] at he; cases he),
            by rw [hb]; rfl⟩
        rw [hfree] at hheld
        cases hheld
      · exact (hm.sending t).closing _ hc (connected_unregister.1 hin).1

theorem Mailboxes.sendsOpen (hm : h.Mailboxes) (op : HubOp) : SendsOpen h op := by
  cases op with
  | advance c env =>
    intro roomId msg t todo next hpc _ _
    exact hm.visited_open hpc
  | _ => trivial

/-- **No broadcast sends on a closed channel**, and every registered client has an open one. -/
theorem broadcasts_safe (ops : List HubOp) :
    Runs.Meets Hub.step SendsOpen {} ops ∧
      Runs.Always Hub.step (fun h => ∀ c, h.Connected c → (h.client c).closed = false) {} ops := by
  have hinv := fun (h : Hub) (op : HubOp) (hm : h.Mailboxes) => hm.step op
  constructor
  · exact Runs.meets_of_inv hinv (fun _ op hm => hm.sendsOpen op) ops mailboxes_start
  · exact (Runs.always_of_inv' hinv ops mailboxes_start).mono
      fun _ hm c hc => (hm.sending c).channel hc

end Namecon.Hub
