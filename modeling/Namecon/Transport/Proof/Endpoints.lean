import Namecon.Transport.Endpoints
import Namecon.Transport.Proof.Identity

/-!
# The endpoint table keeps its peers

`Tables` relates pool and endpoint table; each section of `getOrCreatePeer` and `registerPeer` keeps
it (`Tables.takePending`, `Tables.bindEndpoint`, `Tables.registerPeer`), where the peer in the hand
of a call is in neither (`Loose`). `Endpoints.Inv` adds the call under way and accounts for every
registered peer; `endpoint_integrity` reads it for all interleavings.
-/

namespace Namecon

open Runs (exec)

namespace MediaServer

open ListFacts
open Function (update)

variable {s s' : MediaServer} {ep : Endpoint} {p : PeerRef}

/-- A peer is pending under its own id or bound to one endpoint, not both, and `remoteEp` is that
endpoint. -/
structure Tables (s : MediaServer) : Prop where
  keys : (s.pendingPeers.map Prod.fst).Nodup
  ids : ∀ e ∈ s.pendingPeers, (s.router.peers e.2).peerId = e.1
  fresh : ∀ e ∈ s.pendingPeers, e.2 < s.nextPeer
  boundFresh : ∀ ep p, s.peerMap ep = some p → p < s.nextPeer
  unbound : ∀ e ∈ s.pendingPeers, ∀ ep, s.peerMap ep ≠ some e.2
  inj : ∀ ep ep' p, s.peerMap ep = some p → s.peerMap ep' = some p → ep = ep'
  remoteEp : ∀ ep p, s.peerMap ep = some p → (s.router.peers p).remoteEp = ep

/-- The peer exists and is neither pending nor bound. -/
structure Loose (s : MediaServer) (p : PeerRef) : Prop where
  lt : p < s.nextPeer
  unpooled : ∀ e ∈ s.pendingPeers, e.2 ≠ p
  unbound : ∀ ep, s.peerMap ep ≠ some p

theorem tables_start : ({} : MediaServer).Tables where
  keys := .nil
  ids _ he := absurd he List.not_mem_nil
  fresh _ he := absurd he List.not_mem_nil
  boundFresh _ _ hp := by cases hp
  unbound _ he := absurd he List.not_mem_nil
  inj _ _ _ hp := by cases hp
  remoteEp _ _ hp := by cases hp

/-! ## `registerPeer` -/

theorem makePeer_peers_ne {q : PeerRef} (hq : q < s.nextPeer) (id : String) :
    (s.makePeer id).router.peers q = s.router.peers q :=
  Router.modifyPeer_ne s.router s.nextPeer (fun _ => { peerId := id }) (Nat.ne_of_lt hq)

theorem Tables.registerPeer (h : s.Tables) (id : String) :
    ((s.makePeer id).registerPeer id s.nextPeer).Tables where
  keys := nodup_setKey h.keys
  ids e he := by
    rcases mem_setKey.1 he with ⟨he, -⟩ | rfl
    · show ((s.makePeer id).router.peers e.2).peerId = e.1
      rw [makePeer_peers_ne (h.fresh e he)]
      exact h.ids e he
    · show ((s.makePeer id).router.peers s.nextPeer).peerId = id
      simp [makePeer]
  fresh e he := by
    rcases mem_setKey.1 he with ⟨he, -⟩ | rfl
    · exact Nat.lt_succ_of_lt (h.fresh e he)
    · exact Nat.lt_succ_self _
  boundFresh ep p hp := Nat.lt_succ_of_lt (h.boundFresh ep p hp)
  unbound e he ep hp := by
    rcases mem_setKey.1 he with ⟨he, -⟩ | rfl
    · exact h.unbound e he ep hp
    · exact absurd (h.boundFresh ep _ hp) (Nat.lt_irrefl _)
  inj := h.inj
  remoteEp ep p hp := by
    show ((s.makePeer id).router.peers p).remoteEp = ep
    rw [makePeer_peers_ne (h.boundFresh ep p hp)]
    exact h.remoteEp ep p hp

theorem Loose.registerPeer (hl : s.Loose p) (id : String) :
    ((s.makePeer id).registerPeer id s.nextPeer).Loose p where
  lt := Nat.lt_succ_of_lt hl.lt
  unpooled e he := by
    rcases mem_setKey.1 he with ⟨he, -⟩ | rfl
    · exact hl.unpooled e he
    · exact Nat.ne_of_gt hl.lt
  unbound := hl.unbound

/-! ## `getOrCreatePeer` -/

/-- What the section under `_pendingMutex` does: it takes an entry of the pool, or makes a peer. -/
theorem takePending_cases (s : MediaServer) (pick : Nat) :
    (∃ e ∈ s.pendingPeers, s.takePending pick =
      ({ s with pendingPeers := eraseKey s.pendingPeers e.1 }, e.2)) ∨
    (s.pendingPeers = [] ∧ s.takePending pick = ({ s with nextPeer := s.nextPeer + 1 }, s.nextPeer))
    := by
  unfold takePending
  cases hb : s.pendingBegin pick with
  | some e => exact .inl ⟨e, pendingBegin_mem hb, rfl⟩
  | none => exact .inr ⟨pendingBegin_none hb, rfl⟩

theorem Tables.takePending (h : s.Tables) (pick : Nat) : (s.takePending pick).1.Tables := by
  rcases s.takePending_cases pick with ⟨e, -, ht⟩ | ⟨-, ht⟩
  · rw [ht]
    exact ⟨nodup_eraseKey h.keys, fun e' he' => h.ids e' (mem_eraseKey.1 he').1,
      fun e' he' => h.fresh e' (mem_eraseKey.1 he').1, h.boundFresh,
      fun e' he' => h.unbound e' (mem_eraseKey.1 he').1, h.inj, h.remoteEp⟩
  · rw [ht]
    exact ⟨h.keys, h.ids, fun e he => Nat.lt_succ_of_lt (h.fresh e he),
      fun ep p hp => Nat.lt_succ_of_lt (h.boundFresh ep p hp), h.unbound, h.inj, h.remoteEp⟩

theorem Tables.loose_takePending (h : s.Tables) (pick : Nat) :
    (s.takePending pick).1.Loose (s.takePending pick).2 := by
  rcases s.takePending_cases pick with ⟨e, he, ht⟩ | ⟨hempty, ht⟩
  · rw [ht]
    refine ⟨h.fresh e he, fun e' he' heq => ?_, h.unbound e he⟩
    obtain ⟨he', hne⟩ := mem_eraseKey.1 he'
    exact hne (by rw [← h.ids e' he', ← h.ids e he, heq])
  · rw [ht]
    refine ⟨Nat.lt_succ_self _, fun e he => ?_, fun ep hp => ?_⟩
    · exact absurd (hempty ▸ he) List.not_mem_nil
    · exact Nat.lt_irrefl _ (h.boundFresh ep _ hp)

theorem bindEndpoint_peerMap_self (s : MediaServer) (ep : Endpoint) (p : PeerRef) :
    (s.bindEndpoint ep p).peerMap ep = some p :=
  Function.update_self _ _ _

theorem bindEndpoint_peers_self (s : MediaServer) (ep : Endpoint) (p : PeerRef) :
    ((s.bindEndpoint ep p).router.peers p).remoteEp = ep := by
  simp [bindEndpoint]

theorem bindEndpoint_peers_ne {q : PeerRef} (hq : q ≠ p) :
    (s.bindEndpoint ep p).router.peers q = s.router.peers q :=
  Router.modifyPeer_ne s.router p (fun x => { x with remoteEp := ep }) hq

theorem Tables.bindEndpoint (h : s.Tables) (hl : s.Loose p) : (s.bindEndpoint ep p).Tables where
  keys := h.keys
  ids e he := (bindEndpoint_peerId _ _).trans (h.ids e he)
  fresh := h.fresh
  boundFresh ep' q hq := by
    rcases bindEndpoint_cases hq with hq | rfl
    · exact h.boundFresh ep' q hq
    · exact hl.lt
  unbound e he ep' hq := by
    rcases bindEndpoint_cases hq with hq | hq
    · exact h.unbound e he ep' hq
    · exact hl.unpooled e he hq
  inj ep₁ ep₂ q h₁ h₂ := by
    by_cases he₁ : ep₁ = ep
    · by_cases he₂ : ep₂ = ep
      · rw [he₁, he₂]
      · -- the loose peer had no endpoint before
        subst he₁
        rw [bindEndpoint_peerMap_self] at h₁
        rw [bindEndpoint_peerMap_ne _ he₂, ← h₁] at h₂
        exact absurd h₂ (hl.unbound ep₂)
    · rw [bindEndpoint_peerMap_ne _ he₁] at h₁
      by_cases he₂ : ep₂ = ep
      · subst he₂
        rw [bindEndpoint_peerMap_self] at h₂
        rw [← h₂] at h₁
        exact absurd h₁ (hl.unbound ep₁)
      · rw [bindEndpoint_peerMap_ne _ he₂] at h₂
        exact h.inj ep₁ ep₂ q h₁ h₂
  remoteEp ep' q hq := by
    by_cases he : ep' = ep
    · subst he
      rw [bindEndpoint_peerMap_self] at hq
      obtain rfl := Option.some.inj hq
      exact bindEndpoint_peers_self _ _ _
    · rw [bindEndpoint_peerMap_ne _ he] at hq
      have hne : q ≠ p := by
        intro hqp
        exact hl.unbound ep' (by rw [hq, hqp])
      rw [bindEndpoint_peers_ne hne]
      exact h.remoteEp ep' q hq

end MediaServer

/-! ## Interleavings -/

namespace Endpoints

variable {t : Endpoints} {id : String} {p : PeerRef}

/-- The peer is in the hand of the call under way. -/
def Held (t : Endpoints) (p : PeerRef) : Prop := ∃ ep, t.search = some (.holding ep p)

/-- Where a registered peer is. -/
def Accounted (t : Endpoints) (id : String) (p : PeerRef) : Prop :=
  (id, p) ∈ t.server.pendingPeers ∨ t.Held p ∨ (∃ ep, t.server.peerMap ep = some p) ∨
    p ∈ t.replaced

/-- Every registered peer is somewhere, and the peer in hand is in neither table. -/
structure Inv (t : Endpoints) : Prop where
  tables : t.server.Tables
  missed : ∀ ep, t.search = some (.missed ep) → t.server.peerMap ep = none
  holding : ∀ ep p, t.search = some (.holding ep p) →
    t.server.peerMap ep = none ∧ t.server.Loose p
  accounted : ∀ id p, (id, p) ∈ t.registered → t.Accounted id p

theorem inv_start : ({} : Endpoints).Inv where
  tables := MediaServer.tables_start
  missed _ h := by cases h
  holding _ _ h := by cases h
  accounted _ _ h := absurd h List.not_mem_nil

theorem Inv.registerPeer (h : t.Inv) (id : String) : (t.step (.registerPeer id)).Inv where
  tables := h.tables.registerPeer id
  missed := h.missed
  holding ep p hs := ⟨(h.holding ep p hs).1, (h.holding ep p hs).2.registerPeer id⟩
  accounted id' p hp := by
    rcases List.mem_cons.1 hp with he | hp
    · obtain ⟨rfl, rfl⟩ := Prod.mk.inj he
      exact .inl (ListFacts.mem_setKey.2 (.inr rfl))
    · rcases h.accounted id' p hp with hpend | hheld | hbound | hrep
      · by_cases hid : id' = id
        · -- the peer is replaced while it is pending
          refine .inr (.inr (.inr (List.mem_append_left _ ?_)))
          exact List.mem_map.2 ⟨(id', p), List.mem_filter.2 ⟨hpend, decide_eq_true hid⟩, rfl⟩
        · exact .inl (ListFacts.mem_setKey.2 (.inl ⟨hpend, hid⟩))
      · exact .inr (.inl hheld)
      · exact .inr (.inr (.inl hbound))
      · exact .inr (.inr (.inr (List.mem_append_right _ hrep)))

theorem Inv.find (h : t.Inv) (ep : Endpoint) : (t.step (.find ep)).Inv := by
  unfold step
  dsimp only
  split
  · rename_i hs hm
    refine ⟨h.tables, fun ep' he => ?_, fun _ _ he => (by cases he), fun id p hp => ?_⟩
    · obtain rfl := Search.missed.inj (Option.some.inj he)
      exact hm
    · rcases h.accounted id p hp with hpend | ⟨_, hheld⟩ | hrest
      · exact .inl hpend
      · rw [hs] at hheld
        cases hheld
      · exact .inr (.inr hrest)
  · exact h

theorem Inv.takePending (h : t.Inv) (pick : Nat) : (t.step (.takePending pick)).Inv := by
  unfold step
  dsimp only
  split
  · rename_i ep hs
    have hmap : (t.server.takePending pick).1.peerMap = t.server.peerMap := by
      rcases t.server.takePending_cases pick with ⟨e, -, ht⟩ | ⟨-, ht⟩ <;> rw [ht]
    refine ⟨h.tables.takePending pick, fun _ he => (by cases he), fun ep' p he => ?_,
      fun id p hp => ?_⟩
    · obtain ⟨rfl, rfl⟩ := Search.holding.inj (Option.some.inj he)
      exact ⟨(congrFun hmap ep).trans (h.missed ep hs), h.tables.loose_takePending pick⟩
    · rcases h.accounted id p hp with hpend | ⟨_, hheld⟩ | ⟨ep', hbound⟩ | hrep
      · rcases t.server.takePending_cases pick with ⟨e, he, ht⟩ | ⟨hempty, -⟩
        · by_cases hid : id = e.1
          · -- the peer of the entry taken is now in the hand of the call
            subst hid
            obtain rfl := ListFacts.eq_of_key h.tables.keys hpend he
            exact .inr (.inl ⟨ep, by rw [ht]⟩)
          · refine .inl ?_
            rw [ht]
            exact ListFacts.mem_eraseKey.2 ⟨hpend, hid⟩
        · exact absurd (hempty ▸ hpend) List.not_mem_nil
      · rw [hs] at hheld
        cases hheld
      · exact .inr (.inr (.inl ⟨ep', (congrFun hmap ep').trans hbound⟩))
      · exact .inr (.inr (.inr hrep))
  · exact h

theorem Inv.bind (h : t.Inv) : (t.step .bind).Inv := by
  unfold step
  dsimp only
  split
  · rename_i ep q hs
    obtain ⟨hm, hl⟩ := h.holding ep q hs
    refine ⟨h.tables.bindEndpoint hl, fun _ he => (by cases he), fun _ _ he => (by cases he),
      fun id p hp => ?_⟩
    rcases h.accounted id p hp with hpend | ⟨ep', hheld⟩ | ⟨ep', hbound⟩ | hrep
    · exact .inl hpend
    · rw [hs] at hheld
      obtain ⟨rfl, rfl⟩ := Search.holding.inj (Option.some.inj hheld)
      exact .inr (.inr (.inl ⟨ep, MediaServer.bindEndpoint_peerMap_self _ _ _⟩))
    · exact .inr (.inr (.inl ⟨ep', MediaServer.bindEndpoint_peerMap _ hm hbound⟩))
    · exact .inr (.inr (.inr hrep))
  · exact h

theorem Inv.step (h : t.Inv) (op : EndpointOp) : (t.step op).Inv := by
  cases op with
  | registerPeer id => exact h.registerPeer id
  | find ep => exact h.find ep
  | takePending pick => exact h.takePending pick
  | bind => exact h.bind

theorem inv_exec (ops : List EndpointOp) : (exec Endpoints.step {} ops).Inv :=
  Runs.exec_inv' (I := Inv) (fun _ op h => h.step op) ops inv_start

/-! ## The table over time -/

/-- What `t` has in `_peerMap`, `t'` has. -/
def Keeps (t t' : Endpoints) : Prop :=
  ∀ ep p, t.server.peerMap ep = some p → t'.server.peerMap ep = some p

theorem Inv.keeps_step (h : t.Inv) (op : EndpointOp) : t.Keeps (t.step op) := by
  intro ep p hp
  cases op with
  | registerPeer id => exact hp
  | find ep' =>
    simp only [Endpoints.step]
    split <;> exact hp
  | takePending pick =>
    simp only [Endpoints.step]
    split
    · rcases t.server.takePending_cases pick with ⟨e, -, ht⟩ | ⟨-, ht⟩ <;> rw [ht] <;> exact hp
    · exact hp
  | bind =>
    simp only [Endpoints.step]
    split
    · rename_i ep' q hs
      exact MediaServer.bindEndpoint_peerMap q (h.holding ep' q hs).1 hp
    · exact hp

theorem Inv.keeps_exec (h : t.Inv) (ops : List EndpointOp) :
    t.Keeps (exec Endpoints.step t ops) := by
  induction ops generalizing t with
  | nil => exact fun _ _ hp => hp
  | cons op ops ih => exact fun ep p hp => ih (h.step op) ep p (h.keeps_step op ep p hp)

/-- What the two maps say of each other and of the registered peers. -/
structure Integrity (t : Endpoints) : Prop where
  distinct : ∀ ep ep' p, t.server.peerMap ep = some p → t.server.peerMap ep' = some p → ep = ep'
  remoteEp : ∀ ep p, t.server.peerMap ep = some p → (t.server.router.peers p).remoteEp = ep
  apart : ∀ e ∈ t.server.pendingPeers, ∀ ep, t.server.peerMap ep ≠ some e.2
  /-- While no call is between its sections. -/
  registered : t.search = none → ∀ id p, (id, p) ∈ t.registered →
    ((id, p) ∈ t.server.pendingPeers ∧ (t.server.router.peers p).peerId = id) ∨
      (∃! ep, t.server.peerMap ep = some p) ∨ p ∈ t.replaced
  /-- At any moment: the peer a call has taken is on its way from one map to the other. -/
  moving : ∀ id p, (id, p) ∈ t.registered →
    ((id, p) ∈ t.server.pendingPeers ∧ (t.server.router.peers p).peerId = id) ∨ t.Held p ∨
      (∃! ep, t.server.peerMap ep = some p) ∨ p ∈ t.replaced

theorem Inv.moving (h : t.Inv) (hp : (id, p) ∈ t.registered) :
    ((id, p) ∈ t.server.pendingPeers ∧ (t.server.router.peers p).peerId = id) ∨ t.Held p ∨
      (∃! ep, t.server.peerMap ep = some p) ∨ p ∈ t.replaced := by
  rcases h.accounted id p hp with hpend | hheld | ⟨ep, hbound⟩ | hrep
  · exact .inl ⟨hpend, h.tables.ids _ hpend⟩
  · exact .inr (.inl hheld)
  · exact .inr (.inr (.inl ⟨ep, hbound, fun ep' hbound' => h.tables.inj ep' ep p hbound' hbound⟩))
  · exact .inr (.inr (.inr hrep))

theorem Inv.integrity (h : t.Inv) : t.Integrity where
  distinct := h.tables.inj
  remoteEp := h.tables.remoteEp
  apart := h.tables.unbound
  registered hs id p hp := by
    rcases h.moving hp with hpend | ⟨_, hheld⟩ | hrest
    · exact .inl hpend
    · rw [hs] at hheld
      cases hheld
    · exact .inr hrest
  moving _ _ hp := h.moving hp

/-- **The endpoint table keeps its peers**, in every interleaving of `registerPeer` with the
sections of `getOrCreatePeer`. -/
theorem endpoint_integrity (ops more : List EndpointOp) :
    (exec Endpoints.step {} ops).Integrity ∧
      (exec Endpoints.step {} ops).Keeps (exec Endpoints.step {} (ops ++ more)) := by
  refine ⟨(inv_exec ops).integrity, ?_⟩
  rw [Runs.exec_append]
  exact (inv_exec ops).keeps_exec more

/-- `getOrCreatePeer` is the run of its sections. -/
theorem exec_getOrCreatePeer (ht : t.search = none) (ep : Endpoint) (pick : Nat) :
    exec Endpoints.step t [.find ep, .takePending pick, .bind] =
      { t with server := (t.server.getOrCreatePeer ep pick).1 } := by
  obtain ⟨s, search, registered, replaced⟩ := t
  obtain rfl : search = none := ht
  cases hm : s.peerMap ep with
  | some p =>
    rw [MediaServer.getOrCreatePeer_known hm]
    simp [Endpoints.step, hm]
  | none =>
    rw [MediaServer.getOrCreatePeer_eq s ep pick hm]
    simp [Endpoints.step, hm]

end Endpoints

end Namecon
