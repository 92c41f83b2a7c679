import Namecon.Transport.IceServer
import Namecon.Transport.Proof.Identity

/-!
# What admits an endpoint

`Admission` is the server together with the endpoints from which a Binding Request has passed
`validateCredentials`. Nothing reads that list: a registered peer is bound to an endpoint by the
first DTLS or SRTP datagram from it (`takes_from`), and a STUN datagram leaves pool and endpoint
table as they are (`ByMedia.stun`). `admitted_by_media` states this for whole runs.
-/

namespace Namecon

open Runs (exec Meets)

/-- The checks of `onStunPacket` pass, those of the credentials included. -/
def IceServer.accepts (ice : IceServer) (lib : IceLib) (data : Bytes) : Bool :=
  stunHeaderSize ≤ data.length && ntohsAt data 0 == bindingRequest &&
    ntohlAt data 4 == stunMagicCookie && (ice.validateCredentials lib data).isSome

theorem IceServer.onStunPacket_eq (ice : IceServer) (lib : IceLib) (data : Bytes)
    (remote : Endpoint) : ice.onStunPacket lib data remote =
      if ice.accepts lib data then [ice.sendResponse lib data remote] else [] := by
  unfold onStunPacket accepts
  by_cases hlen : data.length < stunHeaderSize
  · rw [if_pos hlen, if_neg (by simp; omega)]
  by_cases htype : ntohsAt data 0 = bindingRequest
  · by_cases hcookie : ntohlAt data 4 = stunMagicCookie
    · rw [if_neg hlen, if_neg (not_not.2 htype), if_neg (not_not.2 hcookie)]
      cases ice.validateCredentials lib data <;> simp [htype, hcookie, Nat.not_lt.1 hlen]
    · rw [if_neg hlen, if_neg (not_not.2 htype), if_pos hcookie, if_neg (by simp [hcookie])]
  · rw [if_neg hlen, if_pos htype, if_neg (by simp [htype])]

namespace MediaServer

variable {s : MediaServer} {op : ServerOp} {ep : Endpoint} {p : PeerRef}

/-! ## Waiting and bound -/

/-- Beside `Pool`: no peer waits that is bound to an endpoint. -/
structure Apart (s : MediaServer) : Prop where
  pool : s.Pool
  unbound : ∀ e ∈ s.pendingPeers, ∀ ep, s.peerMap ep ≠ some e.2

/-- A peer waits under one id. -/
theorem Pool.eq_of_ref (h : s.Pool) {e e' : String × PeerRef} (he : e ∈ s.pendingPeers)
    (he' : e' ∈ s.pendingPeers) (hp : e.2 = e'.2) : e = e' := by
  have hid : e.1 = e'.1 := by rw [← h.ids e he, ← h.ids e' he', hp]
  obtain ⟨id, q⟩ := e
  obtain ⟨id', q'⟩ := e'
  obtain rfl : id = id' := hid
  obtain rfl : q = q' := hp
  rfl

theorem Apart.frame {s' : MediaServer} (h : s.Apart) (hs : SamePool s s') : s'.Apart where
  pool := h.pool.frame hs
  unbound e he ep := by
    rw [hs.pendingPeers] at he
    rw [hs.peerMap]
    exact h.unbound e he ep

theorem Apart.getOrCreatePeer (h : s.Apart) (pick : Nat) :
    (s.getOrCreatePeer ep pick).1.Apart := by
  refine ⟨h.pool.getOrCreatePeer pick, ?_⟩
  cases hm : s.peerMap ep with
  | some p => rw [getOrCreatePeer_known hm]; exact h.unbound
  | none =>
    cases hb : s.pendingBegin pick with
    | none =>
      rw [getOrCreatePeer_made hm hb]
      intro e he ep' hep'
      rcases bindEndpoint_cases hep' with hold | hnew
      · exact h.unbound e he ep' hold
      · exact absurd (h.pool.fresh e he) (Nat.not_lt.2 (Nat.le_of_eq hnew.symm))
    | some e' =>
      rw [getOrCreatePeer_drawn hm hb]
      intro e he ep' hep'
      obtain ⟨he, hne⟩ := ListFacts.mem_eraseKey.1 he
      rcases bindEndpoint_cases hep' with hold | hnew
      · exact h.unbound e he ep' hold
      · exact hne (congrArg Prod.fst (h.pool.eq_of_ref he (pendingBegin_mem hb) hnew))

theorem Apart.onPacket (h : s.Apart) (data : Bytes) (ep : Endpoint) (env : PacketEnv) :
    (s.onPacket data ep env).1.Apart :=
  onPacket_cases (P := Apart) h ((h.getOrCreatePeer env.pick).frame (samePool_handleDtls s ep env))
    ((h.getOrCreatePeer env.pick).frame (samePool_handleSrtp s data ep env))

theorem Apart.step (h : s.Apart) (op : ServerOp) : (s.step op).Apart := by
  cases op with
  | addPeer info id =>
    refine ⟨h.pool.addPeer info id, fun e he ep hep => ?_⟩
    rcases ListFacts.mem_setKey.1 he with ⟨he, -⟩ | rfl
    · exact h.unbound e he ep hep
    · exact absurd (h.pool.boundFresh ep _ hep) (Nat.lt_irrefl _)
  | addConsumer sub pub v d => exact h.frame (samePool_addConsumer s sub pub v d)
  | sendOffer g id sdp rms => exact h.frame (samePool_sendOffer s g id sdp rms)
  | removePeer id =>
    refine ⟨h.pool.removePeer id, ?_⟩
    show ∀ e ∈ (s.removePeer id).pendingPeers, ∀ ep, (s.removePeer id).peerMap ep ≠ some e.2
    unfold removePeer
    split <;> exact h.unbound
  | packet data ep env => exact h.onPacket data ep env

theorem apart_start : ({} : MediaServer).Apart :=
  ⟨pool_start, fun _ he => absurd he List.not_mem_nil⟩

/-! ## Taking a registered peer -/

/-- Between `s` and `s'` the peer `p` leaves the pool and is bound to `ep`. -/
structure Takes (s s' : MediaServer) (p : PeerRef) (ep : Endpoint) : Prop where
  waited : ∃ id, (id, p) ∈ s.pendingPeers
  left : ∀ id, (id, p) ∉ s'.pendingPeers
  bound : s'.peerMap ep = some p

theorem Takes.congr {s s' s'' : MediaServer} (h : Takes s s' p ep) (hs : SamePool s' s'') :
    Takes s s'' p ep :=
  ⟨h.waited, fun id => by rw [hs.pendingPeers]; exact h.left id,
    by rw [hs.peerMap]; exact h.bound⟩

theorem SamePool.symm {s' : MediaServer} (h : SamePool s s') : SamePool s' s :=
  ⟨h.pendingPeers.symm, h.nextPeer.symm, h.peerMap.symm, h.peers.symm, fun q => (h.ids q).symm⟩

/-- What keeps the endpoint table lets nobody take a peer. -/
theorem Apart.not_takes {s' : MediaServer} (h : s.Apart) (hm : s'.peerMap = s.peerMap) :
    ¬ Takes s s' p ep := by
  intro ht
  obtain ⟨id, he⟩ := ht.waited
  have hb := ht.bound
  rw [hm] at hb
  exact h.unbound (id, p) he ep hb

theorem Apart.takes_getOrCreatePeer (h : s.Apart) {ep' : Endpoint} {pick : Nat}
    (ht : Takes s (s.getOrCreatePeer ep' pick).1 p ep) : ep' = ep ∧ s.peerMap ep = none := by
  obtain ⟨id, he⟩ := ht.waited
  have hnew : s.peerMap ep ≠ some p := h.unbound (id, p) he ep
  cases hm : s.peerMap ep' with
  | some q =>
    rw [getOrCreatePeer_known hm] at ht
    exact absurd ht.bound hnew
  | none =>
    have hep : ep = ep' := by
      by_contra hne
      apply hnew
      rw [← ht.bound]
      cases hb : s.pendingBegin pick with
      | none => rw [getOrCreatePeer_made hm hb, bindEndpoint_peerMap_ne _ hne]
      | some e => rw [getOrCreatePeer_drawn hm hb, bindEndpoint_peerMap_ne _ hne]
    exact ⟨hep.symm, hep ▸ hm⟩

/-- A new endpoint takes the peer that `begin()` yields. -/
theorem Pool.takes_begin (h : s.Pool) {pick : Nat} {e : String × PeerRef}
    (hm : s.peerMap ep = none) (he : s.pendingBegin pick = some e) :
    Takes s (s.getOrCreatePeer ep pick).1 e.2 ep := by
  rw [getOrCreatePeer_drawn hm he]
  refine ⟨⟨e.1, pendingBegin_mem he⟩, fun id hid => ?_, Function.update_self _ _ _⟩
  obtain ⟨hid, hne⟩ := ListFacts.mem_eraseKey.1 hid
  exact hne (congrArg Prod.fst (h.eq_of_ref hid (pendingBegin_mem he) rfl))

/-- A step takes a registered peer only for the sender of a DTLS or SRTP datagram that has none. -/
theorem Apart.takes_from (h : s.Apart) (ht : Takes s (s.step op) p ep) :
    ep ∈ op.mediaFrom ∧ s.peerMap ep = none := by
  cases op with
  | addPeer info id => exact absurd ht (h.not_takes rfl)
  | addConsumer sub pub v d =>
    exact absurd ht (h.not_takes (samePool_addConsumer s sub pub v d).peerMap)
  | sendOffer g id sdp rms =>
    exact absurd ht (h.not_takes (samePool_sendOffer s g id sdp rms).peerMap)
  | removePeer id =>
    have hm : (s.removePeer id).peerMap = s.peerMap := by
      unfold MediaServer.removePeer
      split <;> rfl
    exact absurd ht (h.not_takes hm)
  | packet data ep' env =>
    change Takes s (s.onPacket data ep' env).1 p ep at ht
    unfold MediaServer.onPacket at ht
    have hfrom : ∀ hproto : protocol data = some .dtls ∨ protocol data = some .srtp,
        ep' = ep ∧ s.peerMap ep = none →
          ep ∈ (ServerOp.packet data ep' env).mediaFrom ∧ s.peerMap ep = none := by
      intro hproto h
      obtain ⟨rfl, hm⟩ := h
      exact ⟨if_pos hproto, hm⟩
    cases hproto : protocol data with
    | none =>
      rw [hproto] at ht
      exact absurd ht (h.not_takes rfl)
    | some proto =>
      rw [hproto] at ht
      cases proto with
      | stun => exact absurd ht (h.not_takes rfl)
      | dtls =>
        have ht := ht.congr (samePool_handleDtls s ep' env).symm
        exact hfrom (.inl hproto) (h.takes_getOrCreatePeer ht)
      | srtp =>
        have ht := ht.congr (samePool_handleSrtp s data ep' env).symm
        exact hfrom (.inr hproto) (h.takes_getOrCreatePeer ht)

end MediaServer

/-! ## Runs -/

/-- The server, and the endpoints from which a Binding Request has passed `validateCredentials`. -/
structure Admission where
  server : MediaServer := {}
  authenticated : List Endpoint := []

/-- The endpoint whose Binding Request passes. -/
def ServerOp.passes (ice : IceServer) (lib : IceLib) : ServerOp → Option Endpoint
  | .packet data ep _ =>
    if MediaServer.protocol data = some .stun ∧ ice.accepts lib data then some ep else none
  | _ => none

/-- The operation, with the answer of the ICE server to a datagram. -/
def ServerOp.withIce (ice : IceServer) (lib : IceLib) : ServerOp → ServerOp
  | .packet data ep env => .packet data ep { env with ice := ice.onStunPacket lib data ep }
  | op => op

namespace Admission

variable {ice : IceServer} {lib : IceLib} {a : Admission} {op : ServerOp}

/-- A step of the server; a request that passes puts its endpoint on the list. -/
def step (ice : IceServer) (lib : IceLib) (a : Admission) (op : ServerOp) : Admission where
  server := a.server.step (op.withIce ice lib)
  authenticated := (op.passes ice lib).toList ++ a.authenticated

/-- The registered peers that the step takes go to endpoints that have authenticated. -/
def OnlyAuthenticated (ice : IceServer) (lib : IceLib) (a : Admission) (op : ServerOp) : Prop :=
  ∀ p ep, MediaServer.Takes a.server (a.step ice lib op).server p ep → ep ∈ a.authenticated

/-- What the step does to the pool, whoever has authenticated. -/
structure ByMedia (ice : IceServer) (lib : IceLib) (a : Admission) (op : ServerOp) : Prop where
  /-- A registered peer goes to the sender of a DTLS or SRTP datagram that had no peer. -/
  taken : ∀ p ep, MediaServer.Takes a.server (a.step ice lib op).server p ep →
    ep ∈ op.mediaFrom ∧ a.server.peerMap ep = none
  /-- A DTLS datagram of an endpoint without a peer takes the first of the pool. -/
  dtls : ∀ data ep env e, op = .packet data ep env → MediaServer.protocol data = some .dtls →
    a.server.peerMap ep = none → a.server.pendingBegin env.pick = some e →
      MediaServer.Takes a.server (a.step ice lib op).server e.2 ep
  /-- A STUN datagram, whether or not its credentials pass, changes neither pool nor table. -/
  stun : ∀ data ep env, op = .packet data ep env → MediaServer.protocol data = some .stun →
    (a.step ice lib op).server.pendingPeers = a.server.pendingPeers ∧
      (a.step ice lib op).server.peerMap = a.server.peerMap

@[simp] theorem mediaFrom_withIce (op : ServerOp) :
    (op.withIce ice lib).mediaFrom = op.mediaFrom := by
  cases op <;> rfl

theorem byMedia (h : a.server.Apart) (op : ServerOp) : ByMedia ice lib a op where
  taken p ep ht := by
    obtain ⟨hep, hm⟩ := h.takes_from ht
    rw [mediaFrom_withIce] at hep
    exact ⟨hep, hm⟩
  dtls data ep env e hop hproto hm he := by
    subst hop
    show MediaServer.Takes a.server (a.server.onPacket data ep _).1 e.2 ep
    rw [MediaServer.onPacket, hproto]
    exact (h.pool.takes_begin hm he).congr (MediaServer.samePool_handleDtls a.server ep _)
  stun data ep env hop hproto := by
    subst hop
    have hsame : (a.server.onPacket data ep
        { env with ice := ice.onStunPacket lib data ep }).1 = a.server := by
      rw [MediaServer.onPacket, hproto]
    show (a.server.onPacket data ep _).1.pendingPeers = a.server.pendingPeers ∧
      (a.server.onPacket data ep _).1.peerMap = a.server.peerMap
    rw [hsame]
    exact ⟨rfl, rfl⟩

/-- **What admits an endpoint**, in every run of RPCs and datagrams. -/
theorem admitted_by_media (ice : IceServer) (lib : IceLib) (ops : List ServerOp) :
    Meets (step ice lib) (ByMedia ice lib) {} ops :=
  Runs.meets_of_inv (I := fun a : Admission => a.server.Apart)
    (fun _ op h => h.step (op.withIce ice lib)) (fun _ op h => byMedia h op) ops
    MediaServer.apart_start

/-- Client a joins; an endpoint that has sent no STUN datagram sends a DTLS record and takes the
peer of the client. -/
theorem dtls_admits : ¬ Meets (step ⟨[], []⟩ ⟨fun _ _ => [], fun _ => 0⟩)
    (OnlyAuthenticated ⟨[], []⟩ ⟨fun _ _ => [], fun _ => 0⟩) {}
    [.addPeer {} "a", MediaServer.firstFlight ⟨0, 2⟩] := by
  intro h
  have hempty : (exec (step ⟨[], []⟩ ⟨fun _ _ => [], fun _ => 0⟩) {}
      [.addPeer {} "a", MediaServer.firstFlight ⟨0, 2⟩]).server.pendingPeers = [] := by decide
  have hleft : ∀ id, (id, 0) ∉ (exec (step ⟨[], []⟩ ⟨fun _ _ => [], fun _ => 0⟩) {}
      [.addPeer {} "a", MediaServer.firstFlight ⟨0, 2⟩]).server.pendingPeers := by
    rw [hempty]
    exact fun _ => List.not_mem_nil
  exact absurd (h.2.1 0 ⟨0, 2⟩ ⟨⟨"a", by decide⟩, hleft, by decide⟩) List.not_mem_nil

end Admission

end Namecon
