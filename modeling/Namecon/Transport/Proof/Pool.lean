import Namecon.Grpc.MediaService
import Namecon.Sfu.Proof.Transport

/-!
# The pool of registered peers

A peer made by `AddPeer` waits in the pool under the id of its client until the first DTLS or SRTP
datagram of a new endpoint takes it (`Pool`). `getOrCreatePeer_drawn` says which peer such
a datagram may be given: any of those that wait.
-/

namespace Namecon.MediaServer

open ListFacts Router
open Function (update)

variable {s : MediaServer} {ep : Endpoint} {env : PacketEnv} {data : Bytes}

/-- The pool, the endpoint table and the registry agree, in every reachable state. -/
structure Pool (s : MediaServer) : Prop where
  keys : (s.pendingPeers.map Prod.fst).Nodup
  ids : ∀ e ∈ s.pendingPeers, (s.router.peers e.2).peerId = e.1
  fresh : ∀ e ∈ s.pendingPeers, e.2 < s.nextPeer
  boundFresh : ∀ ep p, s.peerMap ep = some p → p < s.nextPeer
  /-- A registered peer waits, or an endpoint has been bound to it. -/
  registered : ∀ id p, s.peers id = some p →
    (id, p) ∈ s.pendingPeers ∨ ∃ ep, s.peerMap ep = some p

/-! ## Drawing a peer -/

theorem pendingBegin_mem {pick : Nat} {e : String × PeerRef} (h : s.pendingBegin pick = some e) :
    e ∈ s.pendingPeers :=
  List.mem_of_getElem? h

/-- Any entry of the pool may be the first. -/
theorem exists_pick {e : String × PeerRef} (h : e ∈ s.pendingPeers) :
    ∃ pick, s.pendingBegin pick = some e := by
  obtain ⟨i, hi, he⟩ := List.mem_iff_getElem.1 h
  exact ⟨i, by rw [pendingBegin, Nat.mod_eq_of_lt hi, List.getElem?_eq_getElem hi, he]⟩

theorem pendingBegin_none {pick : Nat} (h : s.pendingBegin pick = none) : s.pendingPeers = [] := by
  cases hp : s.pendingPeers with
  | nil => rfl
  | cons e l =>
    rw [pendingBegin, hp, List.getElem?_eq_none_iff] at h
    exact absurd (Nat.mod_lt pick (Nat.succ_pos l.length)) (Nat.not_lt.2 h)

theorem getOrCreatePeer_known {p : PeerRef} (h : s.peerMap ep = some p) (pick : Nat) :
    s.getOrCreatePeer ep pick = (s, p) := by
  simp only [getOrCreatePeer, h]

theorem getOrCreatePeer_drawn (h : s.peerMap ep = none) {pick : Nat} {e : String × PeerRef}
    (he : s.pendingBegin pick = some e) : s.getOrCreatePeer ep pick =
      ({ s with pendingPeers := eraseKey s.pendingPeers e.1 }.bindEndpoint ep e.2, e.2) := by
  simp only [getOrCreatePeer, h, he]

theorem getOrCreatePeer_made (h : s.peerMap ep = none) {pick : Nat}
    (he : s.pendingBegin pick = none) : s.getOrCreatePeer ep pick =
      ({ s with nextPeer := s.nextPeer + 1 }.bindEndpoint ep s.nextPeer, s.nextPeer) := by
  simp only [getOrCreatePeer, h, he]

@[simp] theorem bindEndpoint_peerId (p q : PeerRef) :
    ((s.bindEndpoint ep p).router.peers q).peerId = (s.router.peers q).peerId := by
  by_cases h : q = p
  · subst h; simp [bindEndpoint]
  · simp [bindEndpoint, modifyPeer_ne _ _ _ h]

theorem bindEndpoint_peerMap (p : PeerRef) {ep' : Endpoint} {q : PeerRef}
    (hn : s.peerMap ep = none) (h : s.peerMap ep' = some q) :
    (s.bindEndpoint ep p).peerMap ep' = some q := by
  have hne : ep' ≠ ep := fun he => by rw [he, hn] at h; cases h
  exact (Function.update_of_ne hne _ _).trans h

theorem bindEndpoint_peerMap_ne (p : PeerRef) {ep' : Endpoint} (h : ep' ≠ ep) :
    (s.bindEndpoint ep p).peerMap ep' = s.peerMap ep' :=
  Function.update_of_ne h _ _

/-- The table after an endpoint is bound. -/
theorem bindEndpoint_cases {p q : PeerRef} {ep' : Endpoint}
    (h : (s.bindEndpoint ep p).peerMap ep' = some q) : s.peerMap ep' = some q ∨ q = p := by
  replace h : update s.peerMap ep (some p) ep' = some q := h
  by_cases he : ep' = ep
  · rw [he, Function.update_self] at h
    exact .inr (Option.some.inj h).symm
  · rw [Function.update_of_ne he] at h
    exact .inl h

theorem Pool.getOrCreatePeer (h : s.Pool) (pick : Nat) : (s.getOrCreatePeer ep pick).1.Pool := by
  cases hm : s.peerMap ep with
  | some p => rw [getOrCreatePeer_known hm]; exact h
  | none =>
    cases hb : s.pendingBegin pick with
    | none =>
      rw [getOrCreatePeer_made hm hb]
      refine ⟨h.keys, fun e he => ?_, fun e he => Nat.lt_succ_of_lt (h.fresh e he),
        fun ep' p hp => ?_, fun id p hp => ?_⟩
      · exact (bindEndpoint_peerId _ _).trans (h.ids e he)
      · rcases bindEndpoint_cases hp with hp | rfl
        · exact Nat.lt_succ_of_lt (h.boundFresh ep' p hp)
        · exact Nat.lt_succ_self _
      · rcases h.registered id p hp with hp | ⟨ep', hp⟩
        · exact .inl hp
        · exact .inr ⟨ep', bindEndpoint_peerMap _ hm hp⟩
    | some e =>
      rw [getOrCreatePeer_drawn hm hb]
      refine ⟨nodup_eraseKey h.keys, fun e' he' => ?_,
        fun e' he' => h.fresh e' (mem_eraseKey.1 he').1, fun ep' p hp => ?_, fun id p hp => ?_⟩
      · exact (bindEndpoint_peerId _ _).trans (h.ids e' (mem_eraseKey.1 he').1)
      · rcases bindEndpoint_cases hp with hp | rfl
        · exact h.boundFresh ep' p hp
        · exact h.fresh e (pendingBegin_mem hb)
      · rcases h.registered id p hp with hp | ⟨ep', hp⟩
        · by_cases hid : id = e.1
          · -- the peer of the client that is drawn
            subst hid
            obtain rfl := eq_of_key h.keys hp (pendingBegin_mem hb)
            exact .inr ⟨ep, Function.update_self _ _ _⟩
          · exact .inl (mem_eraseKey.2 ⟨hp, hid⟩)
        · exact .inr ⟨ep', bindEndpoint_peerMap _ hm hp⟩

/-! ## Steps that leave the pool alone -/

/-- `s'` differs from `s` in the router alone, and there in no id. -/
structure SamePool (s s' : MediaServer) : Prop where
  pendingPeers : s'.pendingPeers = s.pendingPeers
  nextPeer : s'.nextPeer = s.nextPeer
  peerMap : s'.peerMap = s.peerMap
  peers : s'.peers = s.peers
  ids : ∀ q, (s'.router.peers q).peerId = (s.router.peers q).peerId

theorem Pool.frame {s' : MediaServer} (h : s.Pool) (hs : SamePool s s') : s'.Pool where
  keys := by rw [hs.pendingPeers]; exact h.keys
  ids e he := by rw [hs.ids]; rw [hs.pendingPeers] at he; exact h.ids e he
  fresh e he := by rw [hs.nextPeer]; rw [hs.pendingPeers] at he; exact h.fresh e he
  boundFresh ep p hp := by rw [hs.nextPeer]; rw [hs.peerMap] at hp; exact h.boundFresh ep p hp
  registered id p hp := by
    rw [hs.peers] at hp
    rw [hs.pendingPeers, hs.peerMap]
    exact h.registered id p hp

theorem modifyPeer_peerId {r : Router} {p q : PeerRef} {f : Peer → Peer}
    (hf : ∀ x, (f x).peerId = x.peerId) :
    ((r.modifyPeer p f).peers q).peerId = (r.peers q).peerId := by
  by_cases h : q = p
  · subst h; rw [modifyPeer_self, hf]
  · rw [modifyPeer_ne _ _ _ h]

theorem samePool_handleDtls (s : MediaServer) (ep : Endpoint) (env : PacketEnv) :
    SamePool (s.getOrCreatePeer ep env.pick).1 (s.handleDtls ep env).1 := by
  refine handleDtls_cases (P := SamePool _) fun f hf => ⟨rfl, rfl, rfl, rfl, fun q => ?_⟩
  apply modifyPeer_peerId
  intro x
  obtain ⟨_, _, he⟩ := hf x
  rw [he]

theorem samePool_handleSrtp (s : MediaServer) (data : Bytes) (ep : Endpoint) (env : PacketEnv) :
    SamePool (s.getOrCreatePeer ep env.pick).1 (s.handleSrtp data ep env).1 := by
  refine handleSrtp_cases (P := SamePool _) ⟨rfl, rfl, rfl, rfl, fun _ => rfl⟩ fun plain => ?_
  exact ⟨rfl, rfl, rfl, rfl, (sameTransport_onRtpPacket _ _ _ _ _).peerId⟩

theorem sameTransport_bindMids (S : PeerRef) (rms : List RecvMid)
    (acc : Router × (String → Option UInt32)) : SameTransport acc.1 (bindMids S rms acc).1 := by
  induction rms generalizing acc with
  | nil => exact .refl _
  | cons rm rms ih => exact (sameTransport_bind _ _ _ _ _).trans (ih _)

theorem samePool_addConsumer (s : MediaServer) (sub pub : String) (v : Bool) (d : SsrcDraw) :
    SamePool s (s.addConsumer sub pub v d).1 := by
  unfold addConsumer
  split
  · exact ⟨rfl, rfl, rfl, rfl, (sameTransport_addConsumer _ _ _ _ _).peerId⟩
  · exact ⟨rfl, rfl, rfl, rfl, fun _ => rfl⟩

theorem samePool_sendOffer (s : MediaServer) (g : GenerateAnswer) (id sdp : String)
    (rms : List RecvMid) : SamePool s (s.sendOffer g id sdp rms).1 := by
  refine ⟨rfl, rfl, rfl, rfl, ?_⟩
  simp only [sendOffer, offerMids]
  split
  · exact fun _ => rfl
  · exact (sameTransport_bindMids _ _ _).peerId

/-! ## Runs -/

theorem addPeer_router (s : MediaServer) (info : ServerInfo) (id : String) :
    (s.addPeer info id).1.router = s.router.modifyPeer s.nextPeer fun _ => { peerId := id } := rfl

theorem Pool.addPeer (h : s.Pool) (info : ServerInfo) (id : String) :
    (s.addPeer info id).1.Pool where
  keys := nodup_setKey h.keys
  ids e he := by
    rcases mem_setKey.1 he with ⟨he, -⟩ | rfl
    · rw [addPeer_router, modifyPeer_ne _ _ _ (Nat.ne_of_lt (h.fresh e he))]
      exact h.ids e he
    · rw [addPeer_router, modifyPeer_self]
  fresh e he := by
    rcases mem_setKey.1 he with ⟨he, -⟩ | rfl
    · exact Nat.lt_succ_of_lt (h.fresh e he)
    · exact Nat.lt_succ_self _
  boundFresh ep p hp := Nat.lt_succ_of_lt (h.boundFresh ep p hp)
  registered id' p hp := by
    by_cases hid : id' = id
    · subst hid
      obtain rfl : s.nextPeer = p := by simpa [MediaServer.addPeer, registerPeer] using hp
      exact .inl (mem_setKey.2 (.inr rfl))
    · have hp : s.peers id' = some p := by
        simpa [MediaServer.addPeer, registerPeer, hid] using hp
      exact (h.registered id' p hp).imp (fun he => mem_setKey.2 (.inl ⟨he, hid⟩)) fun he => he

theorem Pool.removePeer (h : s.Pool) (id : String) : (s.removePeer id).Pool := by
  unfold MediaServer.removePeer
  split
  · exact h
  · rename_i X _
    refine ⟨h.keys, fun e he => ?_, h.fresh, h.boundFresh, fun id' p hp => ?_⟩
    · exact ((sameTransport_removePeer s.router X).peerId e.2).trans (h.ids e he)
    · by_cases hid : id' = id
      · subst hid; simp at hp
      · exact h.registered id' p (by simpa [hid] using hp)

theorem Pool.onPacket (h : s.Pool) (data : Bytes) (ep : Endpoint) (env : PacketEnv) :
    (s.onPacket data ep env).1.Pool :=
  onPacket_cases (P := Pool) h ((h.getOrCreatePeer env.pick).frame (samePool_handleDtls s ep env))
    ((h.getOrCreatePeer env.pick).frame (samePool_handleSrtp s data ep env))

theorem Pool.step (h : s.Pool) (op : ServerOp) : (s.step op).Pool := by
  cases op with
  | addPeer info id => exact h.addPeer info id
  | addConsumer sub pub v d => exact h.frame (samePool_addConsumer s sub pub v d)
  | sendOffer g id sdp rms => exact h.frame (samePool_sendOffer s g id sdp rms)
  | removePeer id => exact h.removePeer id
  | packet data ep env => exact h.onPacket data ep env

theorem pool_start : ({} : MediaServer).Pool :=
  ⟨.nil, fun _ he => absurd he List.not_mem_nil, fun _ he => absurd he List.not_mem_nil,
    fun _ _ hp => (by cases hp), fun _ _ hp => by cases hp⟩

theorem Pool.exec (h : s.Pool) (ops : List ServerOp) : (Runs.exec MediaServer.step s ops).Pool :=
  Runs.exec_inv' (I := Pool) (fun _ op h => h.step op) ops h

end Namecon.MediaServer
