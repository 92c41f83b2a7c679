import Namecon.Sfu.Proof.Exact
import Namecon.Sfu.Proof.Subscriptions
import Namecon.Transport.Proof.Identity

/-!
# The media server as a whole

`Sound` joins the invariants of the router and of the pool: a reference that has not been given out
names a blank peer, consumers have publishers that exist, and the registry knows a peer under its
own id. It holds in every state of every run of RPCs and datagrams (`Sound.step`).
-/

namespace Namecon.MediaServer

open Router
open Function (update)

variable {s s' : MediaServer}

/-- The media server's own invariant: `Peer` objects are made in order and start empty, and the
table of the service names each under its own id. -/
structure Sound (s : MediaServer) : Prop where
  pool : s.Pool
  wf : s.router.Wf
  blank : ∀ q, s.nextPeer ≤ q →
    (s.router.peers q).producers = [] ∧ (s.router.peers q).consumers = []
  publishers : ∀ c, s.router.Owned c → ∀ P, (s.router.heap c).publisher = some P → P < s.nextPeer
  named : ∀ id p, s.peers id = some p → (s.router.peers p).peerId = id

/-- Peers registered under different ids are different. -/
theorem Sound.peers_inj (h : s.Sound) {id id' : String} {p : PeerRef} (hp : s.peers id = some p)
    (hp' : s.peers id' = some p) : id = id' :=
  (h.named id p hp).symm.trans (h.named id' p hp')

theorem Sound.sameLinks (h : s.Sound) (hp : s'.Pool) (hl : SameLinks s.router s'.router)
    (hn : s.nextPeer ≤ s'.nextPeer)
    (hnamed : ∀ id p, s'.peers id = some p → (s'.router.peers p).peerId = id) : s'.Sound where
  pool := hp
  wf := h.wf.frame hl
  blank q hq := by
    rw [hl.producers, hl.consumers]
    exact h.blank q (Nat.le_trans hn hq)
  publishers c hc P hP := by
    rw [(hl.heap c).publisher] at hP
    exact Nat.lt_of_lt_of_le (h.publishers c ((hl.owned c).1 hc) P hP) hn
  named := hnamed

/-! ## RPCs -/

/-- The new peer takes the place of a blank one. -/
theorem Sound.sameLinks_addPeer (h : s.Sound) (info : ServerInfo) (id : String) :
    SameLinks s.router (s.addPeer info id).1.router := by
  obtain ⟨hps, hcs⟩ := h.blank s.nextPeer (Nat.le_refl _)
  refine ⟨fun q => ?_, fun q => ?_, rfl, rfl, rfl, fun _ => .refl _⟩
  · by_cases hq : q = s.nextPeer
    · subst hq; rw [addPeer_router, modifyPeer_self, hps]
    · rw [addPeer_router, modifyPeer_ne _ _ _ hq]
  · by_cases hq : q = s.nextPeer
    · subst hq; rw [addPeer_router, modifyPeer_self, hcs]
    · rw [addPeer_router, modifyPeer_ne _ _ _ hq]

theorem addPeer_peers (s : MediaServer) (info : ServerInfo) (id : String) :
    (s.addPeer info id).1.peers = update s.peers id (some s.nextPeer) := rfl

theorem Sound.addPeer (h : s.Sound) (info : ServerInfo) (id : String) :
    (s.addPeer info id).1.Sound := by
  refine h.sameLinks (h.pool.addPeer info id) (h.sameLinks_addPeer info id) (Nat.le_succ _)
    fun id' p hp => ?_
  rw [addPeer_router]
  rw [addPeer_peers] at hp
  by_cases hid : id' = id
  · subst hid
    rw [Function.update_self] at hp
    obtain rfl := Option.some.inj hp
    rw [modifyPeer_self]
  · rw [Function.update_of_ne hid] at hp
    rw [modifyPeer_ne _ _ _ (Nat.ne_of_lt (registered_lt h.pool hp))]
    exact h.named id' p hp

/-- No one subscribes to a peer that does not exist yet, and it to no one. -/
theorem Sound.subscriptions_next (h : s.Sound) {S P : PeerRef} (v : Bool)
    (hn : S = s.nextPeer ∨ P = s.nextPeer) : s.router.subscriptions S P v = 0 := by
  rw [← Nat.le_zero, ← Nat.not_lt, subscriptions_pos]
  intro h
  obtain ⟨c, hc, hP, -⟩ := h
  rcases hn with rfl | rfl
  · rw [(h.blank _ (Nat.le_refl _)).2] at hc
    cases hc
  · exact Nat.lt_irrefl _ (h.publishers c ⟨S, hc⟩ _ hP)

/-- The router of a registered pair after `AddConsumer`. -/
theorem Sound.router_addConsumer (h : s.Sound) {S P : PeerRef} (hS : S < s.nextPeer)
    (hP : P < s.nextPeer) (v : Bool) (d : SsrcDraw) :
    ({ s with router := (s.router.addConsumer S P v d).1 } : MediaServer).Sound where
  pool := h.pool.frame ⟨rfl, rfl, rfl, rfl, (sameTransport_addConsumer _ _ _ _ _).peerId⟩
  wf := h.wf.addConsumer
  blank q hq := by
    have hqS : q ≠ S := (Nat.ne_of_lt (Nat.lt_of_lt_of_le hS hq)).symm
    have hqP : q ≠ P := (Nat.ne_of_lt (Nat.lt_of_lt_of_le hP hq)).symm
    dsimp only
    rw [addConsumer_producers h.wf.ssrcNodup, addConsumer_consumers, if_neg hqP, if_neg hqS]
    exact h.blank q hq
  publishers c hc Q hQ := by
    dsimp only at hQ
    rcases owned_addConsumer.1 hc with hc | rfl
    · rw [addConsumer_heap_old (h.wf.fresh c hc)] at hQ
      exact h.publishers c hc Q hQ
    · rw [addConsumer_heap_new] at hQ
      obtain rfl : P = Q := Option.some.inj hQ
      exact hP
  named id p hp := ((sameTransport_addConsumer _ _ _ _ _).peerId p).trans (h.named id p hp)

/-- `AddConsumer` for two registered peers. -/
theorem addConsumer_found {sub pub : String} {S P : PeerRef} (hS : s.peers sub = some S)
    (hP : s.peers pub = some P) (v : Bool) (d : SsrcDraw) : s.addConsumer sub pub v d =
      ({ s with router := (s.router.addConsumer S P v d).1 },
        .ok (s.router.addConsumer S P v d).2) := by
  simp only [addConsumer, findPeer, hS, hP]

theorem Sound.addConsumer (h : s.Sound) (sub pub : String) (v : Bool) (d : SsrcDraw) :
    (s.addConsumer sub pub v d).1.Sound := by
  unfold MediaServer.addConsumer
  split
  · rename_i S P hS hP
    exact h.router_addConsumer (registered_lt h.pool hS) (registered_lt h.pool hP) v d
  · exact h

theorem sameLinks_bindMids (S : PeerRef) (rms : List RecvMid)
    (acc : Router × (String → Option UInt32)) : SameLinks acc.1 (bindMids S rms acc).1 := by
  induction rms generalizing acc with
  | nil => exact .refl _
  | cons rm rms ih =>
    obtain ⟨r, midToSsrc⟩ := acc
    exact (sameLinks_bind r S _ _ _).trans (ih (_, _))

theorem sameLinks_sendOffer (s : MediaServer) (g : GenerateAnswer) (id sdp : String)
    (rms : List RecvMid) : SameLinks s.router (s.sendOffer g id sdp rms).1.router := by
  simp only [MediaServer.sendOffer, offerMids]
  split
  · exact .refl _
  · exact sameLinks_bindMids _ rms (s.router, _)

theorem Sound.sendOffer (h : s.Sound) (g : GenerateAnswer) (id sdp : String) (rms : List RecvMid) :
    (s.sendOffer g id sdp rms).1.Sound := by
  have hs := samePool_sendOffer s g id sdp rms
  refine h.sameLinks (h.pool.frame hs) (sameLinks_sendOffer s g id sdp rms) (Nat.le_refl _)
    fun id' p hp => ?_
  rw [hs.peers] at hp
  rw [hs.ids]
  exact h.named id' p hp

theorem Sound.removePeer (h : s.Sound) (id : String) : (s.removePeer id).Sound := by
  have hpool := h.pool.removePeer id
  unfold MediaServer.removePeer at hpool ⊢
  split at hpool
  · exact h
  · rename_i X _
    refine ⟨hpool, h.wf.removePeer X, fun q hq => ?_, fun c hc P hP => ?_, fun id' p hp => ?_⟩
    · obtain ⟨hps, hcs⟩ := h.blank q hq
      dsimp only
      rw [removePeer_producers (h.wf.ssrcNodup q), removePeer_consumers, hps, hcs]
      exact ⟨ite_self _, ite_self _⟩
    · dsimp only at hP
      rw [removePeer_heap, heapAfter_publisher] at hP
      exact h.publishers c ((owned_removePeer h.wf).1 hc).1 P hP.2
    · rw [show (s.router.removePeer X).peers p = _ from rfl, (sameTransport_removePeer _ _).peerId]
      refine h.named id' p ?_
      by_cases hid : id' = id
      · subst hid; simp at hp
      · simpa [hid] using hp

theorem removePeer_peers_ne {id id' : String} (hid : id' ≠ id) :
    (s.removePeer id).peers id' = s.peers id' := by
  unfold MediaServer.removePeer
  split
  · rfl
  · exact Function.update_of_ne hid _ _

theorem removePeer_peers_self (s : MediaServer) (id : String) :
    (s.removePeer id).peers id = none := by
  unfold MediaServer.removePeer
  split
  · rename_i hnone
    exact hnone
  · exact Function.update_self _ _ _

/-- The subscriptions among the peers that stay. -/
theorem Sound.subscriptions_removePeer (h : s.Sound) {sub pub id : String} {S P : PeerRef}
    (hS : s.peers sub = some S) (hP : s.peers pub = some P) (hs : sub ≠ id) (hp : pub ≠ id)
    (v : Bool) :
    (s.removePeer id).router.subscriptions S P v = s.router.subscriptions S P v := by
  unfold MediaServer.removePeer
  cases hX : s.findPeer id with
  | none => rfl
  | some X =>
    refine Router.subscriptions_removePeer h.wf (fun he => hs ?_) fun he => hp ?_
    · exact h.peers_inj hS (he ▸ hX)
    · exact h.peers_inj hP (he ▸ hX)

/-! ## Datagrams -/

theorem sameLinks_modifyPeer {r : Router} {p : PeerRef} {f : Peer → Peer}
    (hf : ∀ x, (f x).producers = x.producers ∧ (f x).consumers = x.consumers) :
    SameLinks r (r.modifyPeer p f) := by
  refine ⟨fun q => ?_, fun q => ?_, rfl, rfl, rfl, fun _ => .refl _⟩
  · by_cases hq : q = p
    · subst hq; rw [modifyPeer_self, (hf _).1]
    · rw [modifyPeer_ne _ _ _ hq]
  · by_cases hq : q = p
    · subst hq; rw [modifyPeer_self, (hf _).2]
    · rw [modifyPeer_ne _ _ _ hq]

theorem sameLinks_getOrCreatePeer (s : MediaServer) (ep : Endpoint) (pick : Nat) :
    SameLinks s.router (s.getOrCreatePeer ep pick).1.router := by
  unfold getOrCreatePeer
  split
  · exact .refl _
  · split <;>
    · dsimp only [bindEndpoint]
      apply sameLinks_modifyPeer
      exact fun _ => ⟨rfl, rfl⟩

/-- What `getOrCreatePeer` gives out is a peer, and no reference is taken back. -/
theorem getOrCreatePeer_lt (h : s.Pool) (ep : Endpoint) (pick : Nat) :
    (s.getOrCreatePeer ep pick).2 < (s.getOrCreatePeer ep pick).1.nextPeer ∧
      s.nextPeer ≤ (s.getOrCreatePeer ep pick).1.nextPeer := by
  cases hm : s.peerMap ep with
  | some p =>
    rw [getOrCreatePeer_known hm]
    exact ⟨h.boundFresh ep p hm, Nat.le_refl _⟩
  | none =>
    cases hb : s.pendingBegin pick with
    | none =>
      rw [getOrCreatePeer_made hm hb]
      exact ⟨Nat.lt_succ_self _, Nat.le_succ _⟩
    | some e =>
      rw [getOrCreatePeer_drawn hm hb]
      exact ⟨h.fresh e (pendingBegin_mem hb), Nat.le_refl _⟩

theorem getOrCreatePeer_peers (s : MediaServer) (ep : Endpoint) (pick : Nat) :
    (s.getOrCreatePeer ep pick).1.peers = s.peers := by
  unfold getOrCreatePeer
  split
  · rfl
  · split <;> rfl

theorem getOrCreatePeer_peerId (s : MediaServer) (ep : Endpoint) (pick : Nat) (q : PeerRef) :
    ((s.getOrCreatePeer ep pick).1.router.peers q).peerId = (s.router.peers q).peerId := by
  unfold getOrCreatePeer
  split
  · rfl
  · split <;> exact bindEndpoint_peerId _ _

theorem Sound.getOrCreatePeer (h : s.Sound) (ep : Endpoint) (pick : Nat) :
    (s.getOrCreatePeer ep pick).1.Sound := by
  refine h.sameLinks (h.pool.getOrCreatePeer pick) (sameLinks_getOrCreatePeer s ep pick)
    (getOrCreatePeer_lt h.pool ep pick).2 fun id p hp => ?_
  rw [getOrCreatePeer_peers] at hp
  rw [getOrCreatePeer_peerId]
  exact h.named id p hp

theorem sameLinks_handleDtls (s : MediaServer) (ep : Endpoint) (env : PacketEnv) :
    SameLinks (s.getOrCreatePeer ep env.pick).1.router (s.handleDtls ep env).1.router := by
  refine handleDtls_cases (P := fun s' => SameLinks _ s'.router) fun f hf => ?_
  refine sameLinks_modifyPeer fun x => ?_
  obtain ⟨_, _, he⟩ := hf x
  rw [he]
  exact ⟨rfl, rfl⟩

theorem Sound.handleDtls (h : s.Sound) (ep : Endpoint) (env : PacketEnv) :
    (s.handleDtls ep env).1.Sound := by
  have hg := h.getOrCreatePeer ep env.pick
  have hs := samePool_handleDtls s ep env
  refine hg.sameLinks (hg.pool.frame hs) (sameLinks_handleDtls s ep env)
    (Nat.le_of_eq hs.nextPeer.symm) fun id p hp => ?_
  rw [hs.peers] at hp
  rw [hs.ids]
  exact hg.named id p hp

/-- A packet of a peer that exists. -/
theorem Sound.onRtpPacket (h : s.Sound) {P : PeerRef} (hP : P < s.nextPeer) (o : SrtpOracle)
    (buf : Bytes) :
    ({ s with router := (s.router.onRtpPacket s.videoPTs o buf P).1 } : MediaServer).Sound := by
  have hids := (sameTransport_onRtpPacket s.router s.videoPTs o buf P).peerId
  have hsubs := sameSubscribers_onRtpPacket (P := P) (o := o) h.wf s.videoPTs buf
  refine ⟨h.pool.frame ⟨rfl, rfl, rfl, rfl, hids⟩, h.wf.onRtpPacket, fun q hq => ?_,
    fun c hc Q hQ => ?_, fun id p hp => (hids p).trans (h.named id p hp)⟩
  · dsimp only
    rw [onRtpPacket_producers h.wf _ _ (Nat.ne_of_lt (Nat.lt_of_lt_of_le hP hq)).symm,
      hsubs.consumers]
    exact h.blank q hq
  · exact h.publishers c (hsubs.owned.1 hc) Q ((hsubs.publisher c).symm.trans hQ)

theorem Sound.handleSrtp (h : s.Sound) (data : Bytes) (ep : Endpoint) (env : PacketEnv) :
    (s.handleSrtp data ep env).1.Sound := by
  have hg := h.getOrCreatePeer ep env.pick
  refine handleSrtp_cases (P := Sound) hg fun plain => ?_
  exact hg.onRtpPacket (getOrCreatePeer_lt h.pool ep env.pick).1 _ _

theorem Sound.onPacket (h : s.Sound) (data : Bytes) (ep : Endpoint) (env : PacketEnv) :
    (s.onPacket data ep env).1.Sound :=
  onPacket_cases (P := Sound) h (h.handleDtls ep env) (h.handleSrtp data ep env)

theorem Sound.sameSubscribers_onPacket (h : s.Sound) (data : Bytes) (ep : Endpoint)
    (env : PacketEnv) : SameSubscribers s.router (s.onPacket data ep env).1.router := by
  have hgot := (sameLinks_getOrCreatePeer s ep env.pick).sameSubscribers
  refine onPacket_cases (P := fun s' => SameSubscribers s.router s'.router)
    (SameLinks.refl s.router).sameSubscribers
    (hgot.trans (sameLinks_handleDtls s ep env).sameSubscribers) ?_
  refine handleSrtp_cases (P := fun s' => SameSubscribers s.router s'.router) hgot fun plain => ?_
  exact hgot.trans (sameSubscribers_onRtpPacket (h.getOrCreatePeer ep env.pick).wf _ _)

theorem onPacket_peers (s : MediaServer) (data : Bytes) (ep : Endpoint) (env : PacketEnv) :
    (s.onPacket data ep env).1.peers = s.peers :=
  onPacket_cases (P := fun s' => s'.peers = s.peers) rfl
    ((samePool_handleDtls s ep env).peers.trans (getOrCreatePeer_peers s ep env.pick))
    ((samePool_handleSrtp s data ep env).peers.trans (getOrCreatePeer_peers s ep env.pick))

theorem onPacket_peerId (s : MediaServer) (data : Bytes) (ep : Endpoint) (env : PacketEnv)
    (q : PeerRef) :
    ((s.onPacket data ep env).1.router.peers q).peerId = (s.router.peers q).peerId :=
  onPacket_cases (P := fun s' => (s'.router.peers q).peerId = (s.router.peers q).peerId) rfl
    (((samePool_handleDtls s ep env).ids q).trans (getOrCreatePeer_peerId s ep env.pick q))
    (((samePool_handleSrtp s data ep env).ids q).trans (getOrCreatePeer_peerId s ep env.pick q))

/-! ## Runs -/

theorem Sound.step (h : s.Sound) (op : ServerOp) : (s.step op).Sound := by
  cases op with
  | addPeer info id => exact h.addPeer info id
  | addConsumer sub pub v d => exact h.addConsumer sub pub v d
  | sendOffer g id sdp rms => exact h.sendOffer g id sdp rms
  | removePeer id => exact h.removePeer id
  | packet data ep env => exact h.onPacket data ep env

/-- **The media server is sound in every state of every run.** -/
theorem Sound.exec (h : s.Sound) (ops : List ServerOp) : (Runs.exec MediaServer.step s ops).Sound :=
  Runs.exec_inv' (I := Sound) (fun _ op h => h.step op) ops h

theorem sound_start : ({} : MediaServer).Sound where
  pool := pool_start
  wf := wf_start _
  blank _ _ := ⟨rfl, rfl⟩
  publishers _ hc := by obtain ⟨_, hc⟩ := hc; cases hc
  named _ _ hp := by cases hp

end Namecon.MediaServer
