import Namecon.Transport.Calls
import Namecon.Transport.Proof.Endpoints
import Namecon.Grpc.Proof.Sound

/-!
# Only keyed traffic reaches the router

A peer without an endpoint has no context, and one with an SRTP context has a completed handshake
(`Keyed`); a datagram writes the contexts of the peer of its endpoint and of no other
(`handleDtls_peers`). `only_keyed`: what a step may call and change, for every run, and how often
the calls that make contexts occur in it.
-/

namespace Namecon.MediaServer

open Runs (exec Meets)

variable {s s' : MediaServer} {ep : Endpoint} {env : PacketEnv} {data : Bytes} {p : PeerRef}

/-! ## The tables under RPCs and datagrams -/

theorem Tables.getOrCreatePeer (h : s.Tables) (pick : Nat) :
    (s.getOrCreatePeer ep pick).1.Tables := by
  cases hm : s.peerMap ep with
  | some p => rw [getOrCreatePeer_known hm]; exact h
  | none =>
    rw [getOrCreatePeer_eq s ep pick hm]
    exact (h.takePending pick).bindEndpoint (h.loose_takePending pick)

/-- `s'` has the tables of `s`, and the peers in them their ids and endpoints. -/
structure SameTables (s s' : MediaServer) : Prop where
  pendingPeers : s'.pendingPeers = s.pendingPeers
  nextPeer : s'.nextPeer = s.nextPeer
  peerMap : s'.peerMap = s.peerMap
  ids : ∀ q, (s'.router.peers q).peerId = (s.router.peers q).peerId
  remoteEp : ∀ q, (s'.router.peers q).remoteEp = (s.router.peers q).remoteEp

theorem Tables.frame (h : s.Tables) (hs : SameTables s s') : s'.Tables where
  keys := by rw [hs.pendingPeers]; exact h.keys
  ids e he := by rw [hs.ids]; rw [hs.pendingPeers] at he; exact h.ids e he
  fresh e he := by rw [hs.nextPeer]; rw [hs.pendingPeers] at he; exact h.fresh e he
  boundFresh ep p hp := by rw [hs.nextPeer]; rw [hs.peerMap] at hp; exact h.boundFresh ep p hp
  unbound e he ep := by
    rw [hs.pendingPeers] at he
    rw [hs.peerMap]
    exact h.unbound e he ep
  inj := by rw [hs.peerMap]; exact h.inj
  remoteEp ep p hp := by rw [hs.remoteEp]; rw [hs.peerMap] at hp; exact h.remoteEp ep p hp

/-- The contexts of every peer are the same. -/
def SameContexts (s s' : MediaServer) : Prop :=
  ∀ q, (s'.router.peers q).dtls = (s.router.peers q).dtls ∧
    (s'.router.peers q).srtp = (s.router.peers q).srtp

/-- Nothing differs but what the router keeps: no table, no context. -/
structure RouterOnly (s s' : MediaServer) : Prop where
  tables : SameTables s s'
  contexts : SameContexts s s'

theorem RouterOnly.of_router {r : Router} (h : Router.SameTransport s.router r)
    (peers : String → Option PeerRef) (videoPTs : Finset UInt8) :
    RouterOnly s { s with router := r, peers, videoPTs } := by
  have hall : ∀ q, (r.peers q).remoteEp = (s.router.peers q).remoteEp ∧
      (r.peers q).dtls = (s.router.peers q).dtls ∧ (r.peers q).srtp = (s.router.peers q).srtp := by
    intro q
    obtain ⟨_, _, hq⟩ := h q
    rw [hq]
    exact ⟨rfl, rfl, rfl⟩
  exact ⟨⟨rfl, rfl, rfl, h.peerId, fun q => (hall q).1⟩, fun q => (hall q).2⟩

theorem routerOnly_step (op : ServerOp) (hadd : ∀ info id, op ≠ .addPeer info id)
    (hpacket : ∀ data ep env, op ≠ .packet data ep env) : RouterOnly s (s.step op) := by
  cases op with
  | addPeer info id => exact absurd rfl (hadd info id)
  | addConsumer sub pub v d =>
    simp only [step, addConsumer]
    split
    · exact .of_router (Router.sameTransport_addConsumer _ _ _ _ _) _ _
    · exact .of_router (.refl _) _ _
  | sendOffer g id sdp rms =>
    simp only [step, sendOffer, offerMids]
    split
    · exact .of_router (.refl _) _ _
    · exact .of_router (sameTransport_bindMids _ _ _) _ _
  | removePeer id =>
    simp only [step, removePeer]
    split
    · exact .of_router (.refl _) _ _
    · exact .of_router (Router.sameTransport_removePeer _ _) _ _
  | packet data ep env => exact absurd rfl (hpacket data ep env)

/-! ## Contexts -/

/-- A peer without an endpoint has no contexts, and SRTP comes after the handshake. -/
structure Keyed (s : MediaServer) : Prop where
  tables : s.Tables
  bare : ∀ p, (∀ ep, s.peerMap ep ≠ some p) →
    (s.router.peers p).dtls = none ∧ (s.router.peers p).srtp = none
  done : ∀ p ctx, (s.router.peers p).srtp = some ctx →
    ∃ dtls, (s.router.peers p).dtls = some dtls ∧ dtls.handshakeDone = true

theorem keyed_start : ({} : MediaServer).Keyed where
  tables := tables_start
  bare _ _ := ⟨rfl, rfl⟩
  done _ _ h := by cases h

theorem getOrCreatePeer_contexts (s : MediaServer) (ep : Endpoint) (pick : Nat) :
    SameContexts s (s.getOrCreatePeer ep pick).1 := by
  have hbind : ∀ (t : MediaServer) (q : PeerRef), SameContexts t (t.bindEndpoint ep q) := by
    intro t q q'
    by_cases hq : q' = q
    · subst hq
      simp [bindEndpoint]
    · rw [bindEndpoint_peers_ne hq]
      exact ⟨rfl, rfl⟩
  unfold getOrCreatePeer
  split
  · exact fun _ => ⟨rfl, rfl⟩
  · split
    · exact hbind { s with pendingPeers := _ } _
    · exact hbind { s with nextPeer := _ } _

/-- The endpoint of the datagram is bound to the peer it is given. -/
theorem getOrCreatePeer_bound (s : MediaServer) (ep : Endpoint) (pick : Nat) :
    (s.getOrCreatePeer ep pick).1.peerMap ep = some (s.getOrCreatePeer ep pick).2 := by
  cases hm : s.peerMap ep with
  | some p => rw [getOrCreatePeer_known hm]; exact hm
  | none => rw [getOrCreatePeer_eq s ep pick hm]; exact bindEndpoint_peerMap_self _ _ _

theorem getOrCreatePeer_keeps {ep' : Endpoint} (h : s.peerMap ep' = some p) (pick : Nat) :
    (s.getOrCreatePeer ep pick).1.peerMap ep' = some p := by
  cases hm : s.peerMap ep with
  | some q => rw [getOrCreatePeer_known hm]; exact h
  | none =>
    rw [getOrCreatePeer_eq s ep pick hm]
    refine bindEndpoint_peerMap _ ?_ ?_
    · rcases s.takePending_cases pick with ⟨e, -, ht⟩ | ⟨-, ht⟩ <;> rw [ht] <;> exact hm
    · rcases s.takePending_cases pick with ⟨e, -, ht⟩ | ⟨-, ht⟩ <;> rw [ht] <;> exact h

/-- A peer with a context that a datagram is given was bound to its endpoint before. -/
theorem Keyed.known (h : s.Keyed) {pick : Nat}
    (hx : (s.router.peers (s.getOrCreatePeer ep pick).2).srtp ≠ none) :
    s.peerMap ep = some (s.getOrCreatePeer ep pick).2 := by
  cases hm : s.peerMap ep with
  | some q => rw [getOrCreatePeer_known hm]
  | none =>
    refine absurd (h.bare _ ?_).2 hx
    rw [getOrCreatePeer_eq s ep pick hm]
    rcases s.takePending_cases pick with ⟨e, he, ht⟩ | ⟨-, ht⟩
    · rw [ht]
      exact h.tables.unbound e he
    · rw [ht]
      exact fun ep' hp => Nat.lt_irrefl _ (h.tables.boundFresh ep' _ hp)

theorem Keyed.getOrCreatePeer (h : s.Keyed) (pick : Nat) :
    (s.getOrCreatePeer ep pick).1.Keyed where
  tables := h.tables.getOrCreatePeer pick
  bare p hp := by
    rw [(getOrCreatePeer_contexts s ep pick p).1, (getOrCreatePeer_contexts s ep pick p).2]
    exact h.bare p fun ep' hep' => hp ep' (getOrCreatePeer_keeps hep' pick)
  done p ctx hp := by
    rw [(getOrCreatePeer_contexts s ep pick p).2] at hp
    rw [(getOrCreatePeer_contexts s ep pick p).1]
    exact h.done p ctx hp

theorem Keyed.frame (h : s.Keyed) (hs : RouterOnly s s') : s'.Keyed where
  tables := h.tables.frame hs.tables
  bare p hp := by
    rw [(hs.contexts p).1, (hs.contexts p).2]
    rw [hs.tables.peerMap] at hp
    exact h.bare p hp
  done p ctx hp := by
    rw [(hs.contexts p).2] at hp
    rw [(hs.contexts p).1]
    exact h.done p ctx hp

/-- The new peer takes the place of one without contexts. -/
theorem Keyed.sameContexts_addPeer (h : s.Keyed) (info : ServerInfo) (id : String) :
    SameContexts s (s.addPeer info id).1 := by
  intro q
  rw [addPeer_router]
  by_cases hq : q = s.nextPeer
  · subst hq
    have hbare := h.bare s.nextPeer fun ep hp => Nat.lt_irrefl _ (h.tables.boundFresh ep _ hp)
    rw [Router.modifyPeer_self, hbare.1, hbare.2]
    exact ⟨rfl, rfl⟩
  · rw [Router.modifyPeer_ne _ _ _ hq]
    exact ⟨rfl, rfl⟩

theorem Keyed.addPeer (h : s.Keyed) (info : ServerInfo) (id : String) :
    (s.addPeer info id).1.Keyed := by
  have ht := h.tables.registerPeer id
  have hctx := h.sameContexts_addPeer info id
  refine ⟨⟨ht.keys, ht.ids, ht.fresh, ht.boundFresh, ht.unbound, ht.inj, ht.remoteEp⟩,
    fun p hp => ?_, fun p ctx hp => ?_⟩
  · rw [(hctx p).1, (hctx p).2]
    exact h.bare p hp
  · rw [(hctx p).2] at hp
    rw [(hctx p).1]
    exact h.done p ctx hp

/-! ## `handleDtls` -/

/-- The context the datagram is fed to. -/
def dtlsOf (s : MediaServer) (ep : Endpoint) (env : PacketEnv) : DtlsContext :=
  (s.router.peers (s.getOrCreatePeer ep env.pick).2).dtls.getD { sendTo := ep }

theorem dtlsOf_eq (s : MediaServer) (ep : Endpoint) (env : PacketEnv) :
    ((s.getOrCreatePeer ep env.pick).1.router.peers (s.getOrCreatePeer ep env.pick).2).dtls.getD
      { sendTo := ep } = s.dtlsOf ep env := by
  rw [dtlsOf, (getOrCreatePeer_contexts s ep env.pick _).1]

/-- What a DTLS datagram does to the peers: its own gets the context fed, and the keys of the
handshake if it completes one. -/
theorem handleDtls_peers (q : PeerRef) : (s.handleDtls ep env).1.router.peers q =
    if q = (s.getOrCreatePeer ep env.pick).2 then
      { (s.getOrCreatePeer ep env.pick).1.router.peers q with
        dtls := some (handlePacket env (s.dtlsOf ep env)).1
        srtp := (newKeys env (s.dtlsOf ep env)).or
          ((s.getOrCreatePeer ep env.pick).1.router.peers q).srtp }
    else (s.getOrCreatePeer ep env.pick).1.router.peers q := by
  unfold handleDtls newKeys
  dsimp only
  rw [dtlsOf_eq]
  by_cases hq : q = (s.getOrCreatePeer ep env.pick).2
  · subst hq
    rw [if_pos rfl]
    split
    · cases initSrtp env <;> simp
    · simp
  · rw [if_neg hq]
    split
    · cases initSrtp env <;> simp [Router.modifyPeer, hq]
    · simp [Router.modifyPeer, hq]

theorem newKeys_some {dtls : DtlsContext} {ctx : SrtpContext} (h : newKeys env dtls = some ctx) :
    dtls.handshakeDone = false ∧ (handlePacket env dtls).1.handshakeDone = true ∧
      60 ≤ env.exportSrtpKeys.length ∧ ctx = ⟨env.exportSrtpKeys⟩ := by
  unfold newKeys at h
  split at h
  · rename_i hflip
    unfold initSrtp at h
    split at h
    · rename_i hkeys
      rw [Bool.and_eq_true, Bool.not_eq_true'] at hflip
      exact ⟨hflip.1, hflip.2, hkeys.1, (Option.some.inj h).symm⟩
    · cases h
  · cases h

/-- A context is fed, never replaced: it sends where it sent, and a handshake done stays done. -/
theorem handlePacket_keeps (env : PacketEnv) (dtls : DtlsContext) :
    (handlePacket env dtls).1.sendTo = dtls.sendTo ∧
      (dtls.handshakeDone = true → (handlePacket env dtls).1 = dtls) := by
  unfold handlePacket
  split
  · exact ⟨rfl, fun _ => rfl⟩
  · rename_i hdone
    exact ⟨rfl, fun h => absurd h hdone⟩

theorem Keyed.handleDtls (h : s.Keyed) (ep : Endpoint) (env : PacketEnv) :
    (s.handleDtls ep env).1.Keyed := by
  have hg : (s.getOrCreatePeer ep env.pick).1.Keyed := h.getOrCreatePeer env.pick
  have hs := samePool_handleDtls s ep env
  have hremote : ∀ q, ((s.handleDtls ep env).1.router.peers q).remoteEp =
      ((s.getOrCreatePeer ep env.pick).1.router.peers q).remoteEp := by
    intro q
    rw [handleDtls_peers]
    split <;> rfl
  refine ⟨hg.tables.frame ⟨hs.pendingPeers, hs.nextPeer, hs.peerMap, hs.ids, hremote⟩,
    fun p hp => ?_, fun p ctx hp => ?_⟩
  · have hne : p ≠ (s.getOrCreatePeer ep env.pick).2 := by
      intro he
      exact hp ep (by rw [hs.peerMap, getOrCreatePeer_bound, he])
    rw [handleDtls_peers, if_neg hne]
    rw [hs.peerMap] at hp
    exact hg.bare p hp
  · rw [handleDtls_peers] at hp ⊢
    by_cases hq : p = (s.getOrCreatePeer ep env.pick).2
    · rw [if_pos hq] at hp ⊢
      refine ⟨_, rfl, ?_⟩
      cases hk : newKeys env (s.dtlsOf ep env) with
      | some ctx' => exact (newKeys_some hk).2.1
      | none =>
        -- the context is an old one, so the handshake was done before
        rw [hk] at hp
        obtain ⟨dtls, hd, hdone⟩ := hg.done p ctx hp
        have hof : s.dtlsOf ep env = dtls := by rw [← dtlsOf_eq, ← hq, hd]; rfl
        rw [hof, (handlePacket_keeps env dtls).2 hdone]
        exact hdone
    · rw [if_neg hq] at hp ⊢
      exact hg.done p ctx hp

/-- After the endpoint is bound, an SRTP datagram changes nothing but the router's own state. -/
theorem routerOnly_handleSrtp (s : MediaServer) (data : Bytes) (ep : Endpoint) (env : PacketEnv) :
    RouterOnly (s.getOrCreatePeer ep env.pick).1 (s.handleSrtp data ep env).1 := by
  refine handleSrtp_cases (P := RouterOnly _) (.of_router (.refl _) _ _) fun plain => ?_
  exact .of_router (Router.sameTransport_onRtpPacket _ _ _ _ _) _ _

theorem Keyed.onPacket (h : s.Keyed) (data : Bytes) (ep : Endpoint) (env : PacketEnv) :
    (s.onPacket data ep env).1.Keyed :=
  onPacket_cases (P := Keyed) h (h.handleDtls ep env)
    ((h.getOrCreatePeer env.pick).frame (routerOnly_handleSrtp s data ep env))

theorem Keyed.step (h : s.Keyed) (op : ServerOp) : (s.step op).Keyed := by
  cases op with
  | addPeer info id => exact h.addPeer info id
  | packet data ep env => exact h.onPacket data ep env
  | addConsumer sub pub v d => exact h.frame (routerOnly_step _ (by simp) (by simp))
  | sendOffer g id sdp rms => exact h.frame (routerOnly_step _ (by simp) (by simp))
  | removePeer id => exact h.frame (routerOnly_step _ (by simp) (by simp))

/-! ## What a step calls -/

/-- The peer's handshake is over. -/
def HandshakeDone (s : MediaServer) (p : PeerRef) : Prop :=
  ∃ dtls, (s.router.peers p).dtls = some dtls ∧ dtls.handshakeDone = true

/-- The datagram of `op` is a DTLS datagram. -/
def IsDtls (op : ServerOp) (ep : Endpoint) (env : PacketEnv) : Prop :=
  ∃ data, op = .packet data ep env ∧ protocol data = some .dtls

theorem isDtls_or (op : ServerOp) :
    (∃ ep env, IsDtls op ep env) ∨ ∀ data ep env, op = .packet data ep env →
      protocol data ≠ some .dtls := by
  by_cases h : ∃ ep env, IsDtls op ep env
  · exact .inl h
  · exact .inr fun data ep env hop hproto => h ⟨ep, env, data, hop, hproto⟩

theorem step_of_isDtls {op : ServerOp} (h : IsDtls op ep env) :
    s.step op = (s.handleDtls ep env).1 := by
  obtain ⟨data, rfl, hproto⟩ := h
  simp only [step, onPacket, hproto]

theorem callsOf_of_isDtls {op : ServerOp} (h : IsDtls op ep env) : s.callsOf op =
    (if (s.router.peers (s.getOrCreatePeer ep env.pick).2).dtls.isNone then
      [.newDtls (s.getOrCreatePeer ep env.pick).2 ep] else []) ++
      .handlePacket (s.getOrCreatePeer ep env.pick).2 ::
        keyCalls (s.getOrCreatePeer ep env.pick).2 (newKeys env (s.dtlsOf ep env)) := by
  obtain ⟨data, rfl, hproto⟩ := h
  simp only [callsOf, calls, hproto, dtlsCalls]
  rw [dtlsOf_eq, (getOrCreatePeer_contexts s ep env.pick _).1]

/-- The calls for a datagram that is not DTLS hand a packet to the router or do nothing. -/
theorem callsOf_of_not_isDtls {op : ServerOp} {k : TransportCall}
    (h : ∀ data ep env, op = .packet data ep env → protocol data ≠ some .dtls)
    (hk : k ∈ s.callsOf op) : ∃ data ep env ctx, op = .packet data ep env ∧
      ((s.getOrCreatePeer ep env.pick).1.router.peers (s.getOrCreatePeer ep env.pick).2).srtp =
        some ctx ∧ ∃ plain,
      (k = .onRtpPacket plain (s.getOrCreatePeer ep env.pick).2 ∧
        env.unprotect ctx data = some plain) ∨
      (k = .onRtcpPacket plain (s.getOrCreatePeer ep env.pick).2 ∧
        env.unprotectRtcp ctx data = some plain) := by
  cases op with
  | addPeer info id => exact absurd hk List.not_mem_nil
  | addConsumer sub pub v d => exact absurd hk List.not_mem_nil
  | sendOffer g id sdp rms => exact absurd hk List.not_mem_nil
  | removePeer id => exact absurd hk List.not_mem_nil
  | packet data ep env =>
    simp only [callsOf, calls] at hk
    split at hk
    · rename_i hproto
      exact absurd hproto (h data ep env rfl)
    · unfold srtpCalls at hk
      split at hk
      · exact absurd hk List.not_mem_nil
      · rename_i ctx hctx
        refine ⟨data, ep, env, ctx, rfl, hctx, ?_⟩
        split at hk
        · rename_i plain hplain
          exact ⟨plain, .inl ⟨List.mem_singleton.1 hk, hplain⟩⟩
        · split at hk
          · rename_i plain hplain
            exact ⟨plain, .inr ⟨List.mem_singleton.1 hk, hplain⟩⟩
          · exact absurd hk List.not_mem_nil
    · exact absurd hk List.not_mem_nil
    · exact absurd hk List.not_mem_nil

/-- Contexts change with DTLS datagrams only. -/
theorem Keyed.sameContexts (h : s.Keyed) {op : ServerOp}
    (hop : ∀ data ep env, op = .packet data ep env → protocol data ≠ some .dtls) :
    SameContexts s (s.step op) := by
  cases op with
  | addPeer info id => exact h.sameContexts_addPeer info id
  | addConsumer sub pub v d => exact (routerOnly_step _ (by simp) (by simp)).contexts
  | sendOffer g id sdp rms => exact (routerOnly_step _ (by simp) (by simp)).contexts
  | removePeer id => exact (routerOnly_step _ (by simp) (by simp)).contexts
  | packet data ep env =>
    simp only [MediaServer.step, MediaServer.onPacket]
    split
    · exact fun _ => ⟨rfl, rfl⟩
    · exact fun _ => ⟨rfl, rfl⟩
    · rename_i hproto
      exact absurd hproto (hop data ep env rfl)
    · intro q
      have hg := getOrCreatePeer_contexts s ep env.pick q
      have hs := (routerOnly_handleSrtp s data ep env).contexts q
      exact ⟨hs.1.trans hg.1, hs.2.trans hg.2⟩

theorem handleDtls_contexts (s : MediaServer) (ep : Endpoint) (env : PacketEnv) (q : PeerRef) :
    ((s.handleDtls ep env).1.router.peers q).dtls =
      (if q = (s.getOrCreatePeer ep env.pick).2 then some (handlePacket env (s.dtlsOf ep env)).1
        else (s.router.peers q).dtls) ∧
    ((s.handleDtls ep env).1.router.peers q).srtp =
      if q = (s.getOrCreatePeer ep env.pick).2 then
        (newKeys env (s.dtlsOf ep env)).or (s.router.peers q).srtp
      else (s.router.peers q).srtp := by
  rw [handleDtls_peers]
  split
  · exact ⟨rfl, by rw [(getOrCreatePeer_contexts s ep env.pick q).2]⟩
  · exact getOrCreatePeer_contexts s ep env.pick q

theorem dtlsOf_of_some {dtls : DtlsContext}
    (hd : (s.router.peers (s.getOrCreatePeer ep env.pick).2).dtls = some dtls) :
    s.dtlsOf ep env = dtls := by
  rw [dtlsOf, hd]
  rfl

/-- Keys are made when the handshake of the peer turns from not done to done. -/
theorem Keyed.flip (h : s.Keyed) {ctx : SrtpContext}
    (hk : newKeys env (s.dtlsOf ep env) = some ctx) :
    (s.router.peers (s.getOrCreatePeer ep env.pick).2).srtp = none ∧
      ¬ s.HandshakeDone (s.getOrCreatePeer ep env.pick).2 ∧
      (s.handleDtls ep env).1.HandshakeDone (s.getOrCreatePeer ep env.pick).2 := by
  obtain ⟨hnot, hdone, -, -⟩ := newKeys_some hk
  have hbefore : ¬ s.HandshakeDone (s.getOrCreatePeer ep env.pick).2 := by
    intro hd
    obtain ⟨dtls, hd, htrue⟩ := hd
    rw [dtlsOf_of_some hd, htrue] at hnot
    cases hnot
  refine ⟨?_, hbefore, ⟨_, ?_, hdone⟩⟩
  · cases hs : (s.router.peers (s.getOrCreatePeer ep env.pick).2).srtp with
    | none => rfl
    | some old => exact absurd (h.done _ old hs) hbefore
  · rw [(handleDtls_contexts s ep env _).1, if_pos rfl]

theorem mem_keyCalls {q : PeerRef} {k : TransportCall} {keys : Option SrtpContext} :
    k ∈ keyCalls q keys ↔
      ∃ ctx, keys = some ctx ∧ (k = .setSrtp q ctx ∨ k = .sendPLItoAllPeers q) := by
  cases keys with
  | none => simp [keyCalls]
  | some ctx => simp [keyCalls]

/-- The packet came from the endpoint of the peer `p`, its only one, which has the context. -/
def Arrives (s : MediaServer) (ep : Endpoint) (p : PeerRef) (ctx : SrtpContext) : Prop :=
  s.peerMap ep = some p ∧ (∀ ep', s.peerMap ep' = some p → ep' = ep) ∧
    (s.router.peers p).srtp = some ctx

/-- What a step may do to contexts, and what it may hand to the router. -/
structure OnlyKeyed (s : MediaServer) (op : ServerOp) : Prop where
  dtlsKept : ∀ p dtls, (s.router.peers p).dtls = some dtls →
    ∃ dtls', ((s.step op).router.peers p).dtls = some dtls' ∧ dtls'.sendTo = dtls.sendTo ∧
      (dtls.handshakeDone = true → dtls' = dtls)
  srtpKept : ∀ p ctx, (s.router.peers p).srtp = some ctx →
    ((s.step op).router.peers p).srtp = some ctx
  srtpSet : ∀ p ctx, (s.router.peers p).srtp = none →
    ((s.step op).router.peers p).srtp = some ctx → .setSrtp p ctx ∈ s.callsOf op
  keys : ∀ p ctx, .setSrtp p ctx ∈ s.callsOf op →
    (s.router.peers p).srtp = none ∧ ¬ s.HandshakeDone p ∧ (s.step op).HandshakeDone p ∧
      ∃ data ep env, op = .packet data ep env ∧ (s.step op).peerMap ep = some p ∧
        60 ≤ env.exportSrtpKeys.length ∧ ctx = ⟨env.exportSrtpKeys⟩
  rtp : ∀ p plain, .onRtpPacket plain p ∈ s.callsOf op →
    ∃ data ep env ctx, op = .packet data ep env ∧ s.Arrives ep p ctx ∧
      env.unprotect ctx data = some plain
  rtcp : ∀ p plain, .onRtcpPacket plain p ∈ s.callsOf op →
    ∃ data ep env ctx, op = .packet data ep env ∧ s.Arrives ep p ctx ∧
      env.unprotectRtcp ctx data = some plain

theorem Keyed.onlyKeyed_dtls (h : s.Keyed) {op : ServerOp} (hop : IsDtls op ep env) :
    OnlyKeyed s op := by
  have hcalls := callsOf_of_isDtls (s := s) hop
  have hctx := handleDtls_contexts s ep env
  rw [← step_of_isDtls hop] at hctx
  have hmem : ∀ {k}, k ∈ s.callsOf op → (∀ q sendTo, k ≠ .newDtls q sendTo) →
      (∀ q, k ≠ .handlePacket q) → ∃ ctx, newKeys env (s.dtlsOf ep env) = some ctx ∧
        (k = .setSrtp (s.getOrCreatePeer ep env.pick).2 ctx ∨
          k = .sendPLItoAllPeers (s.getOrCreatePeer ep env.pick).2) := by
    intro k hk hnew hfeed
    rw [hcalls, List.mem_append, List.mem_cons] at hk
    rcases hk with hk | hk | hk
    · split at hk
      · exact absurd (List.mem_singleton.1 hk) (hnew _ _)
      · exact absurd hk List.not_mem_nil
    · exact absurd hk (hfeed _)
    · exact mem_keyCalls.1 hk
  refine ⟨fun p dtls hd => ?_, fun p ctx hs => ?_, fun p ctx hnone hs => ?_, fun p ctx hk => ?_,
    fun p plain hk => ?_, fun p plain hk => ?_⟩
  · rw [(hctx p).1]
    by_cases hp : p = (s.getOrCreatePeer ep env.pick).2
    · subst hp
      rw [if_pos rfl, dtlsOf_of_some hd]
      exact ⟨_, rfl, handlePacket_keeps env dtls⟩
    · rw [if_neg hp]
      exact ⟨dtls, hd, rfl, fun _ => rfl⟩
  · rw [(hctx p).2]
    by_cases hp : p = (s.getOrCreatePeer ep env.pick).2
    · -- a peer with keys has completed its handshake, so it gets no others
      subst hp
      rw [if_pos rfl]
      cases hk : newKeys env (s.dtlsOf ep env) with
      | none => exact hs
      | some ctx' =>
        rw [(h.flip hk).1] at hs
        cases hs
    · rw [if_neg hp]
      exact hs
  · rw [(hctx p).2] at hs
    by_cases hp : p = (s.getOrCreatePeer ep env.pick).2
    · subst hp
      rw [if_pos rfl, hnone, Option.or_none] at hs
      rw [hcalls]
      refine List.mem_append_right _ (List.mem_cons_of_mem _ ?_)
      exact mem_keyCalls.2 ⟨ctx, hs, .inl rfl⟩
    · rw [if_neg hp, hnone] at hs
      cases hs
  · obtain ⟨ctx', hkeys, heq | heq⟩ := hmem hk (by simp) (by simp)
    · obtain ⟨rfl, rfl⟩ := TransportCall.setSrtp.inj heq
      obtain ⟨hnone, hbefore, hafter⟩ := h.flip hkeys
      obtain ⟨-, -, hlen, hexp⟩ := newKeys_some hkeys
      rw [← step_of_isDtls hop] at hafter
      refine ⟨hnone, hbefore, hafter, ?_⟩
      rw [step_of_isDtls hop, (samePool_handleDtls s ep env).peerMap]
      obtain ⟨data, rfl, -⟩ := hop
      exact ⟨data, ep, env, rfl, getOrCreatePeer_bound s ep env.pick, hlen, hexp⟩
    · cases heq
  · obtain ⟨_, -, heq | heq⟩ := hmem hk (by simp) (by simp) <;> cases heq
  · obtain ⟨_, -, heq | heq⟩ := hmem hk (by simp) (by simp) <;> cases heq

theorem Keyed.arrives (h : s.Keyed) {ctx : SrtpContext}
    (hctx : ((s.getOrCreatePeer ep env.pick).1.router.peers
      (s.getOrCreatePeer ep env.pick).2).srtp = some ctx) :
    s.Arrives ep (s.getOrCreatePeer ep env.pick).2 ctx := by
  rw [(getOrCreatePeer_contexts s ep env.pick _).2] at hctx
  have hknown : s.peerMap ep = some (s.getOrCreatePeer ep env.pick).2 :=
    h.known (by rw [hctx]; simp)
  exact ⟨hknown, fun ep' hep' => h.tables.inj ep' ep _ hep' hknown, hctx⟩

theorem Keyed.onlyKeyed (h : s.Keyed) (op : ServerOp) : OnlyKeyed s op := by
  rcases isDtls_or op with ⟨ep, env, hop⟩ | hop
  · exact h.onlyKeyed_dtls hop
  · have hctx := h.sameContexts hop
    refine ⟨fun p dtls hd => ?_, fun p ctx hs => ?_, fun p ctx hnone hs => ?_, fun p ctx hk => ?_,
      fun p plain hk => ?_, fun p plain hk => ?_⟩
    · rw [(hctx p).1]
      exact ⟨dtls, hd, rfl, fun _ => rfl⟩
    · rw [(hctx p).2]
      exact hs
    · rw [(hctx p).2, hnone] at hs
      cases hs
    · obtain ⟨_, _, _, _, _, _, _, ⟨heq, -⟩ | ⟨heq, -⟩⟩ := callsOf_of_not_isDtls hop hk <;>
        cases heq
    · obtain ⟨data, ep, env, ctx, hp, hsrtp, _, ⟨heq, hplain⟩ | ⟨heq, -⟩⟩ :=
        callsOf_of_not_isDtls hop hk
      · obtain ⟨rfl, rfl⟩ := TransportCall.onRtpPacket.inj heq
        exact ⟨data, ep, env, ctx, hp, h.arrives hsrtp, hplain⟩
      · cases heq
    · obtain ⟨data, ep, env, ctx, hp, hsrtp, _, ⟨heq, -⟩ | ⟨heq, hplain⟩⟩ :=
        callsOf_of_not_isDtls hop hk
      · cases heq
      · obtain ⟨rfl, rfl⟩ := TransportCall.onRtcpPacket.inj heq
        exact ⟨data, ep, env, ctx, hp, h.arrives hsrtp, hplain⟩

/-! ## Runs -/

/-- The call gives `p` a `DtlsContext`. -/
def MakesDtls (p : PeerRef) : TransportCall → Bool
  | .newDtls q _ => q == p
  | _ => false

/-- The call gives `p` its keys. -/
def SetsSrtp (p : PeerRef) : TransportCall → Bool
  | .setSrtp q _ => q == p
  | _ => false

/-- The call asks for key frames because of `p`. -/
def Bursts (p : PeerRef) : TransportCall → Bool
  | .sendPLItoAllPeers q => q == p
  | _ => false

/-- No peer gets a second context or a second burst in the calls of a run. -/
structure AtMostOnce (p : PeerRef) (log : List TransportCall) : Prop where
  dtls : log.countP (MakesDtls p) ≤ 1
  srtp : log.countP (SetsSrtp p) ≤ 1
  burst : log.countP (Bursts p) ≤ 1

theorem countP_dtls (op : ServerOp) (p : PeerRef) (hop : IsDtls op ep env) :
    (s.callsOf op).countP (MakesDtls p) =
      (if (s.router.peers p).dtls = none ∧ (s.getOrCreatePeer ep env.pick).2 = p then 1 else 0) ∧
    (s.callsOf op).countP (SetsSrtp p) = (s.callsOf op).countP (Bursts p) ∧
    (s.callsOf op).countP (SetsSrtp p) =
      if (newKeys env (s.dtlsOf ep env)).isSome ∧ (s.getOrCreatePeer ep env.pick).2 = p then 1
      else 0 := by
  rw [callsOf_of_isDtls hop]
  by_cases hp : (s.getOrCreatePeer ep env.pick).2 = p
  · rw [hp]
    cases (s.router.peers p).dtls <;> cases newKeys env (s.dtlsOf ep env) <;>
      simp [keyCalls, MakesDtls, SetsSrtp, Bursts]
  · cases (s.router.peers (s.getOrCreatePeer ep env.pick).2).dtls <;>
      cases newKeys env (s.dtlsOf ep env) <;> simp [keyCalls, MakesDtls, SetsSrtp, Bursts, hp]

theorem countP_not_dtls {op : ServerOp} (f : TransportCall → Bool)
    (hop : ∀ data ep env, op = .packet data ep env → protocol data ≠ some .dtls)
    (hf : ∀ plain q, f (.onRtpPacket plain q) = false ∧ f (.onRtcpPacket plain q) = false) :
    (s.callsOf op).countP f = 0 := by
  refine List.countP_eq_zero.2 fun k hk => ?_
  obtain ⟨_, _, _, _, _, _, _, ⟨rfl, -⟩ | ⟨rfl, -⟩⟩ := callsOf_of_not_isDtls hop hk
  · simp [(hf _ _).1]
  · simp [(hf _ _).2]

/-- A peer that has a context gets no other. -/
theorem once_dtls (ops : List ServerOp) (p : PeerRef) :
    (Runs.outputs step callsOf {} ops).countP (MakesDtls p) ≤ 1 := by
  apply Runs.countP_outputs_le_one (I := Keyed)
    (S := fun s => ∃ dtls, (s.router.peers p).dtls = some dtls) fun _ op h => h.step op
  · intro s op h hspent
    obtain ⟨dtls, hd⟩ := hspent
    obtain ⟨dtls', hd', -⟩ := (h.onlyKeyed op).dtlsKept p dtls hd
    refine ⟨?_, dtls', hd'⟩
    rcases isDtls_or op with ⟨ep, env, hop⟩ | hop
    · rw [(countP_dtls op p hop).1, if_neg (by simp [hd])]
    · exact countP_not_dtls _ hop fun _ _ => ⟨rfl, rfl⟩
  · intro s op h
    rcases isDtls_or op with ⟨ep, env, hop⟩ | hop
    · rw [(countP_dtls op p hop).1]
      split
      · rename_i hmakes
        have hafter := (handleDtls_contexts s ep env p).1
        rw [if_pos hmakes.2.symm, ← step_of_isDtls hop] at hafter
        exact ⟨Nat.le_refl 1, fun _ => ⟨_, hafter⟩⟩
      · exact ⟨Nat.zero_le 1, fun hpos => absurd hpos (Nat.lt_irrefl 0)⟩
    · rw [countP_not_dtls _ hop fun _ _ => ⟨rfl, rfl⟩]
      exact ⟨Nat.zero_le 1, fun hpos => absurd hpos (Nat.lt_irrefl 0)⟩
  · exact keyed_start

theorem Keyed.handshakeDone_step (h : s.Keyed) (op : ServerOp) (hd : s.HandshakeDone p) :
    (s.step op).HandshakeDone p := by
  obtain ⟨dtls, hd, hdone⟩ := hd
  obtain ⟨dtls', hd', -, hsame⟩ := (h.onlyKeyed op).dtlsKept p dtls hd
  exact ⟨dtls', hd', by rw [hsame hdone]; exact hdone⟩

/-- A handshake completes once, and with it the calls that wait for it. -/
theorem once_keys (ops : List ServerOp) (p : PeerRef) {f : TransportCall → Bool}
    (hf : f = SetsSrtp p ∨ f = Bursts p) : (Runs.outputs step callsOf {} ops).countP f ≤ 1 := by
  have hdtls : ∀ {s : MediaServer} {op ep env}, IsDtls op ep env → (s.callsOf op).countP f =
      if (newKeys env (s.dtlsOf ep env)).isSome ∧ (s.getOrCreatePeer ep env.pick).2 = p then 1
      else 0 := by
    intro s op ep env hop
    obtain ⟨-, hsame, hcount⟩ := countP_dtls (s := s) op p hop
    rcases hf with rfl | rfl
    · exact hcount
    · exact hsame.symm.trans hcount
  have hrest : ∀ plain q, f (.onRtpPacket plain q) = false ∧ f (.onRtcpPacket plain q) = false := by
    rcases hf with rfl | rfl <;> exact fun _ _ => ⟨rfl, rfl⟩
  apply Runs.countP_outputs_le_one (I := Keyed) (S := fun s => s.HandshakeDone p)
    fun _ op h => h.step op
  · intro s op h hspent
    refine ⟨?_, h.handshakeDone_step op hspent⟩
    rcases isDtls_or op with ⟨ep, env, hop⟩ | hop
    · rw [hdtls hop, if_neg]
      intro hkeys
      obtain ⟨hkeys, rfl⟩ := hkeys
      obtain ⟨ctx, hctx⟩ := Option.isSome_iff_exists.1 hkeys
      exact (h.flip hctx).2.1 hspent
    · exact countP_not_dtls _ hop hrest
  · intro s op h
    rcases isDtls_or op with ⟨ep, env, hop⟩ | hop
    · rw [hdtls hop]
      split
      · rename_i hkeys
        obtain ⟨hkeys, rfl⟩ := hkeys
        obtain ⟨ctx, hctx⟩ := Option.isSome_iff_exists.1 hkeys
        refine ⟨Nat.le_refl 1, fun _ => ?_⟩
        rw [step_of_isDtls hop]
        exact (h.flip hctx).2.2
      · exact ⟨Nat.zero_le 1, fun hpos => absurd hpos (Nat.lt_irrefl 0)⟩
    · rw [countP_not_dtls _ hop hrest]
      exact ⟨Nat.zero_le 1, fun hpos => absurd hpos (Nat.lt_irrefl 0)⟩
  · exact keyed_start

/-- **Only keyed traffic reaches the router**, in every run of RPCs and datagrams. -/
theorem only_keyed (ops : List ServerOp) :
    Meets step OnlyKeyed {} ops ∧ ∀ p, AtMostOnce p (Runs.outputs step callsOf {} ops) :=
  ⟨Runs.meets_of_inv (I := Keyed) (fun _ op h => h.step op) (fun _ op h => h.onlyKeyed op) ops
    keyed_start, fun p => ⟨once_dtls ops p, once_keys ops p (.inl rfl), once_keys ops p (.inr rfl)⟩⟩

end Namecon.MediaServer
