import Namecon.Grpc.Proof.Copies
import Namecon.Sfu.Proof.Feedback
import Namecon.Transport.Proof.Keyed

/-!
# What leaves the server is sealed for where it goes

A peer keeps the endpoint and the keys it was given, so the keys of a peer are those of a handshake
that a datagram of its own endpoint completed (`Provenance`). Every RTP or RTCP datagram is made for
a peer: it is sent to the endpoint of the peer and protected with its keys (`Peer.Seals`). Together:
`sealed_for_target`.
-/

namespace Namecon

open Runs (exec)

/-- `d` goes to the endpoint of `x`, protected with the context of `x`. -/
def Peer.Seals (x : Peer) (srtp : SrtpOracle) (d : Datagram) : Prop :=
  ∃ ctx, x.srtp = some ctx ∧ d.target = x.remoteEp ∧
    ((d.channel = .rtp ∧ ∃ c, srtp.protect c ctx d.plain = some d.data) ∨
      (d.channel = .rtcp ∧ ∃ i, srtp.protectRtcp i ctx d.plain = some d.data))

theorem Peer.seals_of_mem_sendRtcp {x : Peer} {srtp : SrtpOracle} {i : Nat} {plain : Bytes}
    {d : Datagram} (h : d ∈ x.sendRtcp srtp i plain) : x.Seals srtp d := by
  obtain ⟨ctx, data, hctx, hdata, rfl⟩ := Peer.mem_sendRtcp.1 h
  exact ⟨ctx, hctx, rfl, .inr ⟨rfl, i, hdata⟩⟩

/-! ## The router -/

namespace Router

variable {r r' : Router} {o : SrtpOracle} {buf : Bytes} {P : PeerRef} {d : Datagram}

/-- `d` is made for some peer. -/
def Seals (r : Router) (o : SrtpOracle) (d : Datagram) : Prop := ∃ q, (r.peers q).Seals o d

theorem Seals.frame (h : r.Seals o d)
    (hsrtp : ∀ q, (r'.peers q).srtp = (r.peers q).srtp)
    (hep : ∀ q, (r'.peers q).remoteEp = (r.peers q).remoteEp) : r'.Seals o d := by
  obtain ⟨q, ctx, hctx, htarget, hdata⟩ := h
  exact ⟨q, ctx, (hsrtp q).trans hctx, htarget.trans (hep q).symm, hdata⟩

theorem seals_forwardOne {c : ConsumerRef} (h : d ∈ (r.forwardOne o buf c).2) : r.Seals o d := by
  simp only [forwardOne] at h
  split at h
  · cases h
  · split at h
    · cases h
    · rename_i S _
      split at h
      · cases h
      · rename_i ctx hctx
        split at h
        · cases h
        · split at h
          · cases h
          · rename_i data hdata
            obtain rfl := List.mem_singleton.1 h
            exact ⟨S, ctx, hctx, rfl, .inl ⟨rfl, c, hdata⟩⟩

theorem seals_forward {hdr : RtpHeader} (hp : RtpHeader.parse buf = some hdr)
    (l : List ConsumerRef) : ∀ {r : Router}, d ∈ (forward o buf l r).2 → r.Seals o d := by
  induction l with
  | nil => exact fun h => absurd h List.not_mem_nil
  | cons c l ih =>
    intro r h
    rcases List.mem_append.1 h with h | h
    · exact seals_forwardOne h
    · have hpeers : (r.forwardOne o buf c).1.peers = r.peers := forwardOne_peers hp r c
      exact (ih h).frame (fun q => by rw [hpeers]) fun q => by rw [hpeers]

theorem seals_onRtpPacket (hw : r.Wf) {V : Finset UInt8} (h : d ∈ (r.onRtpPacket V o buf P).2) :
    r.Seals o d := by
  cases hp : RtpHeader.parse buf with
  | none =>
    rw [onRtpPacket_short hp] at h
    cases h
  | some hdr =>
    rw [onRtpPacket_parse hp] at h
    rcases List.mem_append.1 h with h | h
    · -- the PLI for a new video stream
      cases hf : r.findProducer P hdr.ssrc with
      | some p =>
        rw [linkTargets_known hf] at h
        cases h
      | none =>
        rw [linkTargets_new hf] at h
        simp only [createProducer] at h
        split at h
        · exact ⟨P, Peer.seals_of_mem_sendRtcp h⟩
        · cases h
    · refine (seals_forward hp _ h).frame (fun q => ?_) fun q => ?_
      all_goals
        obtain ⟨ps, hq⟩ := linkTargets_peer (o := o) (P := P) (s := hdr.ssrc)
          (v := hdr.payloadType ∈ V) hw q
        rw [hq]

theorem seals_onRtcpPacket {rtcp : Bytes} (h : d ∈ r.onRtcpPacket o rtcp) : r.Seals o d := by
  rw [onRtcpPacket_eq, List.mem_flatMap] at h
  obtain ⟨x, -, hd⟩ := h
  rw [translate_eq, List.mem_map] at hd
  obtain ⟨y, hy, rfl⟩ := hd
  obtain ⟨c, -, -, hd⟩ := mem_translateTo.1 hy
  exact ⟨y.1, Peer.seals_of_mem_sendRtcp hd⟩

end Router

namespace MediaServer

variable {s : MediaServer} {done : List ServerOp} {data : Bytes} {ep : Endpoint} {env : PacketEnv}
  {p : PeerRef} {ctx : SrtpContext} {d : Datagram}

theorem seals_sendPLItoAllPeers {r : Router} {o : SrtpOracle}
    (h : d ∈ sendPLItoAllPeers r o p) : r.Seals o d := by
  obtain ⟨x, -, hd⟩ := List.mem_flatMap.1 h
  split at hd
  · cases hd
  · exact ⟨_, Peer.seals_of_mem_sendRtcp hd⟩

theorem seals_handleDtls (h : d ∈ (s.handleDtls ep env).2)
    (hd : d.channel = .rtp ∨ d.channel = .rtcp) :
    (s.handleDtls ep env).1.router.Seals env.srtp d := by
  have hfed : ∀ dtls, d ∉ (handlePacket env dtls).2 := by
    intro dtls hmem
    rw [channel_of_mem_handlePacket hmem] at hd
    rcases hd with hd | hd <;> cases hd
  unfold handleDtls at h ⊢
  dsimp only at h ⊢
  split at h
  · rename_i hflip
    rw [if_pos hflip]
    cases hinit : initSrtp env with
    | none =>
      rw [hinit] at h
      exact absurd h (hfed _)
    | some ctx =>
      rw [hinit] at h
      rcases List.mem_append.1 h with h | h
      · exact absurd h (hfed _)
      · exact seals_sendPLItoAllPeers h
  · exact absurd h (hfed _)

theorem seals_handleSrtp (hs : s.Sound) (h : d ∈ (s.handleSrtp data ep env).2) :
    (s.handleSrtp data ep env).1.router.Seals env.srtp d := by
  have hr := routerOnly_handleSrtp s data ep env
  have hbound := hs.getOrCreatePeer ep env.pick
  suffices h : (s.getOrCreatePeer ep env.pick).1.router.Seals env.srtp d from
    h.frame (fun q => (hr.contexts q).2) hr.tables.remoteEp
  unfold handleSrtp at h
  dsimp only at h
  split at h
  · cases h
  · split at h
    · exact Router.seals_onRtpPacket hbound.wf h
    · split at h
      · exact Router.seals_onRtcpPacket h
      · cases h

/-- What a datagram makes the server send on the media channels is made for a peer, as the peer is
after the step. -/
theorem seals_onPacket (hs : s.Sound) (hice : ∀ d ∈ env.ice, d.channel = .stun)
    (h : d ∈ (s.onPacket data ep env).2) (hd : d.channel = .rtp ∨ d.channel = .rtcp) :
    (s.onPacket data ep env).1.router.Seals env.srtp d := by
  cases hproto : protocol data with
  | none =>
    simp only [onPacket, hproto] at h
    cases h
  | some k =>
    cases k with
    | stun =>
      simp only [onPacket, hproto] at h
      rw [hice d h] at hd
      rcases hd with hd | hd <;> cases hd
    | dtls =>
      simp only [onPacket, hproto] at h ⊢
      exact seals_handleDtls h hd
    | srtp =>
      simp only [onPacket, hproto] at h ⊢
      exact seals_handleSrtp hs h

/-! ## Where keys come from -/

/-- A datagram from `ep` has completed a handshake of `ep` whose exported keys are `ctx`. -/
def Negotiated (done : List ServerOp) (ep : Endpoint) (ctx : SrtpContext) : Prop :=
  ∃ before data env after, done = before ++ .packet data ep env :: after ∧
    protocol data = some .dtls ∧ newKeys env ((exec step {} before).dtlsOf ep env) = some ctx

theorem Negotiated.snoc (h : Negotiated done ep ctx) (op : ServerOp) :
    Negotiated (done ++ [op]) ep ctx := by
  obtain ⟨before, data, env, after, rfl, hproto, hkeys⟩ := h
  exact ⟨before, data, env, after ++ [op], by simp, hproto, hkeys⟩

/-- The keys of every peer were negotiated with its endpoint. -/
def Provenance (done : List ServerOp) (s : MediaServer) : Prop :=
  ∀ p ctx, (s.router.peers p).srtp = some ctx → Negotiated done (s.router.peers p).remoteEp ctx

theorem keyed_exec (ops : List ServerOp) : (exec step {} ops).Keyed :=
  Runs.exec_inv' (I := Keyed) (fun _ op h => h.step op) ops keyed_start

/-- A peer with keys is bound to its endpoint. -/
theorem Keyed.bound (h : s.Keyed) (hctx : (s.router.peers p).srtp = some ctx) :
    s.peerMap (s.router.peers p).remoteEp = some p := by
  by_contra hnone
  have hall : ∀ ep, s.peerMap ep ≠ some p := by
    intro ep hep
    rw [h.tables.remoteEp ep p hep] at hnone
    exact hnone hep
  rw [(h.bare p hall).2] at hctx
  cases hctx

/-- A bound endpoint stays bound to its peer. -/
theorem peerMap_step (op : ServerOp) (h : s.peerMap ep = some p) :
    (s.step op).peerMap ep = some p := by
  cases op with
  | addPeer info id => exact h
  | addConsumer sub pub v d =>
    exact (routerOnly_step (s := s) (.addConsumer sub pub v d) (by simp) (by simp)).tables.peerMap ▸ h
  | sendOffer g id sdp rms =>
    exact (routerOnly_step (s := s) (.sendOffer g id sdp rms) (by simp) (by simp)).tables.peerMap ▸ h
  | removePeer id =>
    exact (routerOnly_step (s := s) (.removePeer id) (by simp) (by simp)).tables.peerMap ▸ h
  | packet data ep' env =>
    refine onPacket_cases (P := fun s' => s'.peerMap ep = some p) h ?_ ?_
    · rw [(samePool_handleDtls s ep' env).peerMap]
      exact getOrCreatePeer_keeps h env.pick
    · rw [(routerOnly_handleSrtp s data ep' env).tables.peerMap]
      exact getOrCreatePeer_keeps h env.pick

theorem Keyed.remoteEp_step (h : s.Keyed) (op : ServerOp)
    (hctx : (s.router.peers p).srtp = some ctx) :
    ((s.step op).router.peers p).remoteEp = (s.router.peers p).remoteEp :=
  (h.step op).tables.remoteEp _ p (peerMap_step op (h.bound hctx))

/-- Keys are kept, or they are those of the handshake that the step completes. -/
theorem provenance_step (op : ServerOp) (h : Provenance done (exec step {} done)) :
    Provenance (done ++ [op]) ((exec step {} done).step op) := by
  have hkeyed := keyed_exec done
  intro p ctx hctx
  cases hold : ((exec step {} done).router.peers p).srtp with
  | some ctx' =>
    have hkept := (hkeyed.onlyKeyed op).srtpKept p ctx' hold
    obtain rfl : ctx' = ctx := Option.some.inj (hkept.symm.trans hctx)
    rw [hkeyed.remoteEp_step op hold]
    exact (h p ctx' hold).snoc op
  | none =>
    rcases isDtls_or op with ⟨ep, env, hop⟩ | hop
    · have hstep := step_of_isDtls (s := exec step {} done) hop
      have hafter := (handleDtls_contexts (exec step {} done) ep env p).2
      rw [← hstep, hctx, hold] at hafter
      split at hafter
      · rename_i hp
        rw [Option.or_none] at hafter
        have hbound : ((exec step {} done).step op).peerMap ep = some p := by
          rw [hstep, (samePool_handleDtls (exec step {} done) ep env).peerMap, hp]
          exact getOrCreatePeer_bound _ ep env.pick
        rw [(hkeyed.step op).tables.remoteEp ep p hbound]
        obtain ⟨data, rfl, hproto⟩ := hop
        exact ⟨done, data, env, [], rfl, hproto, hafter.symm⟩
      · cases hafter
    · rw [(hkeyed.sameContexts hop p).2, hold] at hctx
      cases hctx

theorem provenance_exec (ops : List ServerOp) : Provenance ops (exec step {} ops) := by
  induction ops using List.reverseRecOn with
  | nil => exact fun p ctx hctx => absurd hctx (by simp [Router.start])
  | append_singleton ops op ih =>
    rw [Runs.exec_append]
    exact provenance_step op ih

/-! ## The result -/

/-- `d` is protected with keys that were negotiated with the endpoint it goes to. -/
def SealedForTarget (done : List ServerOp) (srtp : SrtpOracle) (d : Datagram) : Prop :=
  ∃ ctx, Negotiated done d.target ctx ∧
    ((d.channel = .rtp ∧ ∃ c, srtp.protect c ctx d.plain = some d.data) ∨
      (d.channel = .rtcp ∧ ∃ i, srtp.protectRtcp i ctx d.plain = some d.data))

/-- **Media is sealed for its target.** Whatever has happened, each RTP or RTCP datagram that a
datagram makes the server send is protected with keys that OpenSSL exported from a handshake which
an earlier datagram of the very endpoint it is sent to, or this one, completed. -/
theorem sealed_for_target (ops : List ServerOp) (data : Bytes) (ep : Endpoint) (env : PacketEnv)
    (hice : ∀ d ∈ env.ice, d.channel = .stun) (d : Datagram)
    (hd : d ∈ ((exec step {} ops).onPacket data ep env).2)
    (hchannel : d.channel = .rtp ∨ d.channel = .rtcp) :
    SealedForTarget (ops ++ [.packet data ep env]) env.srtp d := by
  have hprov := provenance_exec (ops ++ [.packet data ep env])
  rw [Runs.exec_append] at hprov
  obtain ⟨q, ctx, hctx, htarget, hdata⟩ :=
    seals_onPacket (sound_start.exec ops) hice hd hchannel
  refine ⟨ctx, ?_, hdata⟩
  rw [htarget]
  exact hprov q ctx hctx

/-- The packet of a, as s gets it. -/
def mediaForS : Datagram :=
  ⟨⟨1, 1⟩, .rtp, [0x80, 96, 0, 1, 0, 0, 0, 0, 0x40, 0, 0, 0],
    [0x80, 96, 0, 1, 0, 0, 0, 0, 0x40, 0, 0, 0]⟩

theorem sealed_for_target_subscribedTwice :
    mediaForS ∈ ((exec step {} subscribedTwice).onPacket mediaOfA ⟨2, 2⟩ plainEnv).2 ∧
      SealedForTarget (subscribedTwice ++ [.packet mediaOfA ⟨2, 2⟩ plainEnv]) plainEnv.srtp
        mediaForS := by
  have hsent : mediaForS ∈ ((exec step {} subscribedTwice).onPacket mediaOfA ⟨2, 2⟩ plainEnv).2 := by
    decide
  exact ⟨hsent, sealed_for_target subscribedTwice mediaOfA ⟨2, 2⟩ plainEnv (by simp [plainEnv])
    mediaForS hsent (.inl rfl)⟩

end MediaServer

end Namecon
