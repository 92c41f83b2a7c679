import Namecon.Grpc.Proof.Links

/-!
# Between whom media flows

`AddConsumer` is the only call that makes a consumer, and nothing but the end of its publisher takes
a consumer's subscriber or publisher away. So, when the calls name only pairs of a relation `R`
between ids, every consumer is of a pair of `R` (`Between`, `Between.step`), and a packet goes to no
peer that is not in `R` with its sender (`Between.mem_handleSrtp`).
-/

namespace Namecon

/-- The call asks for media between two ids of `R`. -/
def ServerOp.Asks (R : String → String → Prop) : ServerOp → Prop
  | .addConsumer sub pub _ _ => R sub pub
  | _ => True

namespace Router

variable {r r' : Router} {o : SrtpOracle} {buf : Bytes} {P : PeerRef} {d : Datagram}

theorem linkTargets_publisher {s : UInt32} {v : Bool} (c : ConsumerRef) :
    ((r.linkTargets o P s v).1.heap c).publisher = (r.heap c).publisher := by
  cases hf : r.findProducer P s with
  | some p => rw [linkTargets_known hf]
  | none => rw [linkTargets_new hf]; exact createProducer_field (o := o) _ (fun _ => rfl) c

theorem linkTargets_subscriber {s : UInt32} {v : Bool} (c : ConsumerRef) :
    ((r.linkTargets o P s v).1.heap c).subscriber = (r.heap c).subscriber := by
  cases hf : r.findProducer P s with
  | some p => rw [linkTargets_known hf]
  | none => rw [linkTargets_new hf]; exact createProducer_field (o := o) _ (fun _ => rfl) c

theorem onRtpPacket_subscriber (V : Finset UInt8) (c : ConsumerRef) :
    ((r.onRtpPacket V o buf P).1.heap c).subscriber = (r.heap c).subscriber := by
  cases hp : RtpHeader.parse buf with
  | none => rw [onRtpPacket_short hp]
  | some hdr =>
    rw [onRtpPacket_parse hp]
    exact ((sameLinks_forward hp _ _).heap c).subscriber.trans (linkTargets_subscriber c)

/-- An RTP packet of `P` goes to subscribers of consumers whose publisher is `P`. -/
theorem mem_onRtpPacket (hw : r.Wf) {V : Finset UInt8} (h : d ∈ (r.onRtpPacket V o buf P).2)
    (hd : d.channel = .rtp) : ∃ c S, (r.heap c).publisher = some P ∧
      (r.heap c).subscriber = some S ∧ d.target = (r.peers S).remoteEp := by
  cases hp : RtpHeader.parse buf with
  | none =>
    rw [onRtpPacket_short hp] at h
    cases h
  | some hdr =>
    rw [onRtpPacket_parse hp] at h
    rcases List.mem_append.1 h with h | h
    · rw [linkTargets_rtcp h] at hd
      cases hd
    · obtain ⟨p, hmem, -, htargets⟩ := linkTargets_spec (o := o) (P := P) (s := hdr.ssrc)
        (v := hdr.payloadType ∈ V) hw
      rw [htargets, forward_datagrams hp _ (hw.linkTargets.listNodup P p hmem)] at h
      obtain ⟨c, hc, hone⟩ := List.mem_flatMap.1 h
      obtain ⟨S, _, _, hr, -, rfl⟩ := (mem_forwardOne hp).1 hone
      have hpub := (hw.linkTargets.listLink P p c ⟨hmem, hc⟩).1
      have hsub := hr.subscriber
      rw [linkTargets_publisher] at hpub
      rw [linkTargets_subscriber] at hsub
      obtain ⟨_, hpeer⟩ := linkTargets_peer (o := o) (P := P) (s := hdr.ssrc)
        (v := hdr.payloadType ∈ V) hw S
      refine ⟨c, S, hpub, hsub, ?_⟩
      simp only [delivery, hpeer]

end Router

namespace MediaServer

variable {s s' : MediaServer} {R R' : String → String → Prop}

/-- Every consumer has a subscriber and a publisher whose ids are in `R`. -/
def Between (R : String → String → Prop) (s : MediaServer) : Prop :=
  ∀ c S P, (s.router.heap c).subscriber = some S → (s.router.heap c).publisher = some P →
    S < s.nextPeer ∧ P < s.nextPeer ∧ R (s.router.peers S).peerId (s.router.peers P).peerId

theorem between_start : ({} : MediaServer).Between R := fun _ _ _ hS => by cases hS

theorem Between.mono (h : s.Between R) (hR : ∀ a b, R a b → R' a b) : s.Between R' := by
  intro c S P hS hP
  obtain ⟨hltS, hltP, hin⟩ := h c S P hS hP
  exact ⟨hltS, hltP, hR _ _ hin⟩

/-- No new consumer, and the peers there are keep their ids. -/
theorem Between.frame (h : s.Between R)
    (hsub : ∀ c, (s'.router.heap c).subscriber = (s.router.heap c).subscriber)
    (hpub : ∀ c P, (s'.router.heap c).publisher = some P → (s.router.heap c).publisher = some P)
    (hnext : s.nextPeer ≤ s'.nextPeer)
    (hid : ∀ p < s.nextPeer, (s'.router.peers p).peerId = (s.router.peers p).peerId) :
    s'.Between R := by
  intro c S P hS hP
  obtain ⟨hltS, hltP, hin⟩ := h c S P ((hsub c).symm.trans hS) (hpub c P hP)
  rw [hid S hltS, hid P hltP]
  exact ⟨Nat.lt_of_lt_of_le hltS hnext, Nat.lt_of_lt_of_le hltP hnext, hin⟩

theorem Between.addPeer (h : s.Between R) (info : ServerInfo) (id : String) :
    (s.addPeer info id).1.Between R := by
  refine h.frame (fun _ => rfl) (fun _ _ hP => hP) (Nat.le_succ _) fun p hp => ?_
  rw [addPeer_router, Router.modifyPeer_ne _ _ _ (Nat.ne_of_lt hp)]

theorem Between.addConsumer (hs : s.Sound) (h : s.Between R) {sub pub : String} (hR : R sub pub)
    (v : Bool) (d : Router.SsrcDraw) : (s.addConsumer sub pub v d).1.Between R := by
  unfold MediaServer.addConsumer
  split
  · rename_i S P hS hP
    intro c S' P' hS' hP'
    have hids := (Router.sameTransport_addConsumer s.router S P v d).peerId
    dsimp only at hS' hP' ⊢
    rw [hids, hids]
    by_cases hc : c = s.router.nextConsumer
    · -- the consumer that the call makes
      rw [hc, Router.addConsumer_heap_new] at hS' hP'
      obtain rfl : S = S' := Option.some.inj hS'
      obtain rfl : P = P' := Option.some.inj hP'
      refine ⟨registered_lt hs.pool hS, registered_lt hs.pool hP, ?_⟩
      rw [hs.named sub S hS, hs.named pub P hP]
      exact hR
    · rw [Router.addConsumer_heap, Function.update_of_ne hc] at hS' hP'
      exact h c S' P' hS' hP'
  · exact h

theorem Between.sendOffer (h : s.Between R) (g : GenerateAnswer) (id sdp : String)
    (rms : List RecvMid) : (s.sendOffer g id sdp rms).1.Between R := by
  have hlinks := sameLinks_sendOffer s g id sdp rms
  have hpool := samePool_sendOffer s g id sdp rms
  exact h.frame (fun c => (hlinks.heap c).subscriber)
    (fun c P hP => (hlinks.heap c).publisher.symm.trans hP) (Nat.le_of_eq hpool.nextPeer.symm)
    fun p _ => hpool.ids p

theorem Between.removePeer (h : s.Between R) (id : String) : (s.removePeer id).Between R := by
  unfold MediaServer.removePeer
  split
  · exact h
  · rename_i X _
    refine h.frame (fun c => ?_) (fun c P hP => ?_) (Nat.le_refl _)
      fun p _ => (Router.sameTransport_removePeer s.router X).peerId p
    · dsimp only
      rw [Router.removePeer_heap, Router.heapAfter_subscriber]
    · dsimp only at hP
      rw [Router.removePeer_heap, Router.heapAfter_publisher] at hP
      exact hP.2

theorem onPacket_subscriber (s : MediaServer) (data : Bytes) (ep : Endpoint) (env : PacketEnv)
    (c : ConsumerRef) :
    ((s.onPacket data ep env).1.router.heap c).subscriber = (s.router.heap c).subscriber := by
  have hgot := ((sameLinks_getOrCreatePeer s ep env.pick).heap c).subscriber
  refine onPacket_cases (P := fun s' => (s'.router.heap c).subscriber = _) rfl
    (((sameLinks_handleDtls s ep env).heap c).subscriber.trans hgot) ?_
  exact handleSrtp_cases (P := fun s' => (s'.router.heap c).subscriber = _) hgot fun plain =>
    (Router.onRtpPacket_subscriber _ c).trans hgot

theorem onPacket_nextPeer (h : s.Pool) (data : Bytes) (ep : Endpoint) (env : PacketEnv) :
    s.nextPeer ≤ (s.onPacket data ep env).1.nextPeer := by
  have hgot := (getOrCreatePeer_lt h ep env.pick).2
  refine onPacket_cases (P := fun s' => s.nextPeer ≤ s'.nextPeer) (Nat.le_refl _) ?_ ?_
  · rw [(samePool_handleDtls s ep env).nextPeer]
    exact hgot
  · rw [(samePool_handleSrtp s data ep env).nextPeer]
    exact hgot

theorem Between.onPacket (hs : s.Sound) (h : s.Between R) (data : Bytes) (ep : Endpoint)
    (env : PacketEnv) : (s.onPacket data ep env).1.Between R :=
  h.frame (onPacket_subscriber s data ep env)
    (fun c _ hP => ((hs.sameSubscribers_onPacket data ep env).publisher c).symm.trans hP)
    (onPacket_nextPeer hs.pool data ep env) fun p _ => onPacket_peerId s data ep env p

theorem Between.step (hs : s.Sound) (h : s.Between R) {op : ServerOp} (hop : op.Asks R) :
    (s.step op).Between R := by
  cases op with
  | addPeer info id => exact h.addPeer info id
  | addConsumer sub pub v d => exact h.addConsumer hs hop v d
  | sendOffer g id sdp rms => exact h.sendOffer g id sdp rms
  | removePeer id => exact h.removePeer id
  | packet data ep env => exact h.onPacket hs data ep env

theorem Between.getOrCreatePeer (hs : s.Pool) (h : s.Between R) (ep : Endpoint) (pick : Nat) :
    (s.getOrCreatePeer ep pick).1.Between R := by
  have hlinks := sameLinks_getOrCreatePeer s ep pick
  exact h.frame (fun c => (hlinks.heap c).subscriber)
    (fun c P hP => (hlinks.heap c).publisher.symm.trans hP) (getOrCreatePeer_lt hs ep pick).2
    fun p _ => getOrCreatePeer_peerId s ep pick p

/-- A datagram makes the server send RTP only to peers that are in `R` with the one it is from. -/
theorem Between.mem_onPacket (hs : s.Sound) (h : s.Between R) {data : Bytes} {ep : Endpoint}
    {env : PacketEnv} (hice : ∀ d ∈ env.ice, d.channel = .stun) {d : Datagram}
    (hd : d ∈ (s.onPacket data ep env).2) (hrtp : d.channel = .rtp) :
    let bound := s.getOrCreatePeer ep env.pick
    ∃ S, d.target = (bound.1.router.peers S).remoteEp ∧
      R (bound.1.router.peers S).peerId (bound.1.router.peers bound.2).peerId := by
  intro bound
  have hbound : bound.1.Between R := h.getOrCreatePeer hs.pool ep env.pick
  have hsound : bound.1.Sound := hs.getOrCreatePeer ep env.pick
  have hd := onPacket_rtp hice hd hrtp
  have hmem : d ∈ (s.handleSrtp data ep env).2.filter (·.channel = .rtp) :=
    List.mem_filter.2 ⟨hd, by rw [hrtp]; decide⟩
  rcases handleSrtp_rtp s data ep env with hnil | ⟨_, plain, _, -, -, -, hout⟩
  · rw [hnil] at hmem
    cases hmem
  · rw [hout] at hd
    obtain ⟨c, S, hP, hS, htarget⟩ := Router.mem_onRtpPacket hsound.wf hd hrtp
    exact ⟨S, htarget, (hbound c S _ hS hP).2.2⟩

end MediaServer

end Namecon
