import Namecon.Grpc.Proof.Sound

/-!
# The links of the router in runs of the media server

`Router.Linked` along runs of RPCs and datagrams (`linked_exec`), and what a datagram that decrypts
to an RTP packet sends, in terms of the state that its endpoint is bound in (`handleSrtp_rtp`).
-/

namespace Namecon

open Runs (exec)

/-- The datagram is no RTP packet with the SSRC 0, whatever the context it is decrypted with. -/
def ServerOp.NoZeroPacket : ServerOp → Prop
  | .packet data _ env => ∀ ctx, ∀ plain ∈ env.unprotect ctx data,
      ∀ hdr ∈ RtpHeader.parse plain, hdr.ssrc ≠ 0
  | _ => True

namespace Router

variable {r r' : Router}

theorem Linked.frame (h : r.Linked) (hs : SameLinks r r') : r'.Linked where
  wf := h.wf.frame hs
  noZero P p hp := by
    rw [hs.producers] at hp
    exact h.noZero P p hp
  noDangling := h.noDangling.frame hs

theorem channel_of_mem_onRtcpPacket {o : SrtpOracle} {rtcp : Bytes} {d : Datagram}
    (h : d ∈ r.onRtcpPacket o rtcp) : d.channel = .rtcp := by
  rw [onRtcpPacket_eq, List.mem_flatMap] at h
  obtain ⟨q, -, hd⟩ := h
  unfold translate at hd
  split at hd
  · cases hd
  · split at hd
    · cases hd
    · exact Peer.channel_of_mem_sendRtcp hd

end Router

namespace MediaServer

open Router

variable {s : MediaServer} {data : Bytes} {ep : Endpoint} {env : PacketEnv}

theorem getOrCreatePeer_heap (s : MediaServer) (ep : Endpoint) (pick : Nat) :
    (s.getOrCreatePeer ep pick).1.router.heap = s.router.heap := by
  unfold getOrCreatePeer
  split
  · rfl
  · split <;> rfl

theorem linked_handleSrtp (hl : s.router.Linked)
    (hop : (ServerOp.packet data ep env).NoZeroPacket) :
    (s.handleSrtp data ep env).1.router.Linked := by
  have hgot := hl.frame (sameLinks_getOrCreatePeer s ep env.pick)
  unfold MediaServer.handleSrtp
  dsimp only
  split
  · exact hgot
  · rename_i ctx _
    split
    · rename_i plain hplain
      exact @Linked.step _ hgot (.onRtpPacket _ env.srtp plain _) (hop ctx plain hplain)
    · split <;> exact hgot

theorem Sound.linked_step (h : s.Sound) (hl : s.router.Linked) {op : ServerOp}
    (hop : op.NoZeroPacket) : (s.step op).router.Linked := by
  cases op with
  | addPeer info id => exact hl.frame (h.sameLinks_addPeer info id)
  | addConsumer sub pub v d =>
    simp only [MediaServer.step, MediaServer.addConsumer]
    split
    · rename_i S P _ _
      exact @Linked.step _ hl (.addConsumer S P v d) trivial
    · exact hl
  | sendOffer g id sdp rms => exact hl.frame (sameLinks_sendOffer s g id sdp rms)
  | removePeer id =>
    simp only [MediaServer.step, MediaServer.removePeer]
    split
    · exact hl
    · rename_i X _
      exact @Linked.step _ hl (.removePeer X) trivial
  | packet data ep env =>
    refine onPacket_cases (P := fun s' => s'.router.Linked) hl ?_ (linked_handleSrtp hl hop)
    exact (hl.frame (sameLinks_getOrCreatePeer s ep env.pick)).frame (sameLinks_handleDtls s ep env)

/-- **The links are right** in every state of a run without packets of the SSRC 0. -/
theorem linked_exec {ops : List ServerOp} (hops : ∀ op ∈ ops, op.NoZeroPacket) :
    (exec step {} ops).Sound ∧ (exec step {} ops).router.Linked :=
  Runs.exec_inv (I := fun s : MediaServer => s.Sound ∧ s.router.Linked)
    (G := fun _ => ServerOp.NoZeroPacket) (fun _ op h hop => ⟨h.1.step op, h.1.linked_step h.2 hop⟩)
    ⟨sound_start, linked_start _⟩ (Runs.meets_of_forall hops)

/-- An SRTP datagram sends RTP only where it decrypts to an RTP packet, which is then forwarded. -/
theorem handleSrtp_rtp (s : MediaServer) (data : Bytes) (ep : Endpoint) (env : PacketEnv) :
    let got := s.getOrCreatePeer ep env.pick
    (s.handleSrtp data ep env).2.filter (·.channel = .rtp) = [] ∨
      ∃ ctx plain hdr, (got.1.router.peers got.2).srtp = some ctx ∧
        env.unprotect ctx data = some plain ∧ RtpHeader.parse plain = some hdr ∧
        (s.handleSrtp data ep env).2 =
          (got.1.router.onRtpPacket got.1.videoPTs env.srtp plain got.2).2 := by
  unfold handleSrtp
  dsimp only
  split
  · exact .inl rfl
  · rename_i ctx hctx
    split
    · rename_i plain hplain
      cases hp : RtpHeader.parse plain with
      | none => exact .inl (by rw [onRtpPacket_short hp]; rfl)
      | some hdr => exact .inr ⟨ctx, plain, hdr, hctx, hplain, hp, rfl⟩
    · split
      · exact .inl <| List.filter_eq_nil_iff.2 fun d hd => by
          rw [channel_of_mem_onRtcpPacket hd]; decide
      · exact .inl rfl

theorem channel_of_mem_handlePacket {dtls : DtlsContext} {d : Datagram}
    (h : d ∈ (handlePacket env dtls).2) : d.channel = .dtls := by
  unfold handlePacket at h
  split at h
  · cases h
  · obtain ⟨b, -, rfl⟩ := List.mem_map.1 h
    rfl

theorem channel_of_mem_sendPLItoAllPeers {r : Router} {o : SrtpOracle} {p : PeerRef} {d : Datagram}
    (h : d ∈ sendPLItoAllPeers r o p) : d.channel = .rtcp := by
  obtain ⟨x, -, hd⟩ := List.mem_flatMap.1 h
  split at hd
  · cases hd
  · exact Peer.channel_of_mem_sendRtcp hd

theorem channel_of_mem_handleDtls {d : Datagram} (h : d ∈ (s.handleDtls ep env).2) :
    d.channel = .dtls ∨ d.channel = .rtcp := by
  unfold handleDtls at h
  dsimp only at h
  split at h
  · split at h
    · exact .inl (channel_of_mem_handlePacket h)
    · rcases List.mem_append.1 h with h | h
      · exact .inl (channel_of_mem_handlePacket h)
      · exact .inr (channel_of_mem_sendPLItoAllPeers h)
  · exact .inl (channel_of_mem_handlePacket h)

/-- RTP is sent by `handleSrtp` alone. -/
theorem onPacket_rtp (hice : ∀ d ∈ env.ice, d.channel = .stun) {d : Datagram}
    (h : d ∈ (s.onPacket data ep env).2) (hd : d.channel = .rtp) :
    d ∈ (s.handleSrtp data ep env).2 := by
  cases hproto : protocol data with
  | none =>
    simp only [onPacket, hproto] at h
    cases h
  | some k =>
    cases k with
    | stun =>
      simp only [onPacket, hproto] at h
      rw [hice d h] at hd
      cases hd
    | dtls =>
      simp only [onPacket, hproto] at h
      rcases channel_of_mem_handleDtls h with hc | hc <;> (rw [hc] at hd; cases hd)
    | srtp =>
      simp only [onPacket, hproto] at h
      exact h

end MediaServer

end Namecon
