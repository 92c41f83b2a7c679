import Namecon.Grpc.MediaService
import Namecon.Sfu.Proof.Nacks
import Namecon.Transport.Buffers

/-!
# Which buffers hold the encrypted packet

* `onPacket_calls`: what a datagram makes the server send encrypted is what comes of the calls that
  `protectCalls` lists.
* `calls_fit_iff`: all their buffers are large enough exactly when the datagram holds no receiver
  report that is relayed (`RelaysNone`): the packets the server builds itself are short, a forwarded
  RTP packet has lost as many bytes as it gains, and the copy of a report has its size.
-/

namespace Namecon

/-! ## What is sent is what comes of the calls -/

theorem Peer.sendRtcp_calls (x : Peer) (srtp : SrtpOracle) (i : Nat) (plain : Bytes)
    (capacity : Nat) : x.sendRtcp srtp i plain =
      (x.protectRtcpCalls srtp i plain capacity).filterMap ProtectCall.sent := by
  unfold Peer.sendRtcp Peer.protectRtcpCalls
  cases x.srtp with
  | none => rfl
  | some ctx =>
    dsimp only
    cases h : srtp.protectRtcp i ctx plain <;> simp [ProtectCall.sent]

namespace Router

variable {r : Router} {srtp : SrtpOracle} {i capacity len : Nat} {p rtcp plain : Bytes}

theorem translate_calls (r : Router) (srtp : SrtpOracle) (i : Nat) (q : Request)
    (capacity : Nat) : r.translate srtp i q =
      (r.translateCalls srtp i q capacity).filterMap ProtectCall.sent := by
  unfold translate translateCalls
  cases r.findConsumerByOutSsrc q.outSsrc with
  | none => rfl
  | some c =>
    dsimp only
    cases (r.heap c).publisher with
    | none => rfl
    | some publisher => exact Peer.sendRtcp_calls _ srtp i _ capacity

theorem handleRtcp_calls (r : Router) (srtp : SrtpOracle) (i : Nat) (p : Bytes) (len : Nat) :
    r.handleRtcp srtp i p len = (r.handleRtcpCalls srtp i p len).filterMap ProtectCall.sent := by
  unfold handleRtcp handleRtcpCalls
  split
  · exact translate_calls r srtp i _ 64
  · split
    · exact translate_calls r srtp i _ 64
    · split
      · unfold handleRR handleRRCalls
        split
        · rfl
        · exact translate_calls r srtp i _ len
      · rfl

theorem onRtcpPacket_calls (r : Router) (srtp : SrtpOracle) (rtcp : Bytes) :
    r.onRtcpPacket srtp rtcp =
      (r.onRtcpPacketCalls srtp rtcp).filterMap ProtectCall.sent := by
  unfold onRtcpPacket onRtcpPacketCalls
  rw [List.filterMap_flatMap]
  exact List.flatMap_congr fun x _ => handleRtcp_calls r srtp x.2 x.1.1 x.1.2

theorem forwardOne_calls (r : Router) (srtp : SrtpOracle) (buf : Bytes) (c : ConsumerRef) :
    (r.forwardOne srtp buf c).2 =
      (r.forwardOneCalls srtp buf c).filterMap ProtectCall.sent := by
  unfold forwardOne forwardOneCalls
  dsimp only
  split
  · rfl
  · cases (r.heap c).subscriber with
    | none => rfl
    | some subscriber =>
      dsimp only
      cases (r.peers subscriber).srtp with
      | none => rfl
      | some ctx =>
        dsimp only
        split
        · rfl
        · cases h : srtp.protect c ctx (rewriteRtpHeader buf (r.heap c)).1 <;>
            simp [ProtectCall.sent]

theorem forward_calls (srtp : SrtpOracle) (buf : Bytes) (l : List ConsumerRef) (r : Router) :
    (forward srtp buf l r).2 = (forwardCalls srtp buf l r).filterMap ProtectCall.sent := by
  induction l generalizing r with
  | nil => rfl
  | cons c l ih =>
    have hcons : (forward srtp buf (c :: l) r).2 =
        (r.forwardOne srtp buf c).2 ++ (forward srtp buf l (r.forwardOne srtp buf c).1).2 := rfl
    rw [hcons, forwardCalls, List.filterMap_append, ih, forwardOne_calls]

theorem linkTargets_calls (r : Router) (srtp : SrtpOracle) (P : PeerRef) (s : UInt32) (v : Bool) :
    (r.linkTargets srtp P s v).2.2 =
      (r.linkTargetsCalls srtp P s v).filterMap ProtectCall.sent := by
  unfold linkTargetsCalls
  cases hf : r.findProducer P s with
  | some p =>
    rw [linkTargets_known hf]
    rfl
  | none =>
    rw [linkTargets_new hf]
    cases v with
    | false => rfl
    | true => exact Peer.sendRtcp_calls _ srtp 0 _ 64

theorem onRtpPacket_calls (r : Router) (V : Finset UInt8) (srtp : SrtpOracle) (buf : Bytes)
    (P : PeerRef) : (r.onRtpPacket V srtp buf P).2 =
      (r.onRtpPacketCalls V srtp buf P).filterMap ProtectCall.sent := by
  unfold onRtpPacketCalls
  cases hp : RtpHeader.parse buf with
  | none =>
    rw [onRtpPacket_short hp]
    rfl
  | some hdr =>
    rw [onRtpPacket_parse hp]
    dsimp only
    rw [List.filterMap_append, ← linkTargets_calls, ← forward_calls]

end Router

namespace MediaServer

variable {s : MediaServer} {data : Bytes} {ep : Endpoint} {env : PacketEnv}

theorem sendPLItoAllPeers_calls (r : Router) (srtp : SrtpOracle) (newPeer : PeerRef) :
    sendPLItoAllPeers r srtp newPeer =
      (sendPLItoAllPeersCalls r srtp newPeer).filterMap ProtectCall.sent := by
  unfold sendPLItoAllPeers sendPLItoAllPeersCalls
  rw [List.filterMap_flatMap]
  refine List.flatMap_congr fun x _ => ?_
  split
  · rfl
  · exact Peer.sendRtcp_calls _ srtp x.2 _ 64

/-- What the handshake sends for a datagram; the keys do not encrypt it. -/
def handshakeFlight (s : MediaServer) (data : Bytes) (ep : Endpoint) (env : PacketEnv) :
    List Datagram :=
  let got := s.getOrCreatePeer ep env.pick
  if protocol data = some .dtls then
    (handlePacket env ((got.1.router.peers got.2).dtls.getD { sendTo := ep })).2
  else []

theorem handleDtls_calls (s : MediaServer) (ep : Endpoint) (env : PacketEnv) :
    (s.handleDtls ep env).2 =
      (handlePacket env (((s.getOrCreatePeer ep env.pick).1.router.peers
        (s.getOrCreatePeer ep env.pick).2).dtls.getD { sendTo := ep })).2 ++
      (s.handleDtlsCalls ep env).filterMap ProtectCall.sent := by
  unfold handleDtls handleDtlsCalls
  dsimp only
  split
  · cases initSrtp env with
    | none => exact (List.append_nil _).symm
    | some ctx =>
      dsimp only
      rw [← sendPLItoAllPeers_calls]
  · exact (List.append_nil _).symm

theorem handleSrtp_calls (s : MediaServer) (data : Bytes) (ep : Endpoint) (env : PacketEnv) :
    (s.handleSrtp data ep env).2 =
      (s.handleSrtpCalls data ep env).filterMap ProtectCall.sent := by
  unfold handleSrtp handleSrtpCalls
  dsimp only
  cases ((s.getOrCreatePeer ep env.pick).1.router.peers
      (s.getOrCreatePeer ep env.pick).2).srtp with
  | none => rfl
  | some ctx =>
    dsimp only
    cases env.unprotect ctx data with
    | some plain => exact Router.onRtpPacket_calls _ _ _ _ _
    | none =>
      dsimp only
      cases env.unprotectRtcp ctx data with
      | some plain => exact Router.onRtcpPacket_calls _ _ _
      | none => rfl

/-- **What a datagram makes the server send** is what the ICE server and the handshake send, and
what comes of the calls. -/
theorem onPacket_calls (s : MediaServer) (data : Bytes) (ep : Endpoint) (env : PacketEnv) :
    (s.onPacket data ep env).2 =
      (if protocol data = some .stun then env.ice else []) ++ s.handshakeFlight data ep env ++
        (s.protectCalls data ep env).filterMap ProtectCall.sent := by
  unfold onPacket handshakeFlight protectCalls
  cases protocol data with
  | none => rfl
  | some proto =>
    cases proto with
    | stun => simp
    | dtls => exact handleDtls_calls s ep env
    | srtp => exact handleSrtp_calls s data ep env

end MediaServer

/-! ## Which buffers are large enough -/

theorem Peer.protectRtcpCalls_fit {x : Peer} {srtp : SrtpOracle} {i capacity : Nat}
    {plain : Bytes} : (∀ k ∈ x.protectRtcpCalls srtp i plain capacity, k.Fits) ↔
      (x.srtp.isSome → plain.length + 14 ≤ capacity) := by
  unfold Peer.protectRtcpCalls
  cases x.srtp with
  | none => simp
  | some ctx =>
    rw [List.forall_mem_singleton]
    exact ⟨fun h _ => h, fun h => h rfl⟩

namespace Router

variable {r : Router} {srtp : SrtpOracle} {i capacity len : Nat} {p rtcp plain : Bytes}

/-- The packets with a buffer of 64 bytes. -/
theorem protectRtcpCalls_64 (x : Peer) (srtp : SrtpOracle) (i : Nat) (h : plain.length ≤ 50) :
    ∀ k ∈ x.protectRtcpCalls srtp i plain 64, k.Fits :=
  Peer.protectRtcpCalls_fit.2 fun _ => by omega

theorem length_rewriteRtpHeader (buf : Bytes) (k : Consumer) :
    (rewriteRtpHeader buf k).1.length = buf.length := by
  by_cases hlt : buf.length < 12
  · rw [rewriteRtpHeader_short hlt]
  · obtain ⟨hdr, hp, -⟩ := RtpHeader.exists_parse (by omega : 12 ≤ buf.length)
    rw [rewriteRtpHeader_spec hp]
    exact (rewritesOnly_withSsrc _ (by omega)).length

theorem forwardOneCalls_fit (h : plain.length + 10 ≤ 65536) (r : Router) (srtp : SrtpOracle)
    (c : ConsumerRef) : ∀ k ∈ r.forwardOneCalls srtp plain c, k.Fits := by
  unfold forwardOneCalls
  dsimp only
  split
  · exact List.forall_mem_nil _
  · split
    · exact List.forall_mem_nil _
    · split
      · exact List.forall_mem_nil _
      · split
        · exact List.forall_mem_nil _
        · rw [List.forall_mem_singleton]
          show (rewriteRtpHeader plain (r.heap c)).1.length + 10 ≤ 65536
          rw [length_rewriteRtpHeader]
          exact h

/-- A forwarded packet has lost as many bytes as it gains. -/
theorem forwardCalls_fit (h : plain.length + 10 ≤ 65536) (srtp : SrtpOracle)
    (l : List ConsumerRef) (r : Router) : ∀ k ∈ forwardCalls srtp plain l r, k.Fits := by
  induction l generalizing r with
  | nil => exact List.forall_mem_nil _
  | cons c l ih =>
    rw [forwardCalls, List.forall_mem_append]
    exact ⟨forwardOneCalls_fit h r srtp c, ih _⟩

theorem linkTargetsCalls_fit (r : Router) (srtp : SrtpOracle) (P : PeerRef) (s : UInt32)
    (v : Bool) : ∀ k ∈ r.linkTargetsCalls srtp P s v, k.Fits := by
  unfold linkTargetsCalls
  split
  · exact List.forall_mem_nil _
  · split
    · exact protectRtcpCalls_64 _ srtp 0 (by decide : 12 ≤ 50)
    · exact List.forall_mem_nil _

theorem onRtpPacketCalls_fit (h : plain.length + 10 ≤ 65536) (r : Router) (V : Finset UInt8)
    (srtp : SrtpOracle) (P : PeerRef) : ∀ k ∈ r.onRtpPacketCalls V srtp plain P, k.Fits := by
  unfold onRtpPacketCalls
  split
  · exact List.forall_mem_nil _
  · dsimp only
    rw [List.forall_mem_append]
    exact ⟨linkTargetsCalls_fit r srtp P _ _, forwardCalls_fit h srtp _ _⟩

theorem generateAndSendSRCalls_fit (r : Router) (srtp : SrtpOracle) (c : ConsumerRef)
    (ntp : UInt64) : ∀ k ∈ r.generateAndSendSRCalls srtp c ntp, k.Fits := by
  unfold generateAndSendSRCalls
  split
  · exact List.forall_mem_nil _
  · exact protectRtcpCalls_64 _ srtp 0 (by decide : 28 ≤ 50)

/-- The report `x` of a compound is sent on. -/
structure Relays (r : Router) (x : Bytes × Nat) : Prop where
  report : rtcpIsRR x.1 = true
  length : 8 ≤ x.2
  /-- The consumer found by the sender SSRC has a publisher with keys. -/
  found : ∃ c P, r.findConsumerByOutSsrc (ntohlAt x.1 4) = some c ∧
    (r.heap c).publisher = some P ∧ (r.peers P).srtp.isSome

theorem translateCalls_fit {q : Request} : (∀ k ∈ r.translateCalls srtp i q capacity, k.Fits) ↔
    ∀ c P, r.findConsumerByOutSsrc q.outSsrc = some c → (r.heap c).publisher = some P →
      (r.peers P).srtp.isSome → (q.build (r.heap c)).length + 14 ≤ capacity := by
  unfold translateCalls
  constructor
  · intro h c P hc hP
    simp only [hc, hP] at h
    exact Peer.protectRtcpCalls_fit.1 h
  · intro h
    split
    · exact List.forall_mem_nil _
    · rename_i c hc
      split
      · exact List.forall_mem_nil _
      · rename_i P hP
        exact Peer.protectRtcpCalls_fit.2 (h c P hc hP)

theorem length_rrRequest (hle : len ≤ p.length) (k : Consumer) :
    ((rrRequest p len).build k).length = len := by
  have htake : (p.take len).length = len := List.length_take_of_le hle
  rw [rrRequest_build]
  split
  · rw [(rewritesOnly_withSsrc _ (by omega)).length, htake]
  · exact htake

/-- A report that is sent on fills its buffer. -/
theorem handleRRCalls_fit (hrr : rtcpIsRR p = true) (hle : len ≤ p.length) :
    (∀ k ∈ r.handleRRCalls srtp i p len, k.Fits) ↔ ¬ r.Relays (p, len) := by
  unfold handleRRCalls
  split
  · rename_i hlt
    exact ⟨fun _ h => absurd h.length (by omega), fun _ => List.forall_mem_nil _⟩
  · rename_i hlen
    rw [translateCalls_fit]
    constructor
    · rintro h ⟨-, -, c, P, hc, hP, hkeys⟩
      have hfits := h c P hc hP hkeys
      rw [length_rrRequest hle] at hfits
      omega
    · intro h c P hc hP hkeys
      exact absurd ⟨hrr, by omega, c, P, hc, hP, hkeys⟩ h

theorem handleRtcpCalls_fit (hle : len ≤ p.length) :
    (∀ k ∈ r.handleRtcpCalls srtp i p len, k.Fits) ↔ ¬ r.Relays (p, len) := by
  unfold handleRtcpCalls
  split
  · rename_i hpli
    exact ⟨fun _ h => not_isFeedback (rtcpIsRR_iff.1 h.report).2 (by decide) hpli,
      fun _ => translateCalls_fit.2 fun _ _ _ _ _ => (by decide : 12 + 14 ≤ 64)⟩
  · split
    · rename_i hnack
      exact ⟨fun _ h => not_isFeedback (rtcpIsRR_iff.1 h.report).2 (by decide) hnack,
        fun _ => translateCalls_fit.2 fun _ _ _ _ _ => (by decide : 16 + 14 ≤ 64)⟩
    · split
      · rename_i hrr
        exact handleRRCalls_fit hrr hle
      · rename_i hrr
        exact ⟨fun _ h => hrr h.report, fun _ => List.forall_mem_nil _⟩

theorem onRtcpPacketCalls_fit : (∀ k ∈ r.onRtcpPacketCalls srtp rtcp, k.Fits) ↔
    ∀ x ∈ rtcpWalk rtcp.length rtcp, ¬ r.Relays x := by
  have hle : ∀ x ∈ rtcpWalk rtcp.length rtcp, x.2 ≤ x.1.length := fun x hx => by
    rw [rtcpWalk_eq] at hx
    exact (Framing.bounds_of_mem_visits hx).2
  unfold onRtcpPacketCalls
  rw [List.forall_mem_flatMap]
  constructor
  · intro h x hx
    obtain ⟨i, hi⟩ := List.mem_iff_getElem?.1 hx
    exact (handleRtcpCalls_fit (hle x hx)).1 (h (x, i) (List.mk_mem_zipIdx_iff_getElem?.2 hi))
  · intro h x hx
    have hmem := List.fst_mem_of_mem_zipIdx hx
    exact (handleRtcpCalls_fit (hle x.1 hmem)).2 (h x.1 hmem)

end Router

namespace MediaServer

open Runs (exec)

variable {s : MediaServer} {data : Bytes} {ep : Endpoint} {env : PacketEnv}

theorem sendPLItoAllPeersCalls_fit (r : Router) (srtp : SrtpOracle) (newPeer : PeerRef) :
    ∀ k ∈ sendPLItoAllPeersCalls r srtp newPeer, k.Fits := by
  unfold sendPLItoAllPeersCalls
  rw [List.forall_mem_flatMap]
  intro x _
  split
  · exact List.forall_mem_nil _
  · exact Router.protectRtcpCalls_64 _ srtp x.2 (by decide : 12 ≤ 50)

theorem handleDtlsCalls_fit (s : MediaServer) (ep : Endpoint) (env : PacketEnv) :
    ∀ k ∈ s.handleDtlsCalls ep env, k.Fits := by
  unfold handleDtlsCalls
  dsimp only
  split
  · split
    · exact List.forall_mem_nil _
    · exact sendPLItoAllPeersCalls_fit _ env.srtp _
  · exact List.forall_mem_nil _

/-- What `unprotect` and `unprotectRtcp` remove is what `protect` and `protectRtcp` append. -/
structure Removes (env : PacketEnv) : Prop where
  unprotect : ∀ ctx data plain, env.unprotect ctx data = some plain →
    plain.length + 10 = data.length
  unprotectRtcp : ∀ ctx data plain, env.unprotectRtcp ctx data = some plain →
    plain.length + 14 = data.length

/-- The compound that the datagram decrypts to, if it is not RTP. -/
def decryptedRtcp (s : MediaServer) (data : Bytes) (ep : Endpoint) (env : PacketEnv) :
    Option Bytes :=
  let got := s.getOrCreatePeer ep env.pick
  if protocol data = some .srtp then
    (got.1.router.peers got.2).srtp.bind fun ctx =>
      if (env.unprotect ctx data).isSome then none else env.unprotectRtcp ctx data
  else none

/-- No receiver report of the datagram is sent on. -/
def RelaysNone (s : MediaServer) (data : Bytes) (ep : Endpoint) (env : PacketEnv) : Prop :=
  ∀ rtcp ∈ s.decryptedRtcp data ep env, ∀ x ∈ Router.rtcpWalk rtcp.length rtcp,
    ¬ (s.getOrCreatePeer ep env.pick).1.router.Relays x

theorem relaysNone_of_none (h : s.decryptedRtcp data ep env = none) :
    s.RelaysNone data ep env := by
  intro rtcp hrtcp
  rw [h] at hrtcp
  cases hrtcp

theorem decryptedRtcp_of_ne (h : protocol data ≠ some .srtp) :
    s.decryptedRtcp data ep env = none := if_neg h

theorem handleSrtpCalls_fit (hproto : protocol data = some .srtp) (hdata : data.length ≤ 65536)
    (henv : Removes env) :
    (∀ k ∈ s.handleSrtpCalls data ep env, k.Fits) ↔ s.RelaysNone data ep env := by
  have hrtcp : s.decryptedRtcp data ep env = _ := if_pos hproto
  unfold handleSrtpCalls
  dsimp only
  cases hctx : ((s.getOrCreatePeer ep env.pick).1.router.peers
      (s.getOrCreatePeer ep env.pick).2).srtp with
  | none =>
    rw [hctx] at hrtcp
    exact ⟨fun _ => relaysNone_of_none hrtcp, fun _ => List.forall_mem_nil _⟩
  | some ctx =>
    rw [hctx, Option.bind_some] at hrtcp
    dsimp only
    cases hplain : env.unprotect ctx data with
    | some plain =>
      rw [hplain] at hrtcp
      have hlen := henv.unprotect ctx data plain hplain
      exact ⟨fun _ => relaysNone_of_none hrtcp,
        fun _ => Router.onRtpPacketCalls_fit (by omega) _ _ _ _⟩
    | none =>
      rw [hplain, if_neg (by decide)] at hrtcp
      dsimp only
      cases hplain : env.unprotectRtcp ctx data with
      | none =>
        rw [hplain] at hrtcp
        exact ⟨fun _ => relaysNone_of_none hrtcp, fun _ => List.forall_mem_nil _⟩
      | some plain =>
        rw [hplain] at hrtcp
        dsimp only
        rw [Router.onRtcpPacketCalls_fit, RelaysNone, hrtcp]
        constructor
        · intro h rtcp hmem
          obtain rfl := Option.some.inj hmem
          exact h
        · intro h
          exact h plain rfl

theorem protectCalls_fit (hdata : data.length ≤ 65536) (henv : Removes env) :
    (∀ k ∈ s.protectCalls data ep env, k.Fits) ↔ s.RelaysNone data ep env := by
  unfold protectCalls
  cases hproto : protocol data with
  | none =>
    exact ⟨fun _ => relaysNone_of_none (decryptedRtcp_of_ne (by rw [hproto]; decide)),
      fun _ => List.forall_mem_nil _⟩
  | some proto =>
    cases proto with
    | stun =>
      exact ⟨fun _ => relaysNone_of_none (decryptedRtcp_of_ne (by rw [hproto]; decide)),
        fun _ => List.forall_mem_nil _⟩
    | dtls =>
      exact ⟨fun _ => relaysNone_of_none (decryptedRtcp_of_ne (by rw [hproto]; decide)),
        fun _ => handleDtlsCalls_fit s ep env⟩
    | srtp => exact handleSrtpCalls_fit hproto hdata henv

/-- **The encrypted packet stays inside the buffer**, in every call that a datagram causes in a
reachable state and in every call of `generateAndSendSR`, if and only if the datagram has no
receiver report that is sent on. -/
theorem calls_fit_iff (ops : List ServerOp) (data : Bytes) (ep : Endpoint) (env : PacketEnv)
    (hdata : data.length ≤ 65536) (henv : Removes env) :
    ((∀ k ∈ (exec step {} ops).protectCalls data ep env, k.Fits) ∧
      ∀ srtp c ntp, ∀ k ∈ (exec step {} ops).router.generateAndSendSRCalls srtp c ntp, k.Fits) ↔
      (exec step {} ops).RelaysNone data ep env := by
  rw [protectCalls_fit hdata henv]
  exact and_iff_left fun srtp c ntp => Router.generateAndSendSRCalls_fit _ srtp c ntp

/-! ## A report that is sent on -/

/-- Encrypting appends zeros and decrypting drops them; RTCP is what starts with a type from 200 on.
The handshake is done with the first record. -/
def paddingEnv : PacketEnv where
  pick := 0
  srtp := ⟨fun _ _ plain => some (plain ++ List.replicate 10 0),
    fun _ _ plain => some (plain ++ List.replicate 14 0)⟩
  unprotect _ data :=
    if 10 ≤ data.length ∧ data.getD 1 0 < 200 then some (data.take (data.length - 10)) else none
  unprotectRtcp _ data :=
    if 14 ≤ data.length ∧ 200 ≤ data.getD 1 0 then some (data.take (data.length - 14)) else none
  ice := []
  handshakeDone := true
  handshakeOut := []
  exportSrtpKeys := List.replicate 60 0
  srtpCreate := true

theorem removes_paddingEnv : Removes paddingEnv := by
  constructor
  · intro ctx data plain h
    simp only [paddingEnv] at h
    split at h
    · rename_i hlong
      rw [← Option.some.inj h, List.length_take]
      omega
    · cases h
  · intro ctx data plain h
    simp only [paddingEnv] at h
    split at h
    · rename_i hlong
      rw [← Option.some.inj h, List.length_take]
      omega
    · cases h

/-- Clients a and b join and take their keys; a subscribes to the audio of b. -/
def subscribed : List ServerOp :=
  [.addPeer {} "a", .packet [22] ⟨0, 1⟩ paddingEnv, .addPeer {} "b",
    .packet [22] ⟨0, 2⟩ paddingEnv, .addConsumer "a" "b" false default]

/-- A receiver report of eight bytes, encrypted. -/
def emptyReport : Bytes := [0x80, 201, 0, 1, 0x40, 0, 0, 0] ++ List.replicate 14 0

/-- A PLI of a, encrypted. -/
def encryptedPli : Bytes :=
  [0x81, 206, 0, 2, 0, 0, 0, 0, 0x40, 0, 0, 0] ++ List.replicate 14 0

theorem calls_fit_iff_pli :
    ((∀ k ∈ (exec step {} subscribed).protectCalls encryptedPli ⟨0, 1⟩ paddingEnv, k.Fits) ∧
      ∀ srtp c ntp,
        ∀ k ∈ (exec step {} subscribed).router.generateAndSendSRCalls srtp c ntp, k.Fits) ↔
      (exec step {} subscribed).RelaysNone encryptedPli ⟨0, 1⟩ paddingEnv :=
  calls_fit_iff subscribed encryptedPli ⟨0, 1⟩ paddingEnv (by decide) removes_paddingEnv

/-- It is copied into a buffer of eight bytes and encrypted there. -/
theorem emptyReport_overflows : ¬ ∀ ops data ep env, data.length ≤ 65536 → Removes env →
    ∀ k ∈ (exec step {} ops).protectCalls data ep env, k.Fits := by
  intro h
  have hcall : (exec step {} subscribed).protectCalls emptyReport ⟨0, 1⟩ paddingEnv =
      [⟨.rtcp, ⟨0, 2⟩, [0x80, 201, 0, 1, 0x40, 0, 0, 0], 8, some emptyReport⟩] := by decide
  have hfits := h subscribed emptyReport ⟨0, 1⟩ paddingEnv (by decide) removes_paddingEnv
  rw [hcall, List.forall_mem_singleton] at hfits
  exact absurd hfits (by decide)

end MediaServer

end Namecon
