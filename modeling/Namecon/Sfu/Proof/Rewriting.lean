import Namecon.Lib.Runs
import Namecon.Sfu.Proof.Forward
import Namecon.Sfu.Rtcp

/-!
# Rewriting over a history of packets

`rewriteRtpHeader` keeps the last sequence number and timestamp it sent, and the offsets between the
original and the outgoing ones. The outgoing number is the last one plus the difference to it, so it
is the original one and the offsets stay 0, in whatever order packets come and whether or not the
numbers wrap: `rewriting_run`.
-/

namespace Namecon.Router

open Runs (exec)

variable {k : Consumer} {buf : Bytes} {hdr : RtpHeader} {ssrc : UInt32}

/-- A value of `int32_t`. -/
def InInt32 (v : Int) : Prop := -2147483648 ≤ v ∧ v < 2147483648

/-- The consumer has not forwarded a packet yet. -/
structure Unstarted (k : Consumer) : Prop where
  seqInitialized : k.seqInitialized = false
  lastSentSeq : k.lastSentSeq = 0
  lastSentTimestamp : k.lastSentTimestamp = 0
  seqDelta : k.seqDelta = 0
  tsDelta : k.tsDelta = 0

/-- The consumer after `buf` was given to `rewriteRtpHeader`. -/
def rewriteStep (k : Consumer) (buf : Bytes) : Consumer := (rewriteRtpHeader buf k).2

/-- `out` is `buf` with the SSRC, bytes 8 to 11, set to `ssrc`. -/
structure RewritesOnly (ssrc : UInt32) (buf out : Bytes) : Prop where
  length : out.length = buf.length
  outside : ∀ i, i < 8 ∨ 12 ≤ i → out[i]? = buf[i]?
  field : (out.drop 8).take 4 = htonl ssrc
  header : ∀ hdr, RtpHeader.parse buf = some hdr → RtpHeader.parse out = some { hdr with ssrc }

theorem rewritesOnly_withSsrc (ssrc : UInt32) (h : 12 ≤ buf.length) :
    RewritesOnly ssrc buf (withSsrc buf ssrc) := by
  obtain ⟨b0, b1, q0, q1, t0, t1, t2, t3, s0, s1, s2, s3, rest, rfl⟩ := exists_of_length_le h
  refine ⟨rfl, fun i hi => ?_, rfl, fun hdr hp => ?_⟩
  · match i, hi with
    | 0, _ | 1, _ | 2, _ | 3, _ | 4, _ | 5, _ | 6, _ | 7, _ => rfl
    | i + 12, _ => rfl
    | 8, hi | 9, hi | 10, hi | 11, hi => omega
  · obtain rfl := Option.some.inj hp
    have hssrc := ntohl_htonl ssrc
    change some _ = some _
    rw [Option.some.injEq, RtpHeader.mk.injEq]
    exact ⟨rfl, rfl, rfl, rfl, rfl, rfl, rfl, rfl, hssrc⟩

/-! ## The state -/

theorem rewriteRtpHeader_short (h : buf.length < 12) (k : Consumer) :
    rewriteRtpHeader buf k = (buf, k) := by
  have hnone : RtpHeader.parse buf = none := by
    cases hp : RtpHeader.parse buf with
    | none => rfl
    | some hdr =>
      have hle := RtpHeader.parse_isSome.1 (by rw [hp]; rfl : (RtpHeader.parse buf).isSome)
      omega
  unfold rewriteRtpHeader
  rw [hnone]

/-- What every call preserves. -/
structure Unshifted (ssrc : UInt32) (k : Consumer) : Prop where
  rewrittenSsrc : k.rewrittenSsrc = ssrc
  seqDelta : k.seqDelta = 0
  tsDelta : k.tsDelta = 0

theorem Unshifted.step (h : Unshifted ssrc k) (buf : Bytes) :
    Unshifted ssrc (rewriteStep k buf) := by
  unfold rewriteStep
  rcases Nat.lt_or_ge buf.length 12 with hlt | hge
  · rw [rewriteRtpHeader_short hlt]
    exact h
  · obtain ⟨hdr, hp, -⟩ := RtpHeader.exists_parse hge
    rw [rewriteRtpHeader_spec hp]
    exact ⟨h.rewrittenSsrc, rfl, rfl⟩

theorem Unshifted.exec (h : Unshifted ssrc k) (bufs : List Bytes) :
    Unshifted ssrc (exec rewriteStep k bufs) :=
  Runs.exec_inv' (I := Unshifted ssrc) (fun _ buf h => h.step buf) bufs h

/-! ## One call -/

/-- The sequence number a NACK is translated to. -/
theorem nack_origPid (p : Bytes) (k : Consumer) :
    ntohsAt ((nackRequest p).build k) 12 = ntohsAt p 12 - UInt16.ofInt k.seqDelta :=
  ntohs_htons _

/-- The call of `rewriteRtpHeader` for `buf` in the state `before`, and what becomes of a NACK that
the subscriber sends for the packet after any calls that follow. -/
structure RewritesOne (ssrc : UInt32) (before : Consumer) (buf : Bytes) : Prop where
  short : buf.length < 12 → rewriteRtpHeader buf before = (buf, before)
  long : 12 ≤ buf.length → RewritesOnly ssrc buf (rewriteRtpHeader buf before).1
  seqDelta : (rewriteStep before buf).seqDelta = 0
  tsDelta : (rewriteStep before buf).tsDelta = 0
  /-- The two signed subtractions of the call. -/
  subtractions : ∀ hdr, RtpHeader.parse buf = some hdr →
    InInt32 ((before.lastSentSeq + (hdr.sequenceNumber - before.lastSentSeq)).toNat -
      hdr.sequenceNumber.toNat) ∧
    InInt32 (toInt32 (before.lastSentTimestamp + (hdr.timestamp - before.lastSentTimestamp)) -
      toInt32 hdr.timestamp)
  nack : ∀ hdr out, RtpHeader.parse buf = some hdr →
    RtpHeader.parse (rewriteRtpHeader buf before).1 = some out →
      ∀ later p, ntohsAt p 12 = out.sequenceNumber →
        ntohsAt ((nackRequest p).build (exec rewriteStep (rewriteStep before buf) later)) 12 =
          hdr.sequenceNumber

/-- **Rewriting is SSRC-only, and the translation of NACKs inverts it**, after any history of
packets. -/
theorem rewriting_run (hk : Unstarted k) (sent : List Bytes) (buf : Bytes) :
    RewritesOne k.rewrittenSsrc (exec rewriteStep k sent) buf := by
  have hstart : Unshifted k.rewrittenSsrc k := ⟨rfl, hk.seqDelta, hk.tsDelta⟩
  have hbefore := hstart.exec sent
  generalize exec rewriteStep k sent = before at hbefore
  have hafter := hbefore.step buf
  have hlong : 12 ≤ buf.length →
      RewritesOnly k.rewrittenSsrc buf (rewriteRtpHeader buf before).1 := fun hge => by
    obtain ⟨hdr, hp, -⟩ := RtpHeader.exists_parse hge
    rw [rewriteRtpHeader_spec hp, hbefore.rewrittenSsrc]
    exact rewritesOnly_withSsrc k.rewrittenSsrc hge
  refine ⟨fun hlt => rewriteRtpHeader_short hlt before, hlong, hafter.seqDelta, hafter.tsDelta,
    fun hdr _ => ?_, fun hdr out hp hout later p hpid => ?_⟩
  · have hseq : before.lastSentSeq + (hdr.sequenceNumber - before.lastSentSeq) =
        hdr.sequenceNumber := by
      rw [UInt16.add_comm, UInt16.sub_add_cancel]
    have hts : before.lastSentTimestamp + (hdr.timestamp - before.lastSentTimestamp) =
        hdr.timestamp := by
      rw [UInt32.add_comm, UInt32.sub_add_cancel]
    rw [hseq, hts, Int.sub_self, Int.sub_self]
    exact ⟨by unfold InInt32; omega, by unfold InInt32; omega⟩
  · have hheader := (hlong (RtpHeader.parse_isSome.1 (by rw [hp]; rfl))).header hdr hp
    obtain rfl := Option.some.inj (hheader.symm.trans hout)
    have hzero : UInt16.ofInt 0 = 0 := by decide
    rw [nack_origPid, hpid, (hafter.exec later).seqDelta, hzero, UInt16.sub_zero]

/-- Numbers that wrap, and a packet that comes late. -/
theorem rewriting_run_wrap : RewritesOne 5
    (exec rewriteStep { rewrittenSsrc := 5 }
      [[0x80, 111, 0xFF, 0xFF, 0x7F, 0xFF, 0xFF, 0xFF, 0, 0, 0, 7],
        [0x80, 111, 0, 0, 0x80, 0, 0, 0, 0, 0, 0, 7]])
    [0x80, 111, 0xFF, 0xFE, 0x7F, 0, 0, 0, 0, 0, 0, 7] :=
  rewriting_run (k := { rewrittenSsrc := 5 }) ⟨rfl, rfl, rfl, rfl, rfl⟩ _ _

/-! ## The consumers of the router -/

theorem seqDelta_forwardOne {r : Router} {o : SrtpOracle} (hp : RtpHeader.parse buf = some hdr)
    (h : ∀ c, (r.heap c).seqDelta = 0) (c : ConsumerRef) :
    ∀ c', ((r.forwardOne o buf c).1.heap c').seqDelta = 0 := by
  intro c'
  by_cases hc : c' = c
  · subst hc
    rcases forwardOne_cases r c' with ⟨S, ctx, hr⟩ | hno
    · rw [forwardOne_receives hr hp]
      split
      · rw [modifyConsumer_self]
        rfl
      · rw [modifyConsumer_self]
        rfl
    · rw [forwardOne_skip hno]
      exact h c'
  · rw [forwardOne_heap_ne hp r hc]
    exact h c'

theorem seqDelta_forward {o : SrtpOracle} (hp : RtpHeader.parse buf = some hdr)
    (l : List ConsumerRef) (r : Router) (h : ∀ c, (r.heap c).seqDelta = 0) :
    ∀ c, ((forward o buf l r).1.heap c).seqDelta = 0 := by
  induction l generalizing r with
  | nil => exact h
  | cons c l ih => exact ih _ (seqDelta_forwardOne hp h c)

theorem seqDelta_step {r : Router} (h : ∀ c, (r.heap c).seqDelta = 0) (op : RouterOp) :
    ∀ c, ((r.step op).heap c).seqDelta = 0 := by
  intro c
  cases op with
  | addConsumer S P v d =>
    simp only [step]
    rw [addConsumer_heap]
    by_cases hc : c = r.nextConsumer
    · rw [hc, Function.update_self]
      rfl
    · rw [Function.update_of_ne hc]
      exact h c
  | removePeer X =>
    simp only [step]
    rw [removePeer_heap, heapAfter]
    split
    · exact h c
    · exact h c
  | bindConsumerByMid S pid v mid =>
    simp only [step]
    unfold bindConsumerByMid
    split
    · exact h c
    · rename_i c' _
      by_cases hc : c = c'
      · rw [hc, modifyConsumer_self]
        exact h c'
      · rw [modifyConsumer_ne _ _ _ hc]
        exact h c
  | onRtpPacket V o buf P =>
    simp only [step]
    cases hp : RtpHeader.parse buf with
    | none => rw [onRtpPacket_short hp]; exact h c
    | some hdr =>
      rw [onRtpPacket_parse hp]
      refine seqDelta_forward hp _ _ (fun c => ?_) c
      cases hf : r.findProducer P hdr.ssrc with
      | some p => rw [linkTargets_known hf]; exact h c
      | none =>
        rw [linkTargets_new hf]
        exact (createProducer_field (o := o) Consumer.seqDelta (fun _ => rfl) c).trans (h c)
  | setTransport p ep d x => exact h c

/-- The outgoing sequence numbers are the original ones in every reachable state. -/
theorem seqDelta_exec (ids : PeerRef → String) (ops : List RouterOp) :
    ∀ c, ((exec step (start ids) ops).heap c).seqDelta = 0 :=
  Runs.exec_inv' (I := fun r : Router => ∀ c, (r.heap c).seqDelta = 0)
    (fun _ op h => seqDelta_step h op) ops fun _ => rfl

end Namecon.Router
