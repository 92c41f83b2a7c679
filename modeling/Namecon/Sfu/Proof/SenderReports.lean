import Namecon.Rtcp.Proof.RoundTrip
import Namecon.Sfu.Proof.Relay
import Namecon.Sfu.Proof.Rewriting
import Namecon.Sfu.SenderReports

/-!
# Sender reports are exact

`Counted`: along a run whose `addConsumer`s draw different SSRCs, the counters of a consumer are the
number and the bytes of the RTP datagrams sent so far with its SSRC, modulo 2^32. So the report that
`generateAndSendSR` sends tells the subscriber what the socket saw, and the time of the report to
the nanosecond (`sender_report_exact`).
-/

namespace Namecon

open Runs (exec outputs)

/-- The SSRC that an operation draws. -/
def RouterOp.drawn : RouterOp → Option UInt32
  | .addConsumer _ _ _ d => some (Router.allocateSsrc d)
  | _ => none

namespace Router

variable {r : Router} {S P X : PeerRef} {v : Bool} {d : SsrcDraw} {o : SrtpOracle}
  {buf : Bytes} {c : ConsumerRef} {log : List Datagram} {drawn : List UInt32}

/-- The datagrams of `log` with the SSRC `ssrc`. -/
def sentAs (ssrc : UInt32) (log : List Datagram) : List Datagram :=
  log.filter (ntohlAt ·.plain 8 = ssrc)

/-- The number of bytes of `log` before protection. -/
def octets (log : List Datagram) : Nat := (log.flatMap (·.plain)).length

/-- The counters of `k` are those of what was sent to it. -/
structure Counts (k : Consumer) (sent : List Datagram) : Prop where
  packetsSent : k.packetsSent = UInt32.ofNat sent.length
  octetsSent : k.octetsSent = UInt32.ofNat (octets sent)

/-- The consumers have SSRCs of their own, of those drawn so far, and their counters are right. -/
structure Counted (r : Router) (log : List Datagram) (drawn : List UInt32) : Prop where
  linked : r.Linked
  distinct : ∀ c c', r.Owned c → r.Owned c' →
    (r.heap c).rewrittenSsrc = (r.heap c').rewrittenSsrc → c = c'
  draws : ∀ c, r.Owned c → (r.heap c).rewrittenSsrc ∈ drawn
  logged : ∀ d ∈ log, ntohlAt d.plain 8 ∈ drawn
  counts : ∀ c, r.Owned c → Counts (r.heap c) (sentAs (r.heap c).rewrittenSsrc log)

theorem sentAs_append (ssrc : UInt32) (log log' : List Datagram) :
    sentAs ssrc (log ++ log') = sentAs ssrc log ++ sentAs ssrc log' := List.filter_append ..

theorem sentAs_of_not_mem {ssrc : UInt32} (hlog : ∀ d ∈ log, ntohlAt d.plain 8 ∈ drawn)
    (hs : ssrc ∉ drawn) : sentAs ssrc log = [] :=
  List.filter_eq_nil_iff.2 fun d hd he => hs (of_decide_eq_true he ▸ hlog d hd)

/-- A packet more. -/
theorem Counts.snoc {k : Consumer} {sent : List Datagram} (h : Counts k sent) (d : Datagram) :
    Counts (countSent d.plain.length k) (sent ++ [d]) where
  packetsSent := by
    rw [List.length_append, UInt32.ofNat_add, ← h.packetsSent]
    rfl
  octetsSent := by
    unfold octets
    rw [List.flatMap_append, List.length_append, UInt32.ofNat_add, ← octets, ← h.octetsSent]
    simp [countSent]

/-! ## The steps -/

theorem counted_start (ids : PeerRef → String) : Counted (start ids) [] [] where
  linked := linked_start ids
  distinct _ _ hc := by obtain ⟨_, hc⟩ := hc; cases hc
  draws _ hc := by obtain ⟨_, hc⟩ := hc; cases hc
  logged _ hd := by cases hd
  counts _ hc := by obtain ⟨_, hc⟩ := hc; cases hc

theorem Counted.addConsumer (h : Counted r log drawn) (hd : d.val ∉ drawn) :
    Counted (r.addConsumer S P v d).1 log (drawn ++ [d.val]) := by
  have hold : ∀ c, r.Owned c → (r.addConsumer S P v d).1.heap c = r.heap c :=
    fun c hc => addConsumer_heap_old (h.linked.wf.fresh c hc)
  have hssrc : ((r.addConsumer S P v d).1.heap r.nextConsumer).rewrittenSsrc = d.val := by
    rw [addConsumer_heap_new]
    rfl
  refine ⟨@Linked.step _ h.linked (.addConsumer S P v d) trivial, ?_, ?_, ?_, ?_⟩
  · intro c c' hc hc' he
    rcases owned_addConsumer.1 hc with hc | rfl <;>
      rcases owned_addConsumer.1 hc' with hc' | rfl
    · rw [hold c hc, hold c' hc'] at he
      exact h.distinct c c' hc hc' he
    · rw [hold c hc, hssrc] at he
      exact absurd (he ▸ h.draws c hc) hd
    · rw [hold c' hc', hssrc] at he
      exact absurd (he ▸ h.draws c' hc') hd
    · rfl
  · intro c hc
    rcases owned_addConsumer.1 hc with hc | rfl
    · rw [hold c hc]
      exact List.mem_append_left _ (h.draws c hc)
    · rw [hssrc]
      exact List.mem_append_right _ (List.mem_singleton.2 rfl)
  · exact fun x hx => List.mem_append_left _ (h.logged x hx)
  · intro c hc
    rcases owned_addConsumer.1 hc with hc | rfl
    · rw [hold c hc]
      exact h.counts c hc
    · -- nothing has been sent under the new SSRC
      rw [hssrc, sentAs_of_not_mem h.logged hd, addConsumer_heap_new]
      exact ⟨rfl, rfl⟩

/-- What leaves SSRCs and counters alone and makes no consumer keeps the counts. -/
theorem Counted.frame (h : Counted r log drawn) {r' : Router} (hl : r'.Linked)
    (hown : ∀ c, r'.Owned c → r.Owned c)
    (hssrc : ∀ c, (r'.heap c).rewrittenSsrc = (r.heap c).rewrittenSsrc)
    (hpackets : ∀ c, (r'.heap c).packetsSent = (r.heap c).packetsSent)
    (hoctets : ∀ c, (r'.heap c).octetsSent = (r.heap c).octetsSent) :
    Counted r' log drawn where
  linked := hl
  distinct c c' hc hc' he := by
    rw [hssrc, hssrc] at he
    exact h.distinct c c' (hown c hc) (hown c' hc') he
  draws c hc := hssrc c ▸ h.draws c (hown c hc)
  logged := h.logged
  counts c hc := by
    have hk := h.counts c (hown c hc)
    rw [hssrc]
    exact ⟨(hpackets c).trans hk.packetsSent, (hoctets c).trans hk.octetsSent⟩

theorem ntohlAt_withSsrc (h : 12 ≤ buf.length) (ssrc : UInt32) :
    ntohlAt (withSsrc buf ssrc) 8 = ssrc := by
  obtain ⟨b0, b1, q0, q1, t0, t1, t2, t3, s0, s1, s2, s3, rest, rfl⟩ := exists_of_length_le h
  exact ntohl_htonl ssrc

theorem length_withSsrc (h : 12 ≤ buf.length) (ssrc : UInt32) :
    (withSsrc buf ssrc).length = buf.length := (rewritesOnly_withSsrc ssrc h).length

section
variable {hdr : RtpHeader} {sent : List (ConsumerRef × Datagram)}

/-- The datagrams of a packet with the SSRC of `c` are those for `c`. -/
theorem sentAs_datagrams (h : Counted r log drawn) (hlen : 12 ≤ buf.length)
    (hmem : ∀ c d, (c, d) ∈ sent → ∃ S ctx data, r.Recipient o buf P hdr.ssrc v c S ctx data ∧
      d = r.delivery buf c S data) (hc : r.Owned c) :
    sentAs (r.heap c).rewrittenSsrc (sent.map Prod.snd) =
      (sent.filter fun x => x.1 = c).map Prod.snd := by
  unfold sentAs
  rw [List.filter_map]
  refine congrArg _ (List.filter_congr fun x hx => ?_)
  obtain ⟨S, ctx, data, hr, hd⟩ := hmem x.1 x.2 hx
  have hssrc : ntohlAt x.2.plain 8 = (r.heap x.1).rewrittenSsrc := by
    rw [hd]
    exact ntohlAt_withSsrc hlen _
  rw [Function.comp_apply, hssrc, decide_eq_decide]
  exact ⟨h.distinct x.1 c ⟨S, hr.owned⟩ hc, fun he => he ▸ rfl⟩

theorem Counted.onRtpPacket (h : Counted r log drawn) {V : Finset UInt8}
    (hzero : ∀ hdr ∈ RtpHeader.parse buf, hdr.ssrc ≠ 0) :
    Counted (r.onRtpPacket V o buf P).1 (log ++ r.media (.onRtpPacket V o buf P)) drawn := by
  have hlinked : (r.onRtpPacket V o buf P).1.Linked :=
    @Linked.step _ h.linked (.onRtpPacket V o buf P) hzero
  cases hp : RtpHeader.parse buf with
  | none =>
    simp only [media, onRtpPacket_short hp, List.filter_nil, List.append_nil]
    exact h
  | some hdr =>
    have hlen : 12 ≤ buf.length := RtpHeader.parse_isSome.1 (by rw [hp]; rfl)
    have hsub := sameSubscribers_onRtpPacket (o := o) (P := P) h.linked.wf V buf
    have hexact := h.linked.forwardsExactly (o := o) (P := P) hp (hzero hdr hp) V
    obtain ⟨sent, hn, hout, hmem⟩ := hexact.datagrams
    have hmedia : r.media (.onRtpPacket V o buf P) = sent.map Prod.snd := hout
    refine ⟨hlinked, ?_, ?_, ?_, ?_⟩
    · intro c c' hc hc' he
      rw [hsub.rewrittenSsrc, hsub.rewrittenSsrc] at he
      exact h.distinct c c' (hsub.owned.1 hc) (hsub.owned.1 hc') he
    · intro c hc
      rw [hsub.rewrittenSsrc]
      exact h.draws c (hsub.owned.1 hc)
    · intro d hd
      rcases List.mem_append.1 hd with hd | hd
      · exact h.logged d hd
      · rw [hmedia] at hd
        obtain ⟨x, hx, rfl⟩ := List.mem_map.1 hd
        obtain ⟨S, ctx, data, hr, hdel⟩ := (hmem x.1 x.2).1 hx
        rw [hdel]
        exact ntohlAt_withSsrc hlen _ ▸ h.draws x.1 ⟨S, hr.owned⟩
    · intro c hc
      have hc := hsub.owned.1 hc
      rw [hsub.rewrittenSsrc, sentAs_append, hmedia,
        sentAs_datagrams h hlen (fun c d => (hmem c d).1) hc]
      by_cases hr : ∃ S ctx data, r.Recipient o buf P hdr.ssrc (hdr.payloadType ∈ V) c S ctx data
      · obtain ⟨S, ctx, data, hr⟩ := hr
        have hx := (hmem c (r.delivery buf c S data)).2 ⟨S, ctx, data, hr, rfl⟩
        rw [ListFacts.filter_key_eq_singleton (x := (c, r.delivery buf c S data)) hn hx,
          hexact.recipient c S ctx data hr]
        have hk := h.counts c hc
        have hsnoc := Counts.snoc (k := rewritten hdr (linkedTo
          (r.ssrcAfterLinking P hdr.ssrc (hdr.payloadType ∈ V) c) (r.heap c)))
          ⟨hk.packetsSent, hk.octetsSent⟩ (r.delivery buf c S data)
        rw [delivery, length_withSsrc hlen] at hsnoc
        exact hsnoc
      · have hnone : sent.filter (fun x => x.1 = c) = [] := by
          refine List.filter_eq_nil_iff.2 fun x hx he => hr ?_
          obtain ⟨S, ctx, data, hrec, -⟩ := (hmem x.1 x.2).1 hx
          exact ⟨S, ctx, data, of_decide_eq_true he ▸ hrec⟩
        rw [hnone, List.map_nil, List.append_nil]
        have hk := h.counts c hc
        by_cases he : ∃ S ctx, r.Eligible P hdr.ssrc (hdr.payloadType ∈ V) c S ctx
        · -- `protect` failed
          obtain ⟨S, ctx, he⟩ := he
          cases hdata : o.protect c ctx (withSsrc buf (r.heap c).rewrittenSsrc) with
          | none =>
            rw [hexact.failed c S ctx he hdata]
            exact ⟨hk.packetsSent, hk.octetsSent⟩
          | some data => exact absurd ⟨S, ctx, data, he, hdata⟩ hr
        · rw [hexact.other c hc fun S ctx hel => he ⟨S, ctx, hel⟩]
          exact ⟨hk.packetsSent, hk.octetsSent⟩

end

/-! ## Runs -/

/-- What a run may assume of the packets and the draws. -/
structure Distinct (ops : List RouterOp) : Prop where
  noZero : ∀ op ∈ ops, op.NoZeroPacket
  drawn : (ops.filterMap RouterOp.drawn).Nodup

instance (ops : List RouterOp) : Decidable (Distinct ops) :=
  decidable_of_iff ((∀ op ∈ ops, op.NoZeroPacket) ∧ (ops.filterMap RouterOp.drawn).Nodup)
    ⟨fun h => ⟨h.1, h.2⟩, fun h => ⟨h.1, h.2⟩⟩

theorem Counted.step (h : Counted r log drawn) {op : RouterOp} (hzero : op.NoZeroPacket)
    (hd : ∀ ssrc ∈ op.drawn, ssrc ∉ drawn) :
    Counted (r.step op) (log ++ r.media op) (drawn ++ op.drawn.toList) := by
  cases op with
  | addConsumer S P v d =>
    change Counted _ (log ++ []) (drawn ++ [d.val])
    rw [List.append_nil]
    exact h.addConsumer (hd d.val rfl)
  | removePeer X =>
    change Counted (r.removePeer X) (log ++ []) (drawn ++ [])
    rw [List.append_nil, List.append_nil]
    have hkept : ∀ c, (r.removePeer X).heap c = r.heap c ∨
        (r.removePeer X).heap c = { r.heap c with publisher := none, active := false } := by
      intro c
      rw [removePeer_heap, heapAfter]
      split
      · exact .inr rfl
      · exact .inl rfl
    refine h.frame (@Linked.step _ h.linked (.removePeer X) trivial)
      (fun c hc => ((owned_removePeer h.linked.wf).1 hc).1) (fun c => ?_) (fun c => ?_) fun c => ?_
    all_goals rcases hkept c with hk | hk <;> rw [hk]
  | bindConsumerByMid S pid v mid =>
    change Counted (r.bindConsumerByMid S pid v mid).1 (log ++ []) (drawn ++ [])
    rw [List.append_nil, List.append_nil]
    have hheap := @heap_bind r S ⟨mid, pid, v⟩
    refine h.frame (@Linked.step _ h.linked (.bindConsumerByMid S pid v mid) trivial)
      (fun c => ((sameLinks_bind r S pid v mid).owned c).1) (fun c => ?_) (fun c => ?_) fun c => ?_
    all_goals exact hheap c ▸ rfl
  | onRtpPacket V o buf P =>
    change Counted _ _ (drawn ++ [])
    rw [List.append_nil]
    exact h.onRtpPacket hzero
  | setTransport X ep dtls srtp =>
    change Counted (r.setTransport X ep dtls srtp) (log ++ []) (drawn ++ [])
    rw [List.append_nil, List.append_nil]
    exact h.frame (@Linked.step _ h.linked (.setTransport X ep dtls srtp) trivial)
      (fun c => ((sameLinks_setTransport r X ep dtls srtp).owned c).1) (fun _ => rfl)
      (fun _ => rfl) fun _ => rfl

theorem counted_exec (ids : PeerRef → String) {ops : List RouterOp} (hops : Distinct ops) :
    Counted (exec step (start ids) ops) (outputs step media (start ids) ops)
      (ops.filterMap RouterOp.drawn) := by
  refine Runs.exec_outputs_inv
    (I := fun r log l => Counted r log (l.filterMap RouterOp.drawn)) (P := Distinct)
    (fun l op h => ?_) (fun r log l op h hl => ?_) (counted_start ids) hops
  · exact ⟨fun op hop => h.noZero op (List.mem_append_left _ hop),
      (List.nodup_append.1 (List.filterMap_append ▸ h.drawn)).1⟩
  · have hlast : [op].filterMap RouterOp.drawn = op.drawn.toList := by
      rw [List.filterMap_cons]
      cases op.drawn <;> rfl
    have hn := hl.drawn
    rw [List.filterMap_append, hlast] at hn ⊢
    refine h.step (hl.noZero op (List.mem_append_right _ (List.mem_singleton.2 rfl))) ?_
    intro ssrc hs hmem
    exact (List.nodup_append.1 hn).2.2 ssrc hmem ssrc (Option.mem_toList.2 hs) rfl

/-! ## The clock -/

theorem toNat_getNtpTimestamp (n : Nat) : (getNtpTimestamp n).toNat =
    (n / 1000000000 + 2208988800) % 4294967296 * 4294967296 +
      n % 1000000000 * 4294967296 / 1000000000 := by
  have hcast : ∀ m : Nat, UInt64.ofInt m = UInt64.ofNat (m % 2 ^ 64) := fun _ => rfl
  have hsecs : UInt64.ofInt ((n : Int).tdiv 1000000000) = _ := hcast (n / 1000000000)
  have hfrac : UInt64.ofInt ((n : Int).tmod 1000000000) = _ := hcast (n % 1000000000)
  have hlt := Nat.mod_lt n (show 0 < 1000000000 by decide)
  unfold getNtpTimestamp
  rw [hsecs, hfrac]
  have hshift : (32 : UInt64).toNat % 64 = 32 := rfl
  have hbillion : (1000000000 : UInt64).toNat = 1000000000 := rfl
  have hepoch : (2208988800 : UInt64).toNat = 2208988800 := rfl
  rw [UInt64.toNat_or, UInt64.toNat_shiftLeft, UInt64.toNat_div, UInt64.toNat_shiftLeft,
    UInt64.toNat_add, UInt64.toNat_ofNat', UInt64.toNat_ofNat', hshift, hbillion, hepoch,
    Nat.shiftLeft_eq, Nat.shiftLeft_eq]
  generalize n % 1000000000 = f at hlt
  generalize n / 1000000000 = s
  have hf : f % 2 ^ 64 % 2 ^ 64 * 2 ^ 32 % 2 ^ 64 / 1000000000 = f * 4294967296 / 1000000000 := by
    omega
  have hs : (s % 2 ^ 64 % 2 ^ 64 + 2208988800) % 2 ^ 64 * 2 ^ 32 % 2 ^ 64 =
      2 ^ 32 * ((s + 2208988800) % 4294967296) := by omega
  rw [hf, hs, ← Nat.two_pow_add_eq_or_of_lt (by omega)]
  omega

/-- The fraction is rounded down, by less than a nanosecond. -/
theorem getNtpTimestamp_words (n : Nat) : ∃ f < 4294967296,
    (getNtpTimestamp n).toNat = (n / 1000000000 + 2208988800) % 4294967296 * 4294967296 + f ∧
      (f * 1000000000 + 4294967295) / 4294967296 = n % 1000000000 :=
  ⟨n % 1000000000 * 4294967296 / 1000000000, by omega, toNat_getNtpTimestamp n, by omega⟩

/-- The time that the two words of a timestamp stand for, in nanoseconds since 1900. -/
def ntpTime (hi lo : UInt32) : Nat :=
  hi.toNat * 1000000000 + (lo.toNat * 1000000000 + 4294967295) / 4294967296

/-- A timestamp tells its nanosecond, up to the 2^32 seconds after which the clock starts over. -/
theorem ntpTime_now (n : Nat) : ntpTime (ntpHi n) (ntpLo n) =
    (n + 2208988800 * 1000000000) % (4294967296 * 1000000000) := by
  obtain ⟨f, hword, htime, hfrac⟩ := getNtpTimestamp_words n
  have hhi : (ntpHi n).toNat = (getNtpTimestamp n).toNat / 4294967296 % 4294967296 := by
    unfold ntpHi
    rw [UInt64.toNat_toUInt32, UInt64.toNat_shiftRight, Nat.shiftRight_eq_div_pow]
    rfl
  have hlo : (ntpLo n).toNat = (getNtpTimestamp n).toNat % 4294967296 := by
    have hmask : (0xFFFFFFFF : UInt64).toNat = 2 ^ 32 - 1 := rfl
    unfold ntpLo
    rw [UInt64.toNat_toUInt32, UInt64.toNat_and, hmask, Nat.and_two_pow_sub_one_eq_mod,
      Nat.mod_mod]
  have hsplit : (n + 2208988800 * 1000000000) % (4294967296 * 1000000000) =
      (n / 1000000000 + 2208988800) % 4294967296 * 1000000000 + n % 1000000000 := by omega
  have hlo' : (ntpLo n).toNat = f := by omega
  have hhi' : (ntpHi n).toNat = (n / 1000000000 + 2208988800) % 4294967296 := by omega
  rw [ntpTime, hhi', hlo', hfrac, hsplit]

/-! ## The report -/

/-- The report for the consumer `k` says that `sent` was sent to it, at the time `now`. -/
structure Reports (k : Consumer) (sent : List Datagram) (now : Nat) (sr : Bytes) : Prop where
  parsed : ∀ h : RtcpHandler, h.srCb = true → h.onRtcpPacket sr = .ok [.sr k.rewrittenSsrc
    (ntpHi now) (ntpLo now) k.lastSentTimestamp (UInt32.ofNat sent.length)
    (UInt32.ofNat (octets sent))]
  time : ntpTime (ntpHi now) (ntpLo now) =
    (now + 2208988800 * 1000000000) % (4294967296 * 1000000000)

theorem onRtcpPacket_senderReport (k : Consumer) (now : Int) {h : RtcpHandler}
    (hsr : h.srCb = true) : h.onRtcpPacket (senderReport k now) = .ok [.sr k.rewrittenSsrc
      (ntpHi now) (ntpLo now) k.lastSentTimestamp k.packetsSent k.octetsSent] := by
  have hvisits := RtcpHandler.visits_bytes [.sr k.rewrittenSsrc 0 (ntpHi now) (ntpLo now)
    k.lastSentTimestamp k.packetsSent k.octetsSent]
  have hbytes : senderReport k now = ([RtcpHandler.Message.sr k.rewrittenSsrc 0 (ntpHi now)
    (ntpLo now) k.lastSentTimestamp k.packetsSent k.octetsSent].map
      RtcpHandler.Message.bytes).flatten := by
    simp [RtcpHandler.Message.bytes, RtcpHandler.send, RtcpHandler.sendSR, RtcpHandler.call,
      senderReport]
  rw [hbytes, RtcpHandler.onRtcpPacket_eq hvisits.1, hvisits.2 h]
  simp [RtcpHandler.hears, RtcpHandler.Message.callback, hsr]

/-- **A sender report is exact.** After any run whose packets have SSRCs other than 0 and whose
`addConsumer`s draw different SSRCs, the report for a consumer of a keyed subscriber is one RTCP
packet to the subscriber, unless the library fails; any RTCP parser reads from it the SSRC of the
consumer, the time, and the number and the bytes of the RTP datagrams sent with that SSRC. -/
theorem sender_report_exact (ids : PeerRef → String) (ops : List RouterOp) (hops : Distinct ops)
    (S : PeerRef) (c : ConsumerRef) (ctx : SrtpContext)
    (hc : c ∈ ((exec step (start ids) ops).peers S).consumers)
    (hctx : ((exec step (start ids) ops).peers S).srtp = some ctx)
    (times : ConsumerRef → SrTimes) (srtp : SrtpOracle) (now : Nat) :
    let r := exec step (start ids) ops
    ∃ sr, Reports (r.heap c)
        (sentAs (r.heap c).rewrittenSsrc (outputs step media (start ids) ops)) now sr ∧
      (r.generateAndSendSR times srtp now (some c)).2 =
        (srtp.protectRtcp 0 ctx sr).toList.map fun data =>
          ⟨(r.peers S).remoteEp, .rtcp, sr, data⟩ := by
  have hcounted := counted_exec ids hops
  generalize exec step (start ids) ops = r at hc hctx hcounted
  have hk := hcounted.counts c ⟨S, hc⟩
  refine ⟨senderReport (r.heap c) now, ⟨fun h hsr => ?_, ntpTime_now now⟩, ?_⟩
  · rw [onRtcpPacket_senderReport _ _ hsr, hk.packetsSent, hk.octetsSent]
  · simp only [generateAndSendSR, hcounted.linked.wf.subscriber S c hc, hctx]
    cases srtp.protectRtcp 0 ctx (senderReport (r.heap c) now) <;> rfl

theorem sender_report_exact_relayed :
    let r := exec step (start toString) relayedRun
    (∃ sr, Reports (r.heap 1)
        (sentAs (r.heap 1).rewrittenSsrc (outputs step media (start toString) relayedRun))
        1000000000 sr ∧
      (r.generateAndSendSR (fun _ => {}) ⟨fun _ _ b => some b, fun _ _ b => some b⟩ 1000000000
        (some 1)).2 = [⟨(r.peers 3).remoteEp, .rtcp, sr, sr⟩]) ∧
      (sentAs (r.heap 1).rewrittenSsrc (outputs step media (start toString) relayedRun)).length =
        2 :=
  ⟨sender_report_exact toString relayedRun (by decide) 3 1 ⟨[3]⟩ (by decide) (by decide) _ _ _,
    by decide⟩

end Router

end Namecon
