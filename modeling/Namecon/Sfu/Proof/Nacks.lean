import Namecon.Sfu.Proof.Feedback
import Namecon.Sfu.Proof.Packets
import Namecon.Sfu.Proof.Rewriting

/-!
# Which packets a NACK asks for

A generic NACK has any number of entries, each a packet and a mask of the sixteen after it.
`handleNACK` reads one entry and builds a packet of one entry.

* `mem_requested`: what the publisher is asked for is what the first entry reports.
* `nack_complete_iff`: so a NACK is translated completely exactly when the first entry covers all
  others, and the outgoing SSRC leads to the stream at all.
-/

namespace Namecon.Router

open Framing (own)
open Runs (exec)

variable {r : Router} {srtp : SrtpOracle} {p q : Bytes} {i len : Nat} {P : PeerRef} {ssrc : UInt32}

/-! ## Generic NACKs -/

/-- The packets the entry `(PID, BLP)` reports lost. -/
def lostBy (e : UInt16 × UInt16) : List UInt16 :=
  e.1 :: ((List.range 16).filter fun j => e.2.toNat.testBit j).map fun j =>
    e.1 + 1 + UInt16.ofNat j

/-- The PID and BLP pairs of a NACK's FCI. -/
def entriesOf : Bytes → List (UInt16 × UInt16)
  | a :: b :: c :: d :: rest => (ntohs a b, ntohs c d) :: entriesOf rest
  | _ => []

/-- The bytes of padding at the end of a packet, which the last one counts. -/
def paddingLen (q : Bytes) : Nat :=
  if q.getD 0 0 &&& 0x20 = 0 then 0 else (q.getD (q.length - 1) 0).toNat

/-- The `(PID, BLP)` entries of the NACK `q`. -/
def nackEntries (q : Bytes) : List (UInt16 × UInt16) :=
  entriesOf ((q.take (q.length - paddingLen q)).drop 12)

/-- `q` is a generic NACK with one entry or more. -/
structure GenericNack (q : Bytes) : Prop where
  format : HasFormat 205 q
  padding : 4 ∣ paddingLen q
  entries : 16 + paddingLen q ≤ q.length

instance (q : Bytes) : Decidable (GenericNack q) :=
  decidable_of_iff (HasFormat 205 q ∧ 4 ∣ paddingLen q ∧ 16 + paddingLen q ≤ q.length)
    ⟨fun h => ⟨h.1, h.2.1, h.2.2⟩, fun h => ⟨h.1, h.2, h.3⟩⟩

/-- The sequence numbers the NACK `q` reports lost, shifted back by `seqDelta`. -/
def reported (q : Bytes) (seqDelta : Int) : Set UInt16 :=
  { n | ∃ e ∈ nackEntries q, ∃ l ∈ lostBy e, n = l - UInt16.ofInt seqDelta }

/-- What the router sends for the packet `p` of the length `len`, number `i` of its datagram, and to
whom (`onRtcpPacket_emissions`). -/
def emitted (r : Router) (srtp : SrtpOracle) (i : Nat) (p : Bytes) (len : Nat) :
    List (PeerRef × Datagram) := (request p len).elim [] (r.translateTo srtp i)

/-- The sequence numbers of the stream `ssrc` that `P` is asked for by the NACKs among what is sent
for the packet. -/
def requested (r : Router) (srtp : SrtpOracle) (i : Nat) (p : Bytes) (len : Nat) (P : PeerRef)
    (ssrc : UInt32) : Set UInt16 :=
  { n | ∃ y ∈ r.emitted srtp i p len, y.1 = P ∧ rtcpIsNACK y.2.plain = true ∧
    mediaSsrc y.2.plain = ssrc ∧ ∃ e ∈ nackEntries y.2.plain, n ∈ lostBy e }

theorem entriesOf_eq {l : Bytes} (h : 4 ≤ l.length) :
    entriesOf l = (ntohsAt l 0, ntohsAt l 2) :: entriesOf (l.drop 4) := by
  match l, h with
  | a :: b :: c :: d :: rest, _ => rfl

theorem GenericNack.nackEntries (h : GenericNack q) :
    ∃ rest, nackEntries q = (ntohsAt q 12, ntohsAt q 14) :: rest := by
  have hlen := h.entries
  unfold Router.nackEntries
  rw [entriesOf_eq (by rw [List.length_drop, List.length_take]; omega), ntohsAt_drop, ntohsAt_drop,
    ntohsAt_take (by omega), ntohsAt_take (by omega)]
  exact ⟨_, rfl⟩

/-! ## What is sent -/

theorem nackEntries_build (p : Bytes) (k : Consumer) : nackEntries ((nackRequest p).build k) =
    [(ntohsAt p 12 - UInt16.ofInt k.seqDelta, ntohsAt p 14)] := by
  have hpad : paddingLen ((nackRequest p).build k) = 0 :=
    if_pos (by decide : (0x81 : UInt8) &&& 0x20 = 0)
  have hentry : nackEntries ((nackRequest p).build k) =
      [(ntohsAt ((nackRequest p).build k) 12, ntohsAt ((nackRequest p).build k) 14)] := by
    rw [nackEntries, hpad]
    rfl
  have hblp : ntohsAt ((nackRequest p).build k) 14 = ntohsAt p 14 := ntohs_htons _
  rw [hentry, hblp, nack_origPid]

/-- What the publisher is asked for: what the first entry reports, for the consumer that is
found. -/
theorem mem_requested {ctx : SrtpContext} (hctx : (r.peers P).srtp = some ctx)
    (hworks : ∀ i plain, (srtp.protectRtcp i ctx plain).isSome)
    (hrequest : request p len = some (nackRequest p)) {n : UInt16} :
    n ∈ r.requested srtp i p len P ssrc ↔ ∃ c, r.findConsumerByOutSsrc (ntohlAt p 8) = some c ∧
      (r.heap c).publisher = some P ∧ (r.heap c).publisherSsrc = ssrc ∧
      n ∈ lostBy (ntohsAt p 12 - UInt16.ofInt (r.heap c).seqDelta, ntohsAt p 14) := by
  unfold requested emitted
  rw [hrequest]
  constructor
  · rintro ⟨y, hy, rfl, -, hssrc, e, he, hn⟩
    obtain ⟨c, hc, hP, hd⟩ := mem_translateTo.1 hy
    obtain ⟨ctx', data, -, -, hd⟩ := Peer.mem_sendRtcp.1 hd
    rw [hd] at hssrc he
    rw [nackEntries_build, List.mem_singleton] at he
    have hmedia : mediaSsrc ((nackRequest p).build (r.heap c)) = (r.heap c).publisherSsrc :=
      ntohl_htonl _
    exact ⟨c, hc, hP, hmedia.symm.trans hssrc, he ▸ hn⟩
  · rintro ⟨c, hc, hP, hssrc, hn⟩
    obtain ⟨data, hdata⟩ := Option.isSome_iff_exists.1
      (hworks i ((nackRequest p).build (r.heap c)))
    have hmedia : mediaSsrc ((nackRequest p).build (r.heap c)) = (r.heap c).publisherSsrc :=
      ntohl_htonl _
    have hnack : rtcpIsNACK ((nackRequest p).build (r.heap c)) = true :=
      isFeedback_iff.2 ⟨Nat.le_refl 16, rfl, (by decide : (0x81 : UInt8) &&& 0x1F = 1)⟩
    refine ⟨(P, ⟨(r.peers P).remoteEp, .rtcp, (nackRequest p).build (r.heap c), data⟩), ?_, rfl,
      hnack, hmedia.trans hssrc, _, ?_, hn⟩
    · exact mem_translateTo.2 ⟨c, hc, hP, Peer.mem_sendRtcp.2 ⟨ctx, data, hctx, hdata, rfl⟩⟩
    · rw [nackEntries_build]
      exact .head _

/-- The consumer `c` of `F` is linked to a stream of `P`, and `P` has an SRTP context with which
libsrtp protects what it is given. -/
structure WorkingLink (r : Router) (srtp : SrtpOracle) (F : PeerRef) (c : ConsumerRef)
    (P : PeerRef) : Prop where
  owned : c ∈ (r.peers F).consumers
  publisher : (r.heap c).publisher = some P
  linked : (r.heap c).publisherSsrc ≠ 0
  works : ∃ ctx, (r.peers P).srtp = some ctx ∧ ∀ i plain, (srtp.protectRtcp i ctx plain).isSome

/-- The first entry of the NACK `q` covers the others. -/
def FirstCovers (q : Bytes) : Prop :=
  ∀ e ∈ nackEntries q, ∀ n ∈ lostBy e, n ∈ lostBy (ntohsAt q 12, ntohsAt q 14)

instance (q : Bytes) : Decidable (FirstCovers q) := inferInstanceAs (Decidable (∀ e ∈ _, _))

/-- The outgoing SSRC of `c` leads to a consumer of the stream of `c`. -/
def LeadsTo (r : Router) (c : ConsumerRef) : Prop :=
  ∃ c', r.findConsumerByOutSsrc (r.heap c).rewrittenSsrc = some c' ∧
    (r.heap c').publisher = (r.heap c).publisher ∧
    (r.heap c').publisherSsrc = (r.heap c).publisherSsrc

theorem sub_ofInt_zero (n : UInt16) : n - UInt16.ofInt 0 = n := by
  have hzero : UInt16.ofInt 0 = 0 := by decide
  rw [hzero, UInt16.sub_zero]

/-- A NACK is one whatever follows it, and has the fields of its own bytes. -/
theorem GenericNack.request (h : GenericNack (p.take len)) (hle : len ≤ p.length) :
    request p len = some (nackRequest p) ∧ mediaSsrc (p.take len) = ntohlAt p 8 ∧
      ntohsAt (p.take len) 12 = ntohsAt p 12 ∧ ntohsAt (p.take len) 14 = ntohsAt p 14 := by
  have hlen := h.entries
  rw [List.length_take] at hlen
  have hformat := (hasFormat_take (by omega)).1 h.format
  have hpli : ¬ rtcpIsPLI p = true := not_isFeedback hformat.1 (by decide)
  refine ⟨?_, ntohlAt_take (by omega), ntohsAt_take (by omega), ntohsAt_take (by omega)⟩
  unfold Router.request
  rw [if_neg hpli]
  exact if_pos (isFeedback_iff.2 ⟨by omega, hformat⟩)

/-- **When a NACK is translated completely.** In every reachable state, for every NACK in a datagram
of `F` that names the outgoing SSRC of a linked consumer of `F`: what the publisher is asked for is
what the subscriber reported lost, shifted back, exactly when the outgoing SSRC leads to the stream
and the first entry covers the others. -/
theorem nack_complete_iff (ids : PeerRef → String) (ops : List RouterOp) (srtp : SrtpOracle)
    (rtcp : Bytes) (x : (Bytes × Nat) × Nat) (hx : x ∈ (rtcpWalk rtcp.length rtcp).zipIdx)
    (hnack : GenericNack (own x.1)) (F : PeerRef) (c : ConsumerRef) (P : PeerRef)
    (hlink : WorkingLink (exec step (start ids) ops) srtp F c P)
    (hnames : mediaSsrc (own x.1) = ((exec step (start ids) ops).heap c).rewrittenSsrc) :
    requested (exec step (start ids) ops) srtp x.2 x.1.1 x.1.2 P
        ((exec step (start ids) ops).heap c).publisherSsrc =
      reported (own x.1) ((exec step (start ids) ops).heap c).seqDelta ↔
    LeadsTo (exec step (start ids) ops) c ∧ FirstCovers (own x.1) := by
  have hzero := seqDelta_exec ids ops
  generalize exec step (start ids) ops = r at hlink hnames hzero
  obtain ⟨ctx, hctx, hworks⟩ := hlink.works
  have hmem := mem_visits_of_mem_zipIdx hx
  obtain ⟨hrequest, hmedia, hpid, hblp⟩ :=
    GenericNack.request hnack (Framing.bounds_of_mem_visits hmem).2
  obtain ⟨rest, hentries⟩ := GenericNack.nackEntries hnack
  have hasked : ∀ n, n ∈ r.requested srtp x.2 x.1.1 x.1.2 P (r.heap c).publisherSsrc ↔
      LeadsTo r c ∧ n ∈ lostBy (ntohsAt (own x.1) 12, ntohsAt (own x.1) 14) := fun n => by
    rw [mem_requested hctx hworks hrequest, ← hmedia, ← hpid, ← hblp]
    unfold LeadsTo
    rw [← hnames, hlink.publisher]
    constructor
    · rintro ⟨c', hc', hP, hssrc, hn⟩
      rw [hzero, sub_ofInt_zero] at hn
      exact ⟨⟨c', hc', hP, hssrc⟩, hn⟩
    · rintro ⟨⟨c', hc', hP, hssrc⟩, hn⟩
      refine ⟨c', hc', hP, hssrc, ?_⟩
      rw [hzero, sub_ofInt_zero]
      exact hn
  have hreported : ∀ n, n ∈ reported (own x.1) (r.heap c).seqDelta ↔
      ∃ e ∈ nackEntries (own x.1), n ∈ lostBy e := fun n => by
    change (∃ e ∈ _, ∃ l ∈ lostBy e, n = l - UInt16.ofInt _) ↔ _
    rw [hzero]
    constructor
    · rintro ⟨e, he, l, hl, rfl⟩
      rw [sub_ofInt_zero]
      exact ⟨e, he, hl⟩
    · rintro ⟨e, he, hn⟩
      exact ⟨e, he, n, hn, (sub_ofInt_zero n).symm⟩
  have hfirst : (ntohsAt (own x.1) 12, ntohsAt (own x.1) 14) ∈ nackEntries (own x.1) := by
    rw [hentries]
    exact .head _
  constructor
  · intro heq
    have hall : ∀ e ∈ nackEntries (own x.1), ∀ n ∈ lostBy e, LeadsTo r c ∧
        n ∈ lostBy (ntohsAt (own x.1) 12, ntohsAt (own x.1) 14) := fun e he n hn => by
      rw [← hasked, heq]
      exact (hreported n).2 ⟨e, he, hn⟩
    exact ⟨(hall _ hfirst _ (.head _)).1, fun e he n hn => (hall e he n hn).2⟩
  · rintro ⟨hleads, hcovers⟩
    refine Set.ext fun n => ?_
    rw [hasked, hreported]
    exact ⟨fun h => ⟨_, hfirst, h.2⟩, fun ⟨e, he, hn⟩ => ⟨hleads, hcovers e he n hn⟩⟩

/-- A NACK for the outgoing SSRC of the consumer of peer 1, which reports the packets 10 and 100. -/
def twoEntries : Bytes :=
  [0x81, 205, 0, 4, 0, 0, 0, 0, 0x40, 0, 0, 0, 0, 10, 0, 0, 0, 100, 0, 0]

theorem workingLink_talkRun : WorkingLink (exec step (start toString) talkRun)
    ⟨fun _ _ b => some b, fun _ _ b => some b⟩ 1 0 2 :=
  ⟨by decide, by decide, by decide, ⟨[]⟩, by decide, fun _ _ => rfl⟩

theorem nack_complete_iff_talkRun :
    requested (exec step (start toString) talkRun) ⟨fun _ _ b => some b, fun _ _ b => some b⟩ 0
        twoEntries 20 2 ((exec step (start toString) talkRun).heap 0).publisherSsrc =
      reported (own (twoEntries, 20)) ((exec step (start toString) talkRun).heap 0).seqDelta ↔
    LeadsTo (exec step (start toString) talkRun) 0 ∧ FirstCovers (own (twoEntries, 20)) :=
  nack_complete_iff toString talkRun _ twoEntries ((twoEntries, 20), 0) (by decide) (by decide) 1
    0 2 workingLink_talkRun (by decide)

/-- The publisher is not asked for packet 100. -/
theorem second_entry_lost : ¬ ∀ ids ops srtp rtcp, ∀ x ∈ (rtcpWalk rtcp.length rtcp).zipIdx,
    GenericNack (own x.1) → ∀ F c P, WorkingLink (exec step (start ids) ops) srtp F c P →
      mediaSsrc (own x.1) = ((exec step (start ids) ops).heap c).rewrittenSsrc →
        requested (exec step (start ids) ops) srtp x.2 x.1.1 x.1.2 P
            ((exec step (start ids) ops).heap c).publisherSsrc =
          reported (own x.1) ((exec step (start ids) ops).heap c).seqDelta := by
  intro h
  have heq := h toString talkRun _ twoEntries ((twoEntries, 20), 0) (by decide) (by decide) 1 0 2
    workingLink_talkRun (by decide)
  have hreported : (100 : UInt16) ∈ reported (own (twoEntries, 20))
      ((exec step (start toString) talkRun).heap 0).seqDelta := by
    rw [seqDelta_exec]
    exact ⟨(100, 0), by decide, 100, by decide, by decide⟩
  rw [← heq] at hreported
  obtain ⟨ctx, hctx, hworks⟩ := workingLink_talkRun.works
  obtain ⟨c, -, -, -, hn⟩ := (mem_requested hctx hworks rfl).1 hreported
  rw [seqDelta_exec] at hn
  exact absurd hn (by decide)

end Namecon.Router
