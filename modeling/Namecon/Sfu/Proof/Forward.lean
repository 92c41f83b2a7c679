import Namecon.Sfu.Proof.AddConsumer
import Namecon.Sfu.Proof.Linking
import Namecon.Sfu.Proof.RemovePeer

/-!
# The forwarding loop

`rewriteRtpHeader` replaces the SSRC and nothing else, whatever the rewriting state of the consumer
(`rewriteRtpHeader_spec`): the outgoing sequence number is the last one sent plus the difference to
it. `forwardOne` reads and writes one consumer, so over distinct targets the loop does to each what
`forwardOne` does in the state before the loop (`forward_heap`, `forward_datagrams`).
-/

namespace Namecon.Router

variable {r r' : Router} {o : SrtpOracle} {buf : Bytes} {c : ConsumerRef}

/-! ## Rewriting -/

/-- The consumer after a packet with the header `hdr` was rewritten for it. -/
def rewritten (hdr : RtpHeader) (k : Consumer) : Consumer :=
  { k with
    seqInitialized := true
    lastSentSeq := hdr.sequenceNumber
    lastSentTimestamp := hdr.timestamp
    seqDelta := 0
    tsDelta := 0 }

theorem rewriteRtpHeader_spec {hdr : RtpHeader} (h : RtpHeader.parse buf = some hdr)
    (k : Consumer) :
    rewriteRtpHeader buf k = (withSsrc buf k.rewrittenSsrc, rewritten hdr k) := by
  have hseq : k.lastSentSeq + (hdr.sequenceNumber - k.lastSentSeq) = hdr.sequenceNumber := by
    rw [UInt16.add_comm, UInt16.sub_add_cancel]
  have hts : k.lastSentTimestamp + (hdr.timestamp - k.lastSentTimestamp) = hdr.timestamp := by
    rw [UInt32.add_comm, UInt32.sub_add_cancel]
  have hw := writeFixedHeader_parse h k.rewrittenSsrc
  simp only [rewriteRtpHeader, h]
  cases hk : k.seqInitialized with
  | false => exact Prod.ext hw rfl
  | true =>
    simp only [if_true, hseq, hts, Int.sub_self]
    exact Prod.ext hw (by simp [rewritten])

/-! ## One target -/

/-- `onRtpPacket` gets as far as `protect` for the consumer `c`, with the context `ctx` of its
subscriber `S`. -/
structure Receives (r : Router) (c : ConsumerRef) (S : PeerRef) (ctx : SrtpContext) : Prop where
  active : (r.heap c).active = true
  subscriber : (r.heap c).subscriber = some S
  srtp : (r.peers S).srtp = some ctx
  recvMid : (r.heap c).recvMid ≠ ""

theorem Receives.unique {S S' : PeerRef} {ctx ctx' : SrtpContext} (h : r.Receives c S ctx)
    (h' : r.Receives c S' ctx') : S = S' ∧ ctx = ctx' := by
  obtain rfl := Option.some.inj (h.subscriber.symm.trans h'.subscriber)
  exact ⟨rfl, Option.some.inj (h.srtp.symm.trans h'.srtp)⟩

theorem forwardOne_skip (h : ∀ S ctx, ¬ r.Receives c S ctx) :
    r.forwardOne o buf c = (r, []) := by
  unfold forwardOne
  by_cases ha : (r.heap c).active = true
  · rw [if_neg (by simp [ha])]
    cases hS : (r.heap c).subscriber with
    | none => rfl
    | some S =>
      cases hc : (r.peers S).srtp with
      | none => simp only [hc]
      | some ctx =>
        have hm : (r.heap c).recvMid.isEmpty = true := by
          by_contra hm
          exact h S ctx ⟨ha, hS, hc, by simpa using hm⟩
        simp only [hc, hm, if_true]
  · rw [if_pos (by simpa using ha)]

theorem forwardOne_receives {S : PeerRef} {ctx : SrtpContext} (h : r.Receives c S ctx)
    {hdr : RtpHeader} (hp : RtpHeader.parse buf = some hdr) :
    r.forwardOne o buf c =
      match o.protect c ctx (withSsrc buf (r.heap c).rewrittenSsrc) with
      | none => (r.modifyConsumer c (rewritten hdr), [])
      | some data => (r.modifyConsumer c fun k => countSent buf.length (rewritten hdr k),
          [⟨(r.peers S).remoteEp, .rtp, withSsrc buf (r.heap c).rewrittenSsrc, data⟩]) := by
  have hm : (r.heap c).recvMid.isEmpty = false := by simpa using h.recvMid
  simp only [forwardOne, h.active, h.subscriber, h.srtp, hm, rewriteRtpHeader_spec hp]
  cases o.protect c ctx (withSsrc buf (r.heap c).rewrittenSsrc) with
  | none => rfl
  | some data => simp [modifyConsumer]

theorem forwardOne_cases (r : Router) (c : ConsumerRef) :
    (∃ S ctx, r.Receives c S ctx) ∨ ∀ S ctx, ¬ r.Receives c S ctx := by
  by_cases h : ∃ S ctx, r.Receives c S ctx
  · exact .inl h
  · exact .inr fun S ctx hr => h ⟨S, ctx, hr⟩

/-! ## The loop -/

section
variable {hdr : RtpHeader} (hp : RtpHeader.parse buf = some hdr)
include hp

/-- A round writes one consumer. -/
theorem forwardOne_modify (r : Router) (c : ConsumerRef) :
    ∃ k, (r.forwardOne o buf c).1 = r.modifyConsumer c (fun _ => k) ∧ SameLink (r.heap c) k := by
  rcases forwardOne_cases r c with ⟨S, ctx, h⟩ | h
  · rw [forwardOne_receives h hp]
    cases o.protect c ctx (withSsrc buf (r.heap c).rewrittenSsrc) with
    | none => exact ⟨rewritten hdr (r.heap c), rfl, ⟨rfl, rfl, rfl, rfl, rfl, rfl⟩⟩
    | some data =>
      exact ⟨countSent buf.length (rewritten hdr (r.heap c)), rfl, ⟨rfl, rfl, rfl, rfl, rfl, rfl⟩⟩
  · rw [forwardOne_skip h]
    exact ⟨r.heap c, by simp [modifyConsumer], .refl _⟩

theorem forwardOne_peers (r : Router) (c : ConsumerRef) :
    (r.forwardOne o buf c).1.peers = r.peers := by
  obtain ⟨k, hk, -⟩ := forwardOne_modify (o := o) hp r c
  rw [hk]; rfl

theorem forwardOne_heap_ne (r : Router) {c' : ConsumerRef} (h : c' ≠ c) :
    (r.forwardOne o buf c).1.heap c' = r.heap c' := by
  obtain ⟨k, hk, -⟩ := forwardOne_modify (o := o) hp r c
  rw [hk, modifyConsumer_ne _ _ _ h]

/-- A round reads one consumer. -/
theorem forwardOne_congr (hpeers : r'.peers = r.peers) (hheap : r'.heap c = r.heap c) :
    (r'.forwardOne o buf c).1.heap c = (r.forwardOne o buf c).1.heap c ∧
      (r'.forwardOne o buf c).2 = (r.forwardOne o buf c).2 := by
  have hr : ∀ S ctx, r'.Receives c S ctx ↔ r.Receives c S ctx := fun S ctx => by
    constructor <;> rintro ⟨h1, h2, h3, h4⟩
    · rw [hheap] at h1 h2 h4; rw [hpeers] at h3; exact ⟨h1, h2, h3, h4⟩
    · rw [← hheap] at h1 h2 h4; rw [← hpeers] at h3; exact ⟨h1, h2, h3, h4⟩
  rcases forwardOne_cases r c with ⟨S, ctx, h⟩ | h
  · rw [forwardOne_receives h hp, forwardOne_receives ((hr S ctx).2 h) hp, hheap, hpeers]
    cases o.protect c ctx (withSsrc buf (r.heap c).rewrittenSsrc) with
    | none => simp [hheap]
    | some data => simp [hheap]
  · rw [forwardOne_skip h, forwardOne_skip fun S ctx h' => h S ctx ((hr S ctx).1 h')]
    exact ⟨hheap, rfl⟩

theorem forward_peers (l : List ConsumerRef) (r : Router) :
    (forward o buf l r).1.peers = r.peers := by
  induction l generalizing r with
  | nil => rfl
  | cons x l ih => exact (ih _).trans (forwardOne_peers hp r x)

theorem forward_heap (l : List ConsumerRef) (hl : l.Nodup) (r : Router) (c : ConsumerRef) :
    (forward o buf l r).1.heap c =
      if c ∈ l then (r.forwardOne o buf c).1.heap c else r.heap c := by
  induction l generalizing r with
  | nil => rfl
  | cons x l ih =>
    obtain ⟨hx, hl⟩ := List.nodup_cons.1 hl
    refine (ih hl _).trans ?_
    by_cases hc : c = x
    · subst hc
      rw [if_neg hx, if_pos (.head _)]
    · have hmem : c ∈ x :: l ↔ c ∈ l := by simp [hc]
      simp only [hmem, forwardOne_heap_ne hp r hc]
      split
      · exact (forwardOne_congr hp (forwardOne_peers hp r x) (forwardOne_heap_ne hp r hc)).1
      · rfl

theorem forward_datagrams (l : List ConsumerRef) (hl : l.Nodup) (r : Router) :
    (forward o buf l r).2 = l.flatMap fun c => (r.forwardOne o buf c).2 := by
  induction l generalizing r with
  | nil => rfl
  | cons x l ih =>
    obtain ⟨hx, hl⟩ := List.nodup_cons.1 hl
    change _ ++ (forward o buf l _).2 = _
    rw [ih hl, List.flatMap_cons]
    refine congrArg _ (List.flatMap_congr fun c hc => ?_)
    have hne : c ≠ x := fun h => hx (h ▸ hc)
    exact (forwardOne_congr hp (forwardOne_peers hp r x) (forwardOne_heap_ne hp r hne)).2

theorem sameLinks_forwardOne (r : Router) (c : ConsumerRef) :
    SameLinks r (r.forwardOne o buf c).1 := by
  obtain ⟨k, hk, hs⟩ := forwardOne_modify (o := o) hp r c
  rw [hk]
  refine ⟨fun _ => rfl, fun _ => rfl, rfl, rfl, rfl, fun c' => ?_⟩
  by_cases h : c' = c
  · subst h; rw [modifyConsumer_self]; exact hs
  · rw [modifyConsumer_ne _ _ _ h]; exact .refl _

theorem sameLinks_forward (l : List ConsumerRef) (r : Router) :
    SameLinks r (forward o buf l r).1 := by
  induction l generalizing r with
  | nil => exact .refl r
  | cons x l ih => exact (sameLinks_forwardOne hp r x).trans (ih _)

end

/-! ## The other operations, and runs -/

theorem sameLinks_bind (r : Router) (S : PeerRef) (pid : String) (v : Bool) (mid : String) :
    SameLinks r (r.bindConsumerByMid S pid v mid).1 := by
  unfold bindConsumerByMid
  split
  · exact .refl r
  · rename_i c _
    refine ⟨fun _ => rfl, fun _ => rfl, rfl, rfl, rfl, fun c' => ?_⟩
    by_cases h : c' = c
    · subst h; rw [modifyConsumer_self]; exact ⟨rfl, rfl, rfl, rfl, rfl, rfl⟩
    · rw [modifyConsumer_ne _ _ _ h]; exact .refl _

theorem sameLinks_setTransport (r : Router) (p : PeerRef) (ep : Endpoint) (d : Option DtlsContext)
    (x : Option SrtpContext) : SameLinks r (r.setTransport p ep d x) := by
  refine ⟨fun q => ?_, fun q => ?_, rfl, rfl, rfl, fun _ => .refl _⟩ <;>
  · unfold setTransport
    by_cases h : q = p
    · subst h; rw [modifyPeer_self]
    · rw [modifyPeer_ne _ _ _ h]

/-- A packet too short for a header is dropped. -/
theorem onRtpPacket_short {V : Finset UInt8} {P : PeerRef} (h : RtpHeader.parse buf = none) :
    r.onRtpPacket V o buf P = (r, []) := by
  simp only [onRtpPacket, h]

theorem onRtpPacket_parse {V : Finset UInt8} {P : PeerRef} {hdr : RtpHeader}
    (h : RtpHeader.parse buf = some hdr) : r.onRtpPacket V o buf P =
      let linked := r.linkTargets o P hdr.ssrc (hdr.payloadType ∈ V)
      ((forward o buf linked.2.1 linked.1).1,
        linked.2.2 ++ (forward o buf linked.2.1 linked.1).2) := by
  simp only [onRtpPacket, h]

theorem Wf.onRtpPacket {V : Finset UInt8} {P : PeerRef} (hw : r.Wf) :
    (r.onRtpPacket V o buf P).1.Wf := by
  cases h : RtpHeader.parse buf with
  | none => rw [onRtpPacket_short h]; exact hw
  | some hdr =>
    rw [onRtpPacket_parse h]
    exact hw.linkTargets.frame (sameLinks_forward h _ _)

theorem Wf.step (hw : r.Wf) (op : RouterOp) : (r.step op).Wf := by
  cases op with
  | addConsumer S P v d => exact hw.addConsumer
  | removePeer X => exact hw.removePeer X
  | bindConsumerByMid S pid v mid => exact hw.frame (sameLinks_bind r S pid v mid)
  | onRtpPacket V o buf P => exact hw.onRtpPacket
  | setTransport p ep d x => exact hw.frame (sameLinks_setTransport r p ep d x)

/-- **The invariant holds in every state of every run.** -/
theorem Wf.exec (hw : r.Wf) (ops : List RouterOp) : (Runs.exec Router.step r ops).Wf :=
  Runs.exec_inv' (I := Wf) (fun _ op h => Wf.step h op) ops hw

end Namecon.Router
