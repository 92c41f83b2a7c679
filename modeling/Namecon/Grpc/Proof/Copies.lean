import Mathlib.Data.List.Find
import Namecon.Grpc.Proof.Links
import Namecon.Grpc.Proof.Mids

/-!
# One copy for each subscriber

`SetupConsumers` subscribes every pair of a room again with each join, so a subscriber owns several
consumers of one stream. `bindConsumerByMid` always takes the first of them, and a consumer without a
mid is skipped by the forwarding loop: of the consumers of one stream at most the first is bound
(`BoundFirst`), whatever is added, bound or removed. `one_copy` follows: a packet reaches a
subscriber once.
-/

namespace Namecon

open Runs (exec Meets)

namespace Router

variable {r r' : Router} {S P X : PeerRef} {v : Bool} {d : SsrcDraw} {c : ConsumerRef}

/-- A bound consumer is the first that its subscriber has of the stream. -/
def BoundFirst (r : Router) : Prop :=
  ∀ S, ∀ c ∈ (r.peers S).consumers, (r.heap c).recvMid ≠ "" → ∀ P, (r.heap c).publisher = some P →
    (r.peers S).consumers.find? (fun c' => r.bindsTo (r.peers P).peerId (r.heap c).isVideo
      (r.heap c')) = some c

/-- Two bound consumers of one subscriber are of different streams. -/
theorem BoundFirst.unique (h : r.BoundFirst) {c c' : ConsumerRef}
    (hc : c ∈ (r.peers S).consumers) (hc' : c' ∈ (r.peers S).consumers)
    (hmid : (r.heap c).recvMid ≠ "") (hmid' : (r.heap c').recvMid ≠ "")
    (hP : (r.heap c).publisher = some P) (hP' : (r.heap c').publisher = some P)
    (hv : (r.heap c).isVideo = (r.heap c').isVideo) : c = c' := by
  have hfirst := h S c hc hmid P hP
  rw [hv, h S c' hc' hmid' P hP'] at hfirst
  exact (Option.some.inj hfirst).symm

theorem bindsTo_iff {pid : String} {k : Consumer} : r.bindsTo pid v k = true ↔
    k.isVideo = v ∧ ∃ P, k.publisher = some P ∧ (r.peers P).peerId = pid := by
  unfold bindsTo
  cases k.publisher with
  | none => simp
  | some P => simp

/-! ## The steps -/

/-- What keeps the consumers, their streams and their mids, and the ids of their publishers. -/
theorem BoundFirst.frame (h : r.BoundFirst) (hs : SameSubscribers r r')
    (hmid : ∀ c, (r'.heap c).recvMid = (r.heap c).recvMid)
    (hid : ∀ c, r.Owned c → ∀ P, (r.heap c).publisher = some P →
      (r'.peers P).peerId = (r.peers P).peerId) : r'.BoundFirst := by
  intro S c hc hb P hP
  rw [hs.consumers] at hc ⊢
  rw [hmid] at hb
  rw [hs.publisher] at hP
  have hbinds : ∀ c' ∈ (r.peers S).consumers,
      r'.bindsTo (r'.peers P).peerId (r'.heap c).isVideo (r'.heap c') =
        r.bindsTo (r.peers P).peerId (r.heap c).isVideo (r.heap c') := by
    intro c' hc'
    rw [hid c ⟨S, hc⟩ P hP, hs.isVideo, Bool.eq_iff_iff, bindsTo_iff, bindsTo_iff, hs.isVideo,
      hs.publisher]
    refine and_congr_right fun _ => exists_congr fun Q => and_congr_right fun hQ => ?_
    rw [hid c' ⟨S, hc'⟩ Q hQ]
  rw [List.find?_congr hbinds]
  exact h S c hc hb P hP

theorem BoundFirst.addConsumer (hw : r.Wf) (h : r.BoundFirst) :
    (r.addConsumer S P v d).1.BoundFirst := by
  have hid := (sameTransport_addConsumer r S P v d).peerId
  have hold : ∀ T, ∀ c ∈ (r.peers T).consumers,
      (r.addConsumer S P v d).1.heap c = r.heap c :=
    fun T c hc => addConsumer_heap_old (hw.fresh c ⟨T, hc⟩)
  intro T c hc hb Q hQ
  rcases mem_addConsumer_consumers.1 hc with hc | ⟨rfl, rfl⟩
  · rw [hold T c hc] at hb hQ ⊢
    have hfirst := h T c hc hb Q hQ
    have hsame : (r.peers T).consumers.find? (fun c' =>
        (r.addConsumer S P v d).1.bindsTo ((r.addConsumer S P v d).1.peers Q).peerId
          (r.heap c).isVideo ((r.addConsumer S P v d).1.heap c')) = some c := by
      rw [← hfirst]
      refine List.find?_congr fun c' hc' => ?_
      rw [Bool.eq_iff_iff, bindsTo_iff, bindsTo_iff, hold T c' hc', hid]
      simp only [hid]
    rw [addConsumer_consumers]
    split
    · rename_i hT
      subst hT
      rw [List.find?_append, hsame]
      rfl
    · exact hsame
  · rw [addConsumer_heap_new] at hb
    exact absurd rfl hb

/-- A removal leaves fewer consumers with a publisher, and the first of those that are left stays the
first. -/
theorem BoundFirst.removePeer (h : r.BoundFirst) : (r.removePeer X).BoundFirst := by
  have hid := (sameTransport_removePeer r X).peerId
  intro S c hc hb P hP
  obtain ⟨hS, hc⟩ := mem_removePeer_consumers.1 hc
  rw [removePeer_consumers, if_neg hS]
  rw [removePeer_heap] at hb hP ⊢
  obtain ⟨haud, hP⟩ := heapAfter_publisher.1 hP
  have hkept : r.heapAfter X c = r.heap c := if_neg haud
  rw [hkept] at hb ⊢
  obtain ⟨hpos, before, after, hsplit, hbefore⟩ :=
    List.find?_eq_some_iff_append.1 (h S c hc hb P hP)
  refine List.find?_eq_some_iff_append.2 ⟨?_, before, after, hsplit, fun x hx => ?_⟩
  · rw [hkept, bindsTo_iff]
    exact ⟨rfl, P, hP, rfl⟩
  · have hx := hbefore x hx
    rw [Bool.not_eq_true', Bool.eq_false_iff, ne_eq, bindsTo_iff] at hx ⊢
    rintro ⟨hv, Q, hQ, hpid⟩
    rw [heapAfter_isVideo] at hv
    rw [hid, hid] at hpid
    exact hx ⟨hv, Q, (heapAfter_publisher.1 hQ).2, hpid⟩

theorem BoundFirst.bind (hw : r.Wf) (h : r.BoundFirst) (S : PeerRef) (rm : RecvMid) :
    (r.bindConsumerByMid S rm.publisherPeerId rm.isVideo rm.mid).1.BoundFirst := by
  have hpeers := (sameButMids_bind (r := r) (S := S) rm).peers
  intro T c hc hb P hP
  rw [hpeers] at hc ⊢
  rw [heap_bind] at hb hP ⊢
  have hbinds : ∀ c' ∈ (r.peers T).consumers,
      (r.bindConsumerByMid S rm.publisherPeerId rm.isVideo rm.mid).1.bindsTo (r.peers P).peerId
        (r.heap c).isVideo
        ((r.bindConsumerByMid S rm.publisherPeerId rm.isVideo rm.mid).1.heap c') =
      r.bindsTo (r.peers P).peerId (r.heap c).isVideo (r.heap c') := by
    intro c' _
    rw [heap_bind]
    simp only [bindsTo, hpeers]
  dsimp only at hb hP ⊢
  rw [List.find?_congr hbinds]
  by_cases hbound : r.boundBy S rm = some c
  · -- the consumer that the call has just bound
    obtain rfl : S = T := hw.owner_unique (boundBy_mem hbound) hc
    obtain ⟨hv, Q, hQ, hpid⟩ := bindsTo_iff.1 (List.find?_some
      (p := fun c => r.bindsTo rm.publisherPeerId rm.isVideo (r.heap c)) hbound)
    obtain rfl : Q = P := Option.some.inj (hQ.symm.trans hP)
    rw [hpid, hv]
    exact hbound
  · rw [if_neg hbound] at hb
    exact h T c hc hb P hP

theorem BoundFirst.bindMids (rms : List RecvMid) {r : Router} (hw : r.Wf) (h : r.BoundFirst)
    (m : String → Option UInt32) : (MediaServer.bindMids S rms (r, m)).1.BoundFirst := by
  induction rms generalizing r m with
  | nil => exact h
  | cons rm rms ih => exact ih (hw.frame (sameLinks_bind r S _ _ _)) (h.bind hw S rm) _

/-- The consumers that get a packet are of one kind, that of the stream. -/
theorem Eligible.isVideo_eq {o : SrtpOracle} {s : UInt32} {S' : PeerRef} {ctx ctx' : SrtpContext}
    {c' : ConsumerRef} (hl : r.Linked) (h0 : s ≠ 0) (h : r.Eligible P s v c S ctx)
    (h' : r.Eligible P s v c' S' ctx') : (r.heap c).isVideo = (r.heap c').isVideo := by
  obtain ⟨p, hp, -, ht⟩ := linkTargets_spec (o := o) (P := P) (s := s) (v := v) hl.wf
  have hkind : ∀ {c S ctx}, r.Eligible P s v c S ctx → (r.heap c).isVideo = p.isVideo := by
    intro c S ctx he
    have hc := ((eligible_iff (o := o) hl h0).1 he).1
    rw [ht] at hc
    have hv := (hl.wf.linkTargets.listLink P p c ⟨hp, hc⟩).2.1
    rwa [linkTargets_heap_owned hl.wf ⟨S, he.owned⟩] at hv
  rw [hkind h, hkind h']

/-- Of the consumers of one subscriber one at most gets the packet. -/
theorem BoundFirst.recipient_unique {o : SrtpOracle} {s : UInt32} {buf data data' : Bytes}
    {ctx ctx' : SrtpContext} {c' : ConsumerRef} (hl : r.Linked) (hb : r.BoundFirst) (h0 : s ≠ 0)
    (h : r.Recipient o buf P s v c S ctx data) (h' : r.Recipient o buf P s v c' S ctx' data') :
    c = c' :=
  hb.unique h.owned h'.owned h.recvMid h'.recvMid h.publisher h'.publisher
    (h.toEligible.isVideo_eq (o := o) hl h0 h'.toEligible)

end Router

namespace MediaServer

open Router

variable {s : MediaServer}

theorem boundFirst_onPacket (h : s.Sound) (hb : s.router.BoundFirst) (data : Bytes) (ep : Endpoint)
    (env : PacketEnv) : (s.onPacket data ep env).1.router.BoundFirst :=
  hb.frame (h.sameSubscribers_onPacket data ep env) (onPacket_recvMid s data ep env)
    fun _ _ P _ => onPacket_peerId s data ep env P

theorem boundFirst_step (h : s.Sound) (hb : s.router.BoundFirst) (op : ServerOp) :
    (s.step op).router.BoundFirst := by
  cases op with
  | addPeer info id =>
    refine hb.frame (h.sameLinks_addPeer info id).sameSubscribers (fun _ => rfl) fun c hc P hP => ?_
    have hne : P ≠ s.nextPeer := Nat.ne_of_lt (h.publishers c hc P hP)
    rw [show s.step (.addPeer info id) = (s.addPeer info id).1 from rfl, addPeer_router,
      modifyPeer_ne _ _ _ hne]
  | addConsumer sub pub v d =>
    simp only [step, addConsumer]
    split
    · exact hb.addConsumer h.wf
    · exact hb
  | sendOffer g id sdp rms =>
    simp only [step, sendOffer, offerMids]
    split
    · exact hb
    · exact hb.bindMids rms h.wf _
  | removePeer id =>
    simp only [step, removePeer]
    split
    · exact hb
    · exact hb.removePeer
  | packet data ep env => exact boundFirst_onPacket h hb data ep env

theorem boundFirst_exec (ops : List ServerOp) : (exec step {} ops).router.BoundFirst :=
  (Runs.exec_inv' (I := fun s : MediaServer => s.Sound ∧ s.router.BoundFirst)
    (fun _ op h => ⟨h.1.step op, boundFirst_step h.1 h.2 op⟩) ops
    ⟨sound_start, fun _ _ hc => absurd hc List.not_mem_nil⟩).2

/-- **One copy for each subscriber.** Whatever has been subscribed, bound and removed before, a
datagram makes the server send each peer one RTP datagram at most. -/
theorem one_copy (ops : List ServerOp) (hops : ∀ op ∈ ops, op.NoZeroPacket) (data : Bytes)
    (ep : Endpoint) (env : PacketEnv) (hop : (ServerOp.packet data ep env).NoZeroPacket) :
    let s := exec step {} ops
    let bound := (s.getOrCreatePeer ep env.pick).1.router
    ∃ sent : List (PeerRef × Datagram), (sent.map Prod.fst).Nodup ∧
      (s.handleSrtp data ep env).2.filter (·.channel = .rtp) = sent.map Prod.snd ∧
      ∀ x ∈ sent, x.2.target = (bound.peers x.1).remoteEp := by
  obtain ⟨hs, hl⟩ := linked_exec hops
  have hb := boundFirst_exec ops
  generalize exec step {} ops = s at hs hl hb ⊢
  intro s' bound
  have hlinks := sameLinks_getOrCreatePeer s ep env.pick
  have hl : bound.Linked := hl.frame hlinks
  have hb : bound.BoundFirst := hb.frame hlinks.sameSubscribers
    (fun c => by
      have hheap : bound.heap = s.router.heap := getOrCreatePeer_heap s ep env.pick
      rw [hheap]) fun _ _ P _ => getOrCreatePeer_peerId s ep env.pick P
  rcases handleSrtp_rtp s data ep env with hnil | ⟨ctx, plain, hdr, -, hplain, hp, hout⟩
  · exact ⟨[], List.nodup_nil, hnil, fun _ hx => absurd hx List.not_mem_nil⟩
  · have h0 := hop ctx plain hplain hdr hp
    obtain ⟨sent, hn, hsent, hmem⟩ := (hl.forwardsExactly (o := env.srtp)
      (P := (s.getOrCreatePeer ep env.pick).2) hp h0
      (s.getOrCreatePeer ep env.pick).1.videoPTs).datagrams
    have hsub : ∀ x ∈ sent, ∃ S ctx data, bound.Recipient env.srtp plain
        (s.getOrCreatePeer ep env.pick).2 hdr.ssrc
        (hdr.payloadType ∈ (s.getOrCreatePeer ep env.pick).1.videoPTs) x.1 S ctx data ∧
        x.2 = bound.delivery plain x.1 S data := fun x hx => (hmem x.1 x.2).1 hx
    let owner : ConsumerRef → PeerRef := fun c => ((bound.heap c).subscriber).getD 0
    have howner : ∀ x ∈ sent, ∃ ctx data, bound.Recipient env.srtp plain
        (s.getOrCreatePeer ep env.pick).2 hdr.ssrc
        (hdr.payloadType ∈ (s.getOrCreatePeer ep env.pick).1.videoPTs) x.1 (owner x.1) ctx data ∧
        x.2 = bound.delivery plain x.1 (owner x.1) data := by
      intro x hx
      obtain ⟨S, ctx, data, hr, hd⟩ := hsub x hx
      have hS : owner x.1 = S := by
        simp only [owner, hl.wf.subscriber S x.1 hr.owned, Option.getD_some]
      rw [hS]
      exact ⟨ctx, data, hr, hd⟩
    refine ⟨sent.map fun x => (owner x.1, x.2), ?_, ?_, ?_⟩
    · rw [List.map_map, show (Prod.fst ∘ fun x : ConsumerRef × Datagram => (owner x.1, x.2)) =
        owner ∘ Prod.fst from rfl, ← List.map_map]
      refine List.Nodup.map_on (fun c hc c' hc' he => ?_) hn
      obtain ⟨x, hx, rfl⟩ := List.mem_map.1 hc
      obtain ⟨x', hx', rfl⟩ := List.mem_map.1 hc'
      obtain ⟨ctx, data, hr, -⟩ := howner x hx
      obtain ⟨ctx', data', hr', -⟩ := howner x' hx'
      rw [he] at hr
      exact hb.recipient_unique hl h0 hr hr'
    · rw [hout, List.map_map]
      exact hsent
    · intro y hy
      obtain ⟨x, hx, rfl⟩ := List.mem_map.1 hy
      obtain ⟨ctx, data, -, hd⟩ := howner x hx
      rw [hd]
      rfl

/-- A handshake that ends at once, and libsrtp as the identity. -/
def plainEnv : PacketEnv where
  pick := 0
  srtp := ⟨fun _ _ b => some b, fun _ _ b => some b⟩
  unprotect _ b := some b
  unprotectRtcp _ b := some b
  ice := []
  handshakeDone := true
  handshakeOut := []
  exportSrtpKeys := List.replicate 60 0
  srtpCreate := true

/-- Client s subscribes to the video of a twice, as two joins make it; both complete a handshake. -/
def subscribedTwice : List ServerOp :=
  [.addPeer {} "s", .addPeer {} "a", .addConsumer "s" "a" true default,
    .addConsumer "s" "a" true default,
    .sendOffer (fun _ _ _ => (none, {96})) "s" "" [⟨"0", "a", true⟩],
    .packet [22] ⟨1, 1⟩ plainEnv, .packet [22] ⟨2, 2⟩ plainEnv]

/-- A packet of a. -/
def mediaOfA : Bytes := [0x80, 96, 0, 1, 0, 0, 0, 0, 0, 0, 0, 7]

theorem one_copy_subscribedTwice :
    let s := exec step {} subscribedTwice
    (∃ sent : List (PeerRef × Datagram), (sent.map Prod.fst).Nodup ∧
      (s.handleSrtp mediaOfA ⟨2, 2⟩ plainEnv).2.filter (·.channel = .rtp) = sent.map Prod.snd ∧
      ∀ x ∈ sent, x.2.target =
        ((s.getOrCreatePeer ⟨2, 2⟩ plainEnv.pick).1.router.peers x.1).remoteEp) ∧
      (s.router.peers 0).consumers = [0, 1] ∧
      ((s.handleSrtp mediaOfA ⟨2, 2⟩ plainEnv).2.filter (·.channel = .rtp)).length = 1 := by
  refine ⟨one_copy subscribedTwice (fun op hop => ?_) mediaOfA ⟨2, 2⟩ plainEnv ?_, by decide,
    by decide⟩
  · simp only [subscribedTwice, List.mem_cons, List.not_mem_nil, or_false] at hop
    rcases hop with rfl | rfl | rfl | rfl | rfl | rfl | rfl <;> try trivial
    all_goals
      intro _ plain hplain hdr hhdr
      obtain rfl := Option.some.inj hplain
      cases hhdr
  · intro _ plain hplain hdr hhdr
    obtain rfl := Option.some.inj hplain
    obtain rfl := Option.some.inj hhdr
    decide

end MediaServer

end Namecon
