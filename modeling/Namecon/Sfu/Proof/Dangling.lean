import Namecon.Sfu.Proof.Forward

/-!
# Dangling subscriptions

Producer lists hold raw `Consumer*`. `removePeer` destroys the consumers of the peer that leaves
and takes them out of the lists it finds by `publisherSsrc`; a stream with the SSRC 0 is never
found, since 0 also means "not linked yet".

* `always_noDangling_iff`: along a run no list ever holds a destroyed consumer exactly when no
  `removePeer` step destroys a consumer listed by a stream with the SSRC 0 (`KeepsOwner`).
* `link_invariant`: without packets of the SSRC 0 the links are right in both directions in every
  reachable state.
-/

namespace Namecon.Router

open Runs (exec Always Meets)

variable {r r' : Router} {X Q : PeerRef}

/-- Every consumer in the list of a producer is still owned. -/
def NoDangling (r : Router) : Prop := ∀ P p c, r.Listed P p c → r.Owned c

/-- No peer sends a stream with the SSRC 0. -/
def NoZero (r : Router) : Prop := ∀ P, ∀ p ∈ (r.peers P).producers, p.originalSsrc ≠ 0

/-- The step does not destroy a consumer that a stream of another peer with the SSRC 0 lists. -/
def KeepsOwner (r : Router) : RouterOp → Prop
  | .removePeer X => ∀ P, P ≠ X → ∀ p ∈ (r.peers P).producers, p.originalSsrc = 0 →
      ∀ c ∈ p.consumers, c ∉ (r.peers X).consumers
  | _ => True

/-! ## The steps -/

theorem NoDangling.frame (h : r.NoDangling) (hs : SameLinks r r') : r'.NoDangling :=
  fun P p c hl => (hs.owned c).2 (h P p c ((hs.listed P p c).1 hl))

theorem NoDangling.addConsumer {S P : PeerRef} {v : Bool} {d : SsrcDraw} (hw : r.Wf)
    (h : r.NoDangling) : (r.addConsumer S P v d).1.NoDangling := by
  intro Q p c hl
  rw [owned_addConsumer]
  obtain ⟨p, hp, -, hc | ⟨rfl, -⟩⟩ := (listed_addConsumer hw).1 hl
  · exact .inl (h Q p c ⟨hp, hc⟩)
  · exact .inr rfl

theorem NoDangling.linkTargets {o : SrtpOracle} {P : PeerRef} {s : UInt32} {v : Bool} (hw : r.Wf)
    (h : r.NoDangling) : (r.linkTargets o P s v).1.NoDangling := by
  cases hf : r.findProducer P s with
  | some p => rw [linkTargets_known hf]; exact h
  | none =>
    rw [linkTargets_new hf]
    intro Q p c hl
    rw [owned_createProducer hw]
    rcases (listed_createProducer (o := o) hw).1 hl with hl | ⟨-, -, hc⟩
    · exact h Q p c hl
    · exact (hw.mem_waitingFor.1 hc).1

/-- ② finds a list of the consumers of `X` exactly where the SSRC of the stream is not 0. -/
theorem Wf.drops_iff (hw : r.Wf) (hQ : Q ≠ X) {p : Producer} {c : ConsumerRef}
    (hl : r.Listed Q p c) : Drops (r.heapAfter X) Q p.originalSsrc c ↔ p.originalSsrc ≠ 0 := by
  obtain ⟨hP, -, hs⟩ := hw.listLink Q p c hl
  unfold Drops
  rw [hw.heapAfter_eq hQ hl]
  exact ⟨fun h => h.2.2, fun h => ⟨hP, hs h, h⟩⟩

theorem noDangling_removePeer (hw : r.Wf) (h : r.NoDangling) :
    (r.removePeer X).NoDangling ↔ r.KeepsOwner (.removePeer X) := by
  constructor
  · intro hd P hP p hp h0 c hc hX
    have hl : (r.removePeer X).Listed P (r.afterRemove X P p) c :=
      (listed_removePeer hw).2 ⟨hP, p, ⟨hp, hc⟩, rfl,
        fun hd => (hw.drops_iff hP ⟨hp, hc⟩).1 hd.2 h0⟩
    exact ((owned_removePeer hw).1 (hd P _ c hl)).2 hX
  · intro hk P p' c hl'
    obtain ⟨hP, p, hl, -, hd⟩ := (listed_removePeer hw).1 hl'
    refine (owned_removePeer hw).2 ⟨h P p c hl, fun hX => hd ⟨hX, ?_⟩⟩
    exact (hw.drops_iff hP hl).2 fun h0 => hk P hP p hl.1 h0 c hl.2 hX

theorem noDangling_step (hw : r.Wf) (h : r.NoDangling) (op : RouterOp) :
    (r.step op).NoDangling ↔ r.KeepsOwner op := by
  cases op with
  | addConsumer S P v d => exact iff_of_true (h.addConsumer hw) trivial
  | removePeer X => exact noDangling_removePeer hw h
  | bindConsumerByMid S pid v mid =>
    exact iff_of_true (h.frame (sameLinks_bind r S pid v mid)) trivial
  | onRtpPacket V o buf P =>
    refine iff_of_true ?_ trivial
    simp only [step]
    cases hp : RtpHeader.parse buf with
    | none => rw [onRtpPacket_short hp]; exact h
    | some hdr =>
      rw [onRtpPacket_parse hp]
      exact (h.linkTargets hw).frame (sameLinks_forward hp _ _)
  | setTransport p ep d x => exact iff_of_true (h.frame (sameLinks_setTransport r p ep d x)) trivial

/-! ## Runs -/

theorem wf_start (ids : PeerRef → String) : (start ids).Wf := .of_fresh (fresh_start ids)

theorem noDangling_start (ids : PeerRef → String) : (start ids).NoDangling :=
  fun _ _ _ hl => absurd hl.1 List.not_mem_nil

/-- **When the forwarding loop never visits a destroyed consumer.** -/
theorem always_noDangling_iff (ids : PeerRef → String) (ops : List RouterOp) :
    Always step NoDangling (start ids) ops ↔ Meets step KeepsOwner (start ids) ops :=
  Runs.always_iff_meets (I := Wf) (fun _ op hw => hw.step op)
    (fun _ op hw h => noDangling_step hw h op) (wf_start ids) (noDangling_start ids)

/-- Peer 1 subscribes to the audio of peer 2, which sends one packet with the SSRC 0; then peer 1
leaves. -/
def zeroRun : List RouterOp :=
  [.addConsumer 1 2 false default,
    .onRtpPacket ∅ ⟨fun _ _ b => some b, fun _ _ b => some b⟩
      [0x80, 111, 0, 1, 0, 0, 0, 0, 0, 0, 0, 0] 2,
    .removePeer 1]

theorem zeroRun_dangles : ¬ NoDangling (exec step (start toString) zeroRun) := by
  intro h
  have hw : (exec step (start toString) zeroRun).Wf := (wf_start toString).exec zeroRun
  have ho := h 2 ⟨2, 0, false, [0]⟩ 0 ⟨by decide, by decide⟩
  exact absurd (hw.mem_allConsumers.2 ho) (by decide)

/-! ## Runs without the SSRC 0 -/

/-- A step gives a peer no producer but for the packet that starts its stream. -/
theorem producer_step (hw : r.Wf) (op : RouterOp) {p' : Producer}
    (hp' : p' ∈ ((r.step op).peers Q).producers) :
    (∃ p ∈ (r.peers Q).producers, p.originalSsrc = p'.originalSsrc ∧ p.isVideo = p'.isVideo) ∨
      ∃ V o buf hdr, op = .onRtpPacket V o buf Q ∧ RtpHeader.parse buf = some hdr ∧
        p'.originalSsrc = hdr.ssrc ∧ p'.isVideo = decide (hdr.payloadType ∈ V) := by
  cases op with
  | addConsumer S P v d =>
    simp only [step] at hp'
    rw [addConsumer_producers hw.ssrcNodup] at hp'
    split at hp'
    · rename_i hQ
      obtain ⟨p, hp, rfl⟩ := List.mem_map.1 hp'
      exact .inl ⟨p, hQ ▸ hp, (relink_ssrc p).symm, (relink_isVideo p).symm⟩
    · exact .inl ⟨p', hp', rfl, rfl⟩
  | removePeer X =>
    obtain ⟨-, p, hp, rfl⟩ := (mem_removePeer_producers hw).1 hp'
    exact .inl ⟨p, hp, rfl, rfl⟩
  | bindConsumerByMid S pid v mid =>
    simp only [step] at hp'
    rw [(sameLinks_bind r S pid v mid).producers] at hp'
    exact .inl ⟨p', hp', rfl, rfl⟩
  | onRtpPacket V o buf P =>
    simp only [step] at hp'
    cases hb : RtpHeader.parse buf with
    | none =>
      rw [onRtpPacket_short hb] at hp'
      exact .inl ⟨p', hp', rfl, rfl⟩
    | some hdr =>
      rw [onRtpPacket_parse hb, (sameLinks_forward hb _ _).producers] at hp'
      cases hf : r.findProducer P hdr.ssrc with
      | some p =>
        rw [linkTargets_known hf] at hp'
        exact .inl ⟨p', hp', rfl, rfl⟩
      | none =>
        rw [linkTargets_new hf] at hp'
        rcases (mem_createProducer_producers (o := o) hw).1 hp' with hp | ⟨rfl, rfl⟩
        · exact .inl ⟨p', hp, rfl, rfl⟩
        · exact .inr ⟨V, o, buf, hdr, rfl, hb, rfl, rfl⟩
  | setTransport p ep d x =>
    simp only [step] at hp'
    rw [(sameLinks_setTransport r p ep d x).producers] at hp'
    exact .inl ⟨p', hp', rfl, rfl⟩

theorem NoZero.step (hw : r.Wf) (h : r.NoZero) {op : RouterOp} (hop : op.NoZeroPacket) :
    (r.step op).NoZero := by
  intro Q p' hp'
  rcases producer_step hw op hp' with ⟨p, hp, hs, -⟩ | ⟨V, o, buf, hdr, rfl, hb, hs, -⟩
  · rw [← hs]; exact h Q p hp
  · rw [hs]; exact hop hdr hb

theorem NoZero.keepsOwner (h : r.NoZero) (op : RouterOp) : r.KeepsOwner op := by
  cases op with
  | removePeer X => exact fun P _ p hp h0 => absurd h0 (h P p hp)
  | _ => trivial

/-- What holds of the links in runs without the SSRC 0. -/
structure Linked (r : Router) : Prop where
  wf : r.Wf
  noZero : r.NoZero
  noDangling : r.NoDangling

theorem linked_start (ids : PeerRef → String) : (start ids).Linked :=
  ⟨wf_start ids, fun _ _ hp => absurd hp List.not_mem_nil, noDangling_start ids⟩

theorem Linked.step (h : r.Linked) {op : RouterOp} (hop : op.NoZeroPacket) : (r.step op).Linked :=
  ⟨h.wf.step op, h.noZero.step h.wf hop,
    (noDangling_step h.wf h.noDangling op).2 (h.noZero.keepsOwner op)⟩

theorem Linked.exec (h : r.Linked) {ops : List RouterOp} (hops : ∀ op ∈ ops, op.NoZeroPacket) :
    (exec Router.step r ops).Linked :=
  Runs.exec_inv (I := Linked) (G := fun _ => RouterOp.NoZeroPacket) (fun _ _ h hop => h.step hop) h
    (Runs.meets_of_forall hops)

/-- A list holds exactly the consumers of its stream that are still owned. -/
theorem Linked.mem_list (h : r.Linked) {p : Producer} (hp : p ∈ (r.peers Q).producers)
    {c : ConsumerRef} : c ∈ p.consumers ↔ r.Owned c ∧ (r.heap c).publisher = some Q ∧
      (r.heap c).publisherSsrc = p.originalSsrc := by
  have hiff := fun hc => h.wf.mem_list hp (h.noZero Q p hp) (c := c) hc
  exact ⟨fun hc => have ho := h.noDangling Q p c ⟨hp, hc⟩; ⟨ho, (hiff ho).1 hc⟩,
    fun hc => (hiff hc.1).2 hc.2⟩

/-- The links between producers and consumers, in both directions. -/
structure LinkInvariant (r : Router) : Prop where
  distinct : ∀ P, ((r.peers P).producers.map (·.originalSsrc)).Nodup
  nodup : ∀ P, ∀ p ∈ (r.peers P).producers, p.consumers.Nodup
  member : ∀ P, ∀ p ∈ (r.peers P).producers, ∀ c ∈ p.consumers,
    (∃ S, (r.heap c).subscriber = some S ∧ c ∈ (r.peers S).consumers) ∧
      (r.heap c).publisher = some P ∧ (r.heap c).isVideo = p.isVideo ∧
      (r.heap c).publisherSsrc = p.originalSsrc
  converse : ∀ S, ∀ c ∈ (r.peers S).consumers, ∀ P, (r.heap c).publisher = some P →
    (r.heap c).publisherSsrc ≠ 0 → ∃ p ∈ (r.peers P).producers,
      p.originalSsrc = (r.heap c).publisherSsrc ∧ c ∈ p.consumers ∧
      ∀ Q, ∀ q ∈ (r.peers Q).producers, c ∈ q.consumers → Q = P ∧ q = p

theorem Linked.linkInvariant (h : r.Linked) : r.LinkInvariant where
  distinct := h.wf.ssrcNodup
  nodup := h.wf.listNodup
  member P p hp c hc := by
    obtain ⟨⟨S, hS⟩, hP, hs⟩ := (h.mem_list hp).1 hc
    exact ⟨⟨S, h.wf.subscriber S c hS, hS⟩, hP, (h.wf.listLink P p c ⟨hp, hc⟩).2.1, hs⟩
  converse S c hc P hP h0 := by
    obtain ⟨p, hl, hs⟩ := h.wf.linked c P ⟨S, hc⟩ hP h0
    refine ⟨p, hl.1, hs, hl.2, fun Q q hq hcq => ?_⟩
    obtain ⟨-, hQ, hqs⟩ := (h.mem_list hq).1 hcq
    obtain rfl := Option.some.inj (hQ.symm.trans hP)
    exact ⟨rfl, h.wf.producer_ext hq hl.1 (hqs.symm.trans hs.symm)⟩

/-- **The link invariant** of runs without packets of the SSRC 0. -/
theorem link_invariant (ids : PeerRef → String) (ops : List RouterOp)
    (hops : ∀ op ∈ ops, op.NoZeroPacket) : (exec step (start ids) ops).LinkInvariant :=
  ((linked_start ids).exec hops).linkInvariant

/-- Peers 1 and 2 subscribe to each other's audio, 1 also to its own; both send, then 1 leaves and
sends again. -/
def crossRun : List RouterOp :=
  [.addConsumer 1 2 false default,
    .addConsumer 2 1 false ⟨0x40000001, by decide, by decide⟩,
    .addConsumer 1 1 false ⟨0x40000002, by decide, by decide⟩,
    .onRtpPacket ∅ ⟨fun _ _ b => some b, fun _ _ b => some b⟩
      [0x80, 111, 0, 1, 0, 0, 0, 0, 0, 0, 0, 7] 2,
    .onRtpPacket ∅ ⟨fun _ _ b => some b, fun _ _ b => some b⟩
      [0x80, 111, 0, 1, 0, 0, 0, 0, 0, 0, 0, 8] 1,
    .removePeer 1,
    .onRtpPacket ∅ ⟨fun _ _ b => some b, fun _ _ b => some b⟩
      [0x80, 111, 0, 1, 0, 0, 0, 0, 0, 0, 0, 9] 1]

theorem link_invariant_crossRun : LinkInvariant (exec step (start toString) crossRun) :=
  link_invariant toString crossRun (by decide)

end Namecon.Router
