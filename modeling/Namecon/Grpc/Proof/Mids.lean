import Namecon.Grpc.Proof.Binding

/-!
# A mid and its stream

`SendOffer` binds the mids of the request to consumers of the subscriber, one after the other, and
then reads the mids of all of them back. Which consumer an entry selects does not depend on the mids
(`boundBy`), so the request leaves each consumer the mid of the last entry that selects it, or the
one it had (`newMid`, `heap_bindMids`). `mids_agree`: no mid stands for two streams as long as the
entries with one mid select one consumer and no other consumer is left that has it.
-/

namespace Namecon

open Runs (exec Always Meets)
open Function (update)

namespace Router

variable {r r' : Router} {S : PeerRef} {rm : RecvMid} {rms : List RecvMid} {c d : ConsumerRef}

/-- The consumer that an entry selects. -/
def boundBy (r : Router) (S : PeerRef) (rm : RecvMid) : Option ConsumerRef :=
  (r.peers S).consumers.find? fun c => r.bindsTo rm.publisherPeerId rm.isVideo (r.heap c)

/-- What `bindConsumerByMid` returns for an entry. -/
def boundSsrc (r : Router) (S : PeerRef) (rm : RecvMid) : UInt32 :=
  (r.boundBy S rm).elim 0 fun c => (r.heap c).rewrittenSsrc

/-- The mid of a consumer after the entries `rms`. -/
def newMid (r : Router) (S : PeerRef) (rms : List RecvMid) (d : ConsumerRef) : String :=
  rms.foldl (fun mid rm => if r.boundBy S rm = some d then rm.mid else mid) (r.heap d).recvMid

theorem bindConsumerByMid_eq : r.bindConsumerByMid S rm.publisherPeerId rm.isVideo rm.mid =
    ((r.boundBy S rm).elim r fun c => r.modifyConsumer c fun k => { k with recvMid := rm.mid },
      r.boundSsrc S rm) := by
  unfold bindConsumerByMid boundSsrc boundBy
  cases (r.peers S).consumers.find? _ <;> rfl

theorem boundBy_mem (h : r.boundBy S rm = some c) : c ∈ (r.peers S).consumers :=
  List.mem_of_find?_eq_some h

/-- `r'` differs from `r` in the mids of consumers only. -/
structure SameButMids (r r' : Router) : Prop where
  peers : r'.peers = r.peers
  heap : ∀ d, { r'.heap d with recvMid := (r.heap d).recvMid } = r.heap d

theorem SameButMids.boundBy (h : SameButMids r r') (S : PeerRef) (rm : RecvMid) :
    r'.boundBy S rm = r.boundBy S rm := by
  have hbinds : ∀ d, r'.bindsTo rm.publisherPeerId rm.isVideo (r'.heap d) =
      r.bindsTo rm.publisherPeerId rm.isVideo (r.heap d) := by
    intro d
    rw [← h.heap d]
    simp only [bindsTo, h.peers]
  simp only [Router.boundBy, h.peers, hbinds]

theorem SameButMids.rewrittenSsrc (h : SameButMids r r') (d : ConsumerRef) :
    (r'.heap d).rewrittenSsrc = (r.heap d).rewrittenSsrc := by
  rw [← h.heap d]

theorem heap_bind (d : ConsumerRef) :
    (r.bindConsumerByMid S rm.publisherPeerId rm.isVideo rm.mid).1.heap d =
      { r.heap d with
        recvMid := if r.boundBy S rm = some d then rm.mid else (r.heap d).recvMid } := by
  rw [bindConsumerByMid_eq]
  cases hb : r.boundBy S rm with
  | none => simp
  | some c =>
    dsimp only [Option.elim]
    by_cases hd : d = c
    · subst hd
      simp
    · rw [modifyConsumer_ne _ _ _ hd, if_neg fun he => hd (Option.some.inj he).symm]

theorem sameButMids_bind (rm : RecvMid) :
    SameButMids r (r.bindConsumerByMid S rm.publisherPeerId rm.isVideo rm.mid).1 := by
  refine ⟨?_, fun d => by rw [heap_bind]⟩
  rw [bindConsumerByMid_eq]
  cases r.boundBy S rm <;> rfl

theorem SameButMids.trans {r'' : Router} (h : SameButMids r r') (h' : SameButMids r' r'') :
    SameButMids r r'' where
  peers := h'.peers.trans h.peers
  heap d := by
    rw [← h.heap d, ← h'.heap d]

end Router

namespace MediaServer

open Router

variable {r r' : Router} {S : PeerRef} {rm : RecvMid} {rms : List RecvMid} {c d : ConsumerRef}

theorem sameButMids_bindMids (rms : List RecvMid) (r : Router) (m : String → Option UInt32) :
    SameButMids r (bindMids S rms (r, m)).1 := by
  induction rms generalizing r m with
  | nil => exact ⟨rfl, fun _ => rfl⟩
  | cons rm rms ih => exact (sameButMids_bind rm).trans (ih _ _)

/-- What the entries leave each consumer. -/
theorem heap_bindMids (rms : List RecvMid) (r : Router) (m : String → Option UInt32)
    (d : ConsumerRef) :
    (bindMids S rms (r, m)).1.heap d = { r.heap d with recvMid := r.newMid S rms d } := by
  induction rms generalizing r m with
  | nil => rfl
  | cons rm rms ih =>
    have hsame := sameButMids_bind (r := r) (S := S) rm
    rw [bindMids]
    dsimp only
    rw [ih, heap_bind]
    unfold newMid
    rw [List.foldl_cons, heap_bind]
    simp only [hsame.boundBy]

/-- The mid of a consumer is that of an entry that selects it, or its old one. -/
theorem newMid_cases (r : Router) (S : PeerRef) (rms : List RecvMid) (d : ConsumerRef) :
    (r.newMid S rms d = (r.heap d).recvMid ∧ ∀ rm ∈ rms, r.boundBy S rm ≠ some d) ∨
      ∃ rm ∈ rms, r.boundBy S rm = some d ∧ r.newMid S rms d = rm.mid :=
  ListFacts.foldl_ite_cases (fun rm => r.boundBy S rm = some d) RecvMid.mid rms _

theorem bindMids_snd (rms : List RecvMid) (r : Router) (m : String → Option UInt32)
    (mid : String) : (bindMids S rms (r, m)).2 mid = rms.foldl (fun v rm =>
      if rm.mid = mid ∧ r.boundSsrc S rm ≠ 0 then some (r.boundSsrc S rm) else v) (m mid) := by
  induction rms generalizing r m with
  | nil => rfl
  | cons rm rms ih =>
    have hsame := sameButMids_bind (r := r) (S := S) rm
    have hssrc : ∀ rm', (r.bindConsumerByMid S rm.publisherPeerId rm.isVideo rm.mid).1.boundSsrc S
        rm' = r.boundSsrc S rm' := by
      intro rm'
      simp only [boundSsrc, hsame.boundBy, hsame.rewrittenSsrc]
    rw [bindMids, ih, List.foldl_cons]
    simp only [hssrc]
    congr 1
    rw [bindConsumerByMid_eq]
    by_cases h0 : r.boundSsrc S rm = 0
    · simp [h0]
    · by_cases hmid : rm.mid = mid
      · subst hmid
        simp [h0]
      · simp [h0, hmid, Function.update_of_ne (Ne.symm hmid)]

/-- What is read back for a mid is the SSRC of a consumer that has it. -/
theorem getAllBoundSsrcs_some {mid : String} {ssrc : UInt32}
    (h : r.getAllBoundSsrcs S mid = some ssrc) : ∃ c ∈ (r.peers S).consumers,
      (r.heap c).recvMid = mid ∧ mid ≠ "" ∧ (r.heap c).rewrittenSsrc = ssrc := by
  have hfold : r.getAllBoundSsrcs S mid = (r.peers S).consumers.foldl (fun v c =>
      if (r.heap c).recvMid = mid ∧ mid ≠ "" then some (r.heap c).rewrittenSsrc else v) none := by
    unfold getAllBoundSsrcs
    generalize (r.peers S).consumers = cs
    have hgen : ∀ m : String → Option UInt32, (cs.foldl (fun result c =>
        if (r.heap c).recvMid.isEmpty then result
        else update result (r.heap c).recvMid (some (r.heap c).rewrittenSsrc)) m) mid =
        cs.foldl (fun v c => if (r.heap c).recvMid = mid ∧ mid ≠ "" then
          some (r.heap c).rewrittenSsrc else v) (m mid) := by
      induction cs with
      | nil => exact fun _ => rfl
      | cons c cs ih =>
        intro m
        rw [List.foldl_cons, List.foldl_cons, ih]
        congr 1
        by_cases hc : (r.heap c).recvMid = mid
        · subst hc
          by_cases he : (r.heap c).recvMid = ""
          · simp [he]
          · simp [he]
        · by_cases he : (r.heap c).recvMid.isEmpty
          · simp [he, hc]
          · simp [he, hc, Function.update_of_ne (Ne.symm hc)]
    exact hgen _
  rw [hfold] at h
  rcases ListFacts.foldl_ite_cases (fun c => (r.heap c).recvMid = mid ∧ mid ≠ "")
    (fun c => some (r.heap c).rewrittenSsrc) (r.peers S).consumers none with ⟨hnone, -⟩ |
    ⟨c, hc, ⟨hmid, hne⟩, hval⟩
  · rw [hnone] at h
    cases h
  · rw [hval] at h
    exact ⟨c, hc, hmid, hne, Option.some.inj h⟩

/-! ## One request -/

variable {s : MediaServer} {peerId : String}

/-- No two consumers of a subscriber have one mid. -/
def OneMid (r : Router) : Prop :=
  ∀ S, ∀ c ∈ (r.peers S).consumers, ∀ d ∈ (r.peers S).consumers,
    (r.heap c).recvMid = (r.heap d).recvMid → (r.heap c).recvMid ≠ "" → c = d

/-- The request announces for the mid of every entry whose bind succeeds the outgoing SSRC of the
consumer bound. -/
def Announces (s : MediaServer) : ServerOp → Prop
  | .sendOffer _ peerId _ recvMids => ∀ S, s.peers peerId = some S → ∀ rm ∈ recvMids, ∀ c,
    s.router.boundBy S rm = some c → (s.router.heap c).rewrittenSsrc ≠ 0 →
      (s.offerMids peerId recvMids).2 rm.mid = some (s.router.heap c).rewrittenSsrc
  | .addPeer .. | .addConsumer .. | .removePeer .. | .packet .. => True

/-- The entries keep the streams of `S` apart: those with the mid of an entry that selects a
consumer select no other, and any other consumer with that mid is selected by some entry. -/
def KeepsApart (r : Router) (S : PeerRef) (recvMids : List RecvMid) : Prop :=
  ∀ rm ∈ recvMids, ∀ c, r.boundBy S rm = some c →
    (∀ rm' ∈ recvMids, rm'.mid = rm.mid → ∀ c', r.boundBy S rm' = some c' → c' = c) ∧
    (rm.mid ≠ "" → ∀ d ∈ (r.peers S).consumers, d ≠ c → (r.heap d).recvMid = rm.mid →
      ∃ rm' ∈ recvMids, r.boundBy S rm' = some d)

/-- The entries of a request keep the streams of its peer apart. -/
def MidsApart (s : MediaServer) : ServerOp → Prop
  | .sendOffer _ peerId _ recvMids =>
    ∀ S, s.peers peerId = some S → KeepsApart s.router S recvMids
  | .addPeer .. | .addConsumer .. | .removePeer .. | .packet .. => True

theorem offerMids_eq (hS : s.peers peerId = some S) (rms : List RecvMid) :
    s.offerMids peerId rms =
      let bound := bindMids S rms (s.router, fun _ => none)
      (bound.1, fun mid => (bound.1.getAllBoundSsrcs S mid).or (bound.2 mid)) := by
  simp only [offerMids, findPeer, hS]

/-- A consumer that has the mid of an entry in the end is the one that the entry selects. -/
theorem KeepsApart.eq_of_newMid (h : KeepsApart r S rms) (hrm : rm ∈ rms)
    (hc : r.boundBy S rm = some c) (hd : d ∈ (r.peers S).consumers) (hne : rm.mid ≠ "")
    (hmid : r.newMid S rms d = rm.mid) : d = c := by
  obtain ⟨hsame, hother⟩ := h rm hrm c hc
  rcases newMid_cases r S rms d with ⟨hold, hnone⟩ | ⟨rm', hrm', hd', hnew⟩
  · by_contra hdc
    obtain ⟨rm', hrm', hsel⟩ := hother hne d hd hdc (hold.symm.trans hmid)
    exact hnone rm' hrm' hsel
  · exact hsame rm' hrm' (hnew.symm.trans hmid) d hd'

theorem KeepsApart.oneMid (h : KeepsApart r S rms) (hw : r.Wf) (hone : OneMid r)
    (m : String → Option UInt32) : OneMid (bindMids S rms (r, m)).1 := by
  intro S' c hc d hd hmid hne
  rw [(sameButMids_bindMids rms r m).peers] at hc hd
  rw [heap_bindMids] at hne
  rw [heap_bindMids, heap_bindMids] at hmid
  dsimp only at hmid hne
  -- a consumer that an entry selects is one of `S`
  rcases newMid_cases r S rms c with ⟨hcold, -⟩ | ⟨rm, hrm, hsel, hcnew⟩
  · rcases newMid_cases r S rms d with ⟨hdold, -⟩ | ⟨rm, hrm, hsel, hdnew⟩
    · rw [hcold] at hne
      rw [hcold, hdold] at hmid
      exact hone S' c hc d hd hmid hne
    · obtain rfl := hw.owner_unique hd (boundBy_mem hsel)
      rw [hmid, hdnew] at hne
      exact h.eq_of_newMid hrm hsel hc hne (hmid.trans hdnew)
  · obtain rfl := hw.owner_unique hc (boundBy_mem hsel)
    rw [hcnew] at hne
    exact (h.eq_of_newMid hrm hsel hd hne (hmid.symm.trans hcnew)).symm

theorem KeepsApart.announces (h : KeepsApart s.router S rms) (hS : s.peers peerId = some S)
    (hrm : rm ∈ rms) (hc : s.router.boundBy S rm = some c)
    (h0 : (s.router.heap c).rewrittenSsrc ≠ 0) :
    (s.offerMids peerId rms).2 rm.mid = some (s.router.heap c).rewrittenSsrc := by
  rw [offerMids_eq hS]
  dsimp only
  have hsame := sameButMids_bindMids (S := S) rms s.router fun _ => none
  cases hread : (bindMids S rms (s.router, fun _ => none)).1.getAllBoundSsrcs S rm.mid with
  | some ssrc =>
    obtain ⟨d, hd, hmid, hne, rfl⟩ := getAllBoundSsrcs_some hread
    rw [hsame.peers] at hd
    rw [heap_bindMids] at hmid
    rw [hsame.rewrittenSsrc, h.eq_of_newMid hrm hc hd hne hmid]
    rfl
  | none =>
    rw [Option.none_or, bindMids_snd]
    rcases ListFacts.foldl_ite_cases
      (fun rm' => rm'.mid = rm.mid ∧ s.router.boundSsrc S rm' ≠ 0)
      (fun rm' => some (s.router.boundSsrc S rm')) rms none with ⟨-, hnone⟩ |
      ⟨rm', hrm', ⟨hmid, hssrc⟩, hval⟩
    · have hssrc : s.router.boundSsrc S rm = (s.router.heap c).rewrittenSsrc := by
        rw [boundSsrc, hc]
        rfl
      exact absurd ⟨rfl, by rw [hssrc]; exact h0⟩ (hnone rm hrm)
    · -- the last entry with the mid selects the same consumer
      rw [hval]
      cases hc' : s.router.boundBy S rm' with
      | none =>
        rw [boundSsrc, hc'] at hssrc
        exact absurd rfl hssrc
      | some c' =>
        rw [boundSsrc, hc', (h rm hrm c hc).1 rm' hrm' hmid c' hc']
        rfl

/-! ## Runs -/

/-- The consumers that are there had their mids before. -/
def KeepsMids (r r' : Router) : Prop :=
  ∀ S, ∀ c ∈ (r'.peers S).consumers,
    (c ∈ (r.peers S).consumers ∧ (r'.heap c).recvMid = (r.heap c).recvMid) ∨
      (r'.heap c).recvMid = ""

theorem OneMid.keeps (h : OneMid r) (hk : KeepsMids r r') : OneMid r' := by
  intro S c hc d hd hmid hne
  rcases hk S c hc with ⟨hc, hcm⟩ | hcm
  · rcases hk S d hd with ⟨hd, hdm⟩ | hdm
    · rw [hcm] at hne
      rw [hcm, hdm] at hmid
      exact h S c hc d hd hmid hne
    · exact absurd (hmid.trans hdm) hne
  · exact absurd hcm hne

theorem forward_recvMid {o : SrtpOracle} {buf : Bytes} {hdr : RtpHeader}
    (hp : RtpHeader.parse buf = some hdr) (l : List ConsumerRef) (r : Router) (c : ConsumerRef) :
    ((forward o buf l r).1.heap c).recvMid = (r.heap c).recvMid := by
  induction l generalizing r with
  | nil => rfl
  | cons x l ih =>
    refine (ih _).trans ?_
    rcases forwardOne_cases r x with ⟨S, ctx, hx⟩ | hx
    · rw [forwardOne_receives hx hp]
      by_cases hc : c = x
      · subst hc
        split <;> simp [rewritten, countSent]
      · split <;> simp [modifyConsumer_ne _ _ _ hc]
    · rw [forwardOne_skip hx]

theorem onRtpPacket_recvMid {o : SrtpOracle} {P : PeerRef} (V : Finset UInt8) (buf : Bytes)
    (c : ConsumerRef) :
    ((r.onRtpPacket V o buf P).1.heap c).recvMid = (r.heap c).recvMid := by
  cases hp : RtpHeader.parse buf with
  | none => rw [onRtpPacket_short hp]
  | some hdr =>
    rw [onRtpPacket_parse hp]
    dsimp only
    rw [forward_recvMid hp]
    cases hf : r.findProducer P hdr.ssrc with
    | some p => rw [linkTargets_known hf]
    | none => rw [linkTargets_new hf, createProducer_field Consumer.recvMid fun _ => rfl]

theorem onPacket_recvMid (s : MediaServer) (data : Bytes) (ep : Endpoint) (env : PacketEnv)
    (c : ConsumerRef) :
    ((s.onPacket data ep env).1.router.heap c).recvMid = (s.router.heap c).recvMid := by
  have hgot : (s.getOrCreatePeer ep env.pick).1.router.heap = s.router.heap := by
    unfold getOrCreatePeer
    split
    · rfl
    · split <;> rfl
  have hrecv : ((s.getOrCreatePeer ep env.pick).1.router.heap c).recvMid =
      (s.router.heap c).recvMid := by
    rw [hgot]
  refine onPacket_cases (P := fun s' => (s'.router.heap c).recvMid = (s.router.heap c).recvMid)
    rfl ?_ ?_
  · exact handleDtls_cases (P := fun s' => (s'.router.heap c).recvMid = _) fun _ _ => hrecv
  · refine handleSrtp_cases (P := fun s' => (s'.router.heap c).recvMid = _) hrecv fun plain => ?_
    exact (onRtpPacket_recvMid ..).trans hrecv

/-- Of all operations an offer alone gives a consumer a mid. -/
theorem keepsMids_step (h : s.Sound) (op : ServerOp)
    (hop : ∀ g id sdp rms, op ≠ .sendOffer g id sdp rms) :
    KeepsMids s.router (s.step op).router := by
  intro S c hc
  cases op with
  | addPeer info id =>
    refine .inl ⟨?_, rfl⟩
    rwa [← (h.sameLinks_addPeer info id).consumers]
  | addConsumer sub pub v d =>
    simp only [step, addConsumer] at hc ⊢
    split at hc
    · rcases mem_addConsumer_consumers.1 hc with hc | ⟨rfl, rfl⟩
      · exact .inl ⟨hc, by rw [addConsumer_heap_old (h.wf.fresh c ⟨S, hc⟩)]⟩
      · exact .inr (by rw [addConsumer_heap_new]; rfl)
    · exact .inl ⟨hc, rfl⟩
  | sendOffer g id sdp rms => exact absurd rfl (hop g id sdp rms)
  | removePeer id =>
    simp only [step, removePeer] at hc ⊢
    split at hc
    · exact .inl ⟨hc, rfl⟩
    · refine .inl ⟨(mem_removePeer_consumers.1 hc).2, ?_⟩
      rw [removePeer_heap]
      unfold heapAfter
      split <;> rfl
  | packet data ep env =>
    refine .inl ⟨?_, onPacket_recvMid s data ep env c⟩
    rwa [← (h.sameSubscribers_onPacket data ep env).consumers]

theorem oneMid_step (h : s.Sound) (hone : OneMid s.router) (op : ServerOp) (hop : s.MidsApart op) :
    OneMid (s.step op).router := by
  cases op with
  | sendOffer g id sdp rms =>
    simp only [step, sendOffer]
    cases hS : s.peers id with
    | none =>
      simp only [offerMids, findPeer, hS]
      exact hone
    | some S =>
      rw [offerMids_eq hS]
      exact (hop S hS).oneMid h.wf hone _
  | addPeer info id => exact hone.keeps (keepsMids_step h _ (by simp))
  | addConsumer sub pub v d => exact hone.keeps (keepsMids_step h _ (by simp))
  | removePeer id => exact hone.keeps (keepsMids_step h _ (by simp))
  | packet data ep env => exact hone.keeps (keepsMids_step h _ (by simp))

theorem announces_of_midsApart (op : ServerOp) (hop : s.MidsApart op) : s.Announces op := by
  cases op with
  | sendOffer g id sdp rms => exact fun S hS rm hrm c hc h0 => (hop S hS).announces hS hrm hc h0
  | _ => trivial

/-- **A mid means one stream** in every run of RPCs and datagrams whose offers keep the mids of a
subscriber apart. -/
theorem mids_agree (ops : List ServerOp) (h : Meets step MidsApart {} ops) :
    Always step (fun s => OneMid s.router) {} ops ∧ Meets step Announces {} ops := by
  have hinv : Always step (fun s => s.Sound ∧ OneMid s.router) {} ops :=
    Runs.always_of_inv (fun s op hs hop => ⟨hs.1.step op, oneMid_step hs.1 hs.2 op hop⟩)
      ⟨sound_start, fun _ _ hc => absurd hc List.not_mem_nil⟩ h
  exact ⟨hinv.mono fun _ hs => hs.2, h.mono fun s op hop => announces_of_midsApart op hop⟩

/-- An offer of client s that binds the mid 1 to the video of `publisher`. -/
def bindOne (publisher : String) : ServerOp :=
  .sendOffer (fun _ _ v => (none, v)) "s" "" [⟨"1", publisher, true⟩]

/-- Client s subscribes to the video of b and of a. -/
def subscribeBoth : List ServerOp :=
  [.addPeer {} "s", .addPeer {} "a", .addPeer {} "b", .addConsumer "s" "b" true default,
    .addConsumer "s" "a" true default]

theorem mids_agree_one :
    Always step (fun s => OneMid s.router) {} (subscribeBoth ++ [bindOne "a"]) ∧
      Meets step Announces {} (subscribeBoth ++ [bindOne "a"]) := by
  refine mids_agree _ (Runs.meets_append.2 ⟨?_, ?_, trivial⟩)
  · exact ⟨trivial, trivial, trivial, trivial, trivial, trivial⟩
  · intro S hS rm hrm c hc
    have hS0 : (exec step {} subscribeBoth).peers "s" = some 0 := by decide
    obtain rfl : 0 = S := Option.some.inj (hS0.symm.trans hS)
    obtain rfl := List.mem_singleton.1 hrm
    refine ⟨fun rm' hrm' _ c' hc' => ?_, fun _ d hd _ hmid => ?_⟩
    · obtain rfl := List.mem_singleton.1 hrm'
      exact Option.some.inj (hc'.symm.trans hc)
    · have hall : ∀ d ∈ ((exec step {} subscribeBoth).router.peers 0).consumers,
          ((exec step {} subscribeBoth).router.heap d).recvMid = "" := by decide
      rw [hall d hd] at hmid
      exact absurd hmid (by decide)

/-- The browser has the mid 1 for the video of a; a leaves, and the browser reuses the mid for the
video of b. -/
theorem mid_reused :
    ¬ (Always step (fun s => OneMid s.router) {}
        (subscribeBoth ++ [bindOne "a", .removePeer "a", bindOne "b"]) ∧
      Meets step Announces {} (subscribeBoth ++ [bindOne "a", .removePeer "a", bindOne "b"])) := by
  intro h
  exact absurd (h.1.last 0 0 (by decide) 1 (by decide) (by decide) (by decide)) (by decide)

end MediaServer

end Namecon
