import Namecon.Grpc.Proof.Sound
import Namecon.Transport.Proof.Keyed

/-!
# What the router refers to

The router keeps raw pointers to peers that `_peers`, `_pendingPeers` and `_peerMap` own (`Owns`,
`RefersTo`). `RemovePeer` takes a peer out of the first and tells the router; `AddPeer` with an id
that is in use overwrites the entries of `_peers` and `_pendingPeers` and does not.
`always_safe_iff`: the router never refers to a peer that is gone exactly when no `AddPeer` replaces
a pending peer that it still refers to.
-/

namespace Namecon

open Runs (exec Always Meets)

namespace Router

variable {r : Router} {S P Q X : PeerRef} {v : Bool} {d : SsrcDraw} {o : SrtpOracle} {ssrc : UInt32}

/-! ## The route table -/

theorem addConsumer_table : (r.addConsumer S P v d).1.table = r.table := by
  unfold addConsumer linkNew
  dsimp only
  split <;> rfl

theorem bindConsumerByMid_table (pid mid : String) :
    (r.bindConsumerByMid S pid v mid).1.table = r.table := by
  unfold bindConsumerByMid
  split <;> rfl

theorem foldl_table {f : Router → ConsumerRef → Router} (hf : ∀ r c, (f r c).table = r.table)
    (l : List ConsumerRef) (r : Router) : (l.foldl f r).table = r.table := by
  induction l generalizing r with
  | nil => rfl
  | cons c l ih => exact (ih (f r c)).trans (hf r c)

theorem removePeer_table (h : (r.removePeer X).table ssrc = some Q) : r.table ssrc = some Q := by
  have hretire : ∀ (r : Router) c, (r.retire c).table = r.table := fun _ _ => rfl
  have hunsub : ∀ (r : Router) c, (r.unsubscribe c).table = r.table := by
    intro r c
    unfold unsubscribe unlink
    dsimp only
    split <;> rfl
  have hfold : (r.afterUnsubscribe X).table = r.table :=
    (foldl_table hunsub _ _).trans (foldl_table hretire _ r)
  change (if (r.afterUnsubscribe X).table ssrc = some X then none
    else (r.afterUnsubscribe X).table ssrc) = some Q at h
  rw [hfold] at h
  split at h
  · cases h
  · exact h

theorem linkWaiting_table (s : UInt32) (l : List ConsumerRef) (r : Router) :
    (linkWaiting P s v l r).1.table = r.table := by
  induction l generalizing r with
  | nil => rfl
  | cons c l ih =>
    unfold linkWaiting
    split
    · exact ih _
    · exact ih r

theorem forward_table {hdr : RtpHeader} {buf : Bytes} (hp : RtpHeader.parse buf = some hdr)
    (l : List ConsumerRef) (r : Router) : (forward o buf l r).1.table = r.table := by
  induction l generalizing r with
  | nil => rfl
  | cons c l ih =>
    obtain ⟨k, hk, -⟩ := forwardOne_modify (o := o) hp r c
    refine (ih _).trans ?_
    rw [hk]
    rfl

/-- A packet enters its sender in the table and nobody else. -/
theorem onRtpPacket_table {V : Finset UInt8} {buf : Bytes}
    (h : (r.onRtpPacket V o buf P).1.table ssrc = some Q) : r.table ssrc = some Q ∨ Q = P := by
  cases hp : RtpHeader.parse buf with
  | none =>
    rw [onRtpPacket_short hp] at h
    exact .inl h
  | some hdr =>
    rw [onRtpPacket_parse hp] at h
    dsimp only at h
    rw [forward_table hp] at h
    cases hf : r.findProducer P hdr.ssrc with
    | some p =>
      rw [linkTargets_known hf] at h
      exact .inl h
    | none =>
      rw [linkTargets_new hf] at h
      simp only [createProducer, modifyPeer, linkWaiting_table] at h
      by_cases hs : ssrc = hdr.ssrc
      · rw [hs, Function.update_self] at h
        exact .inr (Option.some.inj h).symm
      · rw [Function.update_of_ne hs] at h
        exact .inl h

theorem onRtpPacket_allPeers {V : Finset UInt8} {buf : Bytes} :
    (r.onRtpPacket V o buf P).1.allPeers = r.allPeers := by
  cases hp : RtpHeader.parse buf with
  | none => rw [onRtpPacket_short hp]
  | some hdr =>
    rw [onRtpPacket_parse hp]
    dsimp only
    rw [(sameLinks_forward hp _ _).allPeers]
    cases hf : r.findProducer P hdr.ssrc with
    | some p => rw [linkTargets_known hf]
    | none => rw [linkTargets_new hf, createProducer_rest.2.1]

end Router

namespace MediaServer

open Router

variable {s s' : MediaServer} {P Q : PeerRef} {ep : Endpoint} {env : PacketEnv} {data : Bytes}

/-- One of the three maps owns the peer. -/
def Owns (s : MediaServer) (P : PeerRef) : Prop :=
  (∃ id, s.peers id = some P) ∨ (∃ id, (id, P) ∈ s.pendingPeers) ∨ ∃ ep, s.peerMap ep = some P

/-- A peer that exists owns the consumer. -/
def Live (s : MediaServer) (c : ConsumerRef) : Prop :=
  ∃ S, s.Owns S ∧ c ∈ (s.router.peers S).consumers

/-- The router has a pointer to the peer. -/
def RefersTo (s : MediaServer) (P : PeerRef) : Prop :=
  P ∈ s.router.allPeers ∨
    (∃ c, s.Live c ∧
      ((s.router.heap c).publisher = some P ∨ (s.router.heap c).subscriber = some P)) ∨
    ∃ ssrc, s.router.table ssrc = some P

/-- Every peer the router refers to exists. -/
def Safe (s : MediaServer) : Prop := ∀ P, s.RefersTo P → s.Owns P

/-- An `AddPeer` replaces no pending peer that the router refers to. -/
def NoneReplaced (s : MediaServer) : ServerOp → Prop
  | .addPeer _ peerId => ∀ P, (peerId, P) ∈ s.pendingPeers → ¬ s.RefersTo P
  | .addConsumer .. | .sendOffer .. | .removePeer .. | .packet .. => True

/-- The invariants of the server that ownership rests on. -/
structure Kept (s : MediaServer) : Prop where
  sound : s.Sound
  keyed : s.Keyed

theorem Kept.step (h : s.Kept) (op : ServerOp) : (s.step op).Kept :=
  ⟨h.sound.step op, h.keyed.step op⟩

/-- A subscriber is registered, so it is enough to look at the publishers of the consumers. -/
theorem Kept.refersTo_iff (h : s.Kept) : s.RefersTo P ↔ P ∈ s.router.allPeers ∨
    (∃ c, s.Live c ∧ (s.router.heap c).publisher = some P) ∨
    ∃ ssrc, s.router.table ssrc = some P := by
  constructor
  · intro hr
    rcases hr with hall | ⟨c, hc, hpub | hsub⟩ | htab
    · exact .inl hall
    · exact .inr (.inl ⟨c, hc, hpub⟩)
    · obtain ⟨S, -, hcS⟩ := hc
      obtain rfl : S = P :=
        Option.some.inj ((h.sound.wf.subscriber S c hcS).symm.trans hsub)
      exact .inl (h.sound.wf.registered S c hcS)
    · exact .inr (.inr htab)
  · intro hr
    rcases hr with hall | ⟨c, hc, hpub⟩ | htab
    · exact .inl hall
    · exact .inr (.inl ⟨c, hc, .inl hpub⟩)
    · exact .inr (.inr htab)

/-! ## Operations that drop no peer -/

/-- The peers owned stay owned, and the router refers to no peer it did not refer to but to one that
is owned. -/
structure Careful (s s' : MediaServer) : Prop where
  owns : ∀ P, s.Owns P → s'.Owns P
  refers : ∀ P, s'.RefersTo P → s.RefersTo P ∨ s'.Owns P

theorem Careful.safe (h : Careful s s') (hs : s.Safe) : s'.Safe := by
  intro P hP
  rcases h.refers P hP with hold | hown
  · exact h.owns P (hs P hold)
  · exact hown

/-- The three places the router keeps pointers in, one by one. -/
theorem Kept.careful (h : s.Kept) (h' : s'.Kept) (howns : ∀ P, s.Owns P → s'.Owns P)
    (hall : ∀ P ∈ s'.router.allPeers, P ∈ s.router.allPeers ∨ s'.Owns P)
    (hlive : ∀ c P, s'.Live c → (s'.router.heap c).publisher = some P →
      (s.Live c ∧ (s.router.heap c).publisher = some P) ∨ s'.Owns P)
    (htable : ∀ ssrc P, s'.router.table ssrc = some P →
      s.router.table ssrc = some P ∨ s'.Owns P) : Careful s s' := by
  refine ⟨howns, fun P hP => ?_⟩
  rw [h'.refersTo_iff] at hP
  rw [h.refersTo_iff]
  rcases hP with hP | ⟨c, hc, hP⟩ | ⟨ssrc, hP⟩
  · exact (hall P hP).imp_left .inl
  · exact (hlive c P hc hP).imp_left fun hold => .inr (.inl ⟨c, hold⟩)
  · exact (htable ssrc P hP).imp_left fun hold => .inr (.inr ⟨ssrc, hold⟩)

/-- `s'` has the maps of `s`. -/
theorem owns_congr (hp : s'.peers = s.peers) (hw : s'.pendingPeers = s.pendingPeers)
    (hm : s'.peerMap = s.peerMap) (P : PeerRef) : s'.Owns P ↔ s.Owns P := by
  simp only [Owns, hp, hw, hm]

theorem Kept.careful_addConsumer (h : s.Kept) (sub pub : String) (v : Bool) (d : SsrcDraw) :
    Careful s (s.addConsumer sub pub v d).1 := by
  have h' := h.step (.addConsumer sub pub v d)
  simp only [MediaServer.step] at h'
  unfold MediaServer.addConsumer at h' ⊢
  split at h'
  · rename_i S P hS hP
    refine h.careful h' (fun _ hQ => hQ) (fun Q hQ => ?_) (fun c Q hc hQ => ?_) fun ssrc Q hQ => ?_
    · dsimp only at hQ
      rw [addConsumer_allPeers, mem_registerPeer, mem_registerPeer] at hQ
      rcases hQ with (hQ | rfl) | rfl
      · exact .inl hQ
      · exact .inr (.inl ⟨sub, hS⟩)
      · exact .inr (.inl ⟨pub, hP⟩)
    · obtain ⟨S', hS', hc⟩ := hc
      dsimp only at hQ
      rcases mem_addConsumer_consumers.1 hc with hc | ⟨rfl, rfl⟩
      · rw [addConsumer_heap_old (h.sound.wf.fresh c ⟨S', hc⟩)] at hQ
        exact .inl ⟨⟨S', hS', hc⟩, hQ⟩
      · rw [addConsumer_heap_new] at hQ
        obtain rfl : P = Q := Option.some.inj hQ
        exact .inr (.inl ⟨pub, hP⟩)
    · dsimp only at hQ
      rw [addConsumer_table] at hQ
      exact .inl hQ
  · exact ⟨fun _ hP => hP, fun _ hP => .inl hP⟩

theorem bindMids_table (S : PeerRef) (rms : List RecvMid)
    (acc : Router × (String → Option UInt32)) : (bindMids S rms acc).1.table = acc.1.table := by
  induction rms generalizing acc with
  | nil => rfl
  | cons rm rms ih => exact (ih _).trans (bindConsumerByMid_table _ _)

theorem Kept.careful_sendOffer (h : s.Kept) (g : GenerateAnswer) (peerId sdp : String)
    (rms : List RecvMid) : Careful s (s.sendOffer g peerId sdp rms).1 := by
  have hlinks := sameLinks_sendOffer s g peerId sdp rms
  have htable : (s.sendOffer g peerId sdp rms).1.router.table = s.router.table := by
    simp only [sendOffer, offerMids]
    split
    · rfl
    · exact bindMids_table _ _ _
  refine h.careful (h.step (.sendOffer g peerId sdp rms)) (fun _ hP => hP) (fun P hP => .inl ?_)
    (fun c P hc hP => .inl ?_) fun ssrc P hP => .inl ?_
  · rwa [← hlinks.allPeers]
  · obtain ⟨S, hS, hc⟩ := hc
    rw [hlinks.consumers] at hc
    rw [(hlinks.heap c).publisher] at hP
    exact ⟨⟨S, hS, hc⟩, hP⟩
  · rwa [← htable]

theorem Kept.careful_removePeer (h : s.Kept) (id : String) : Careful s (s.removePeer id) := by
  have h' := h.step (.removePeer id)
  simp only [MediaServer.step] at h'
  unfold MediaServer.removePeer at h' ⊢
  split at h'
  · exact ⟨fun _ hP => hP, fun _ hP => .inl hP⟩
  · rename_i X hX
    -- the peer removed waits or is bound, so a map still owns it
    have howns :
        ∀ P, s.Owns P → (∃ id, (id, P) ∈ s.pendingPeers) ∨ ∃ ep, s.peerMap ep = some P := by
      intro P hP
      rcases hP with ⟨id', hP⟩ | hP | hP
      · exact (h.sound.pool.registered id' P hP).imp_left fun he => ⟨id', he⟩
      · exact .inl hP
      · exact .inr hP
    refine h.careful h' (fun P hP => .inr (howns P hP)) (fun P hP => .inl ?_)
      (fun c P hc hP => .inl ?_) fun ssrc P hP => .inl (removePeer_table hP)
    · dsimp only at hP
      rw [removePeer_allPeers] at hP
      exact (List.mem_filter.1 hP).1
    · obtain ⟨S, hS, hc⟩ := hc
      dsimp only at hP
      rw [removePeer_heap, heapAfter_publisher] at hP
      refine ⟨⟨S, ?_, (mem_removePeer_consumers.1 hc).2⟩, hP.2⟩
      rcases hS with ⟨id', hS⟩ | hS | hS
      · by_cases hid : id' = id
        · subst hid
          simp at hS
        · exact .inl ⟨id', by simpa [hid] using hS⟩
      · exact .inr (.inl hS)
      · exact .inr (.inr hS)

/-! ## Datagrams -/

/-- Binding an endpoint hands a peer from one map to the other, or makes one. -/
theorem owns_getOrCreatePeer (s : MediaServer) (h : s.Tables) (ep : Endpoint) (pick : Nat)
    (P : PeerRef) : (s.Owns P → (s.getOrCreatePeer ep pick).1.Owns P) ∧
      ((s.getOrCreatePeer ep pick).1.Owns P → s.Owns P ∨ P = s.nextPeer) := by
  cases hm : s.peerMap ep with
  | some q =>
    rw [getOrCreatePeer_known hm]
    exact ⟨fun hP => hP, .inl⟩
  | none =>
    cases hb : s.pendingBegin pick with
    | none =>
      rw [getOrCreatePeer_made hm hb]
      constructor
      · intro hP
        refine hP.imp (fun hP => hP) (Or.imp (fun hP => hP) fun hP => ?_)
        exact hP.imp fun ep' hP => bindEndpoint_peerMap _ hm hP
      · intro hP
        rcases hP with hP | hP | ⟨ep', hP⟩
        · exact .inl (.inl hP)
        · exact .inl (.inr (.inl hP))
        · rcases bindEndpoint_cases hP with hP | rfl
          · exact .inl (.inr (.inr ⟨ep', hP⟩))
          · exact .inr rfl
    | some e =>
      rw [getOrCreatePeer_drawn hm hb]
      constructor
      · intro hP
        rcases hP with hP | ⟨id, hP⟩ | ⟨ep', hP⟩
        · exact .inl hP
        · by_cases hid : id = e.1
          · subst hid
            obtain rfl := ListFacts.eq_of_key h.keys hP (pendingBegin_mem hb)
            exact .inr (.inr ⟨ep, bindEndpoint_peerMap_self _ _ _⟩)
          · exact .inr (.inl ⟨id, ListFacts.mem_eraseKey.2 ⟨hP, hid⟩⟩)
        · exact .inr (.inr ⟨ep', bindEndpoint_peerMap _ hm hP⟩)
      · intro hP
        rcases hP with hP | ⟨id, hP⟩ | ⟨ep', hP⟩
        · exact .inl (.inl hP)
        · exact .inl (.inr (.inl ⟨id, (ListFacts.mem_eraseKey.1 hP).1⟩))
        · rcases bindEndpoint_cases hP with hP | rfl
          · exact .inl (.inr (.inr ⟨ep', hP⟩))
          · exact .inl (.inr (.inl ⟨e.1, pendingBegin_mem hb⟩))

/-- A consumer that is live after a datagram was live before it. -/
theorem Kept.live_of_getOrCreatePeer (h : s.Kept) {ep : Endpoint} {pick : Nat} {c : ConsumerRef}
    {S : PeerRef} (hS : (s.getOrCreatePeer ep pick).1.Owns S)
    (hc : c ∈ (s.router.peers S).consumers) : s.Live c := by
  rcases (owns_getOrCreatePeer s h.keyed.tables ep pick S).2 hS with hS | rfl
  · exact ⟨S, hS, hc⟩
  · rw [(h.sound.blank _ (Nat.le_refl _)).2] at hc
    cases hc

theorem getOrCreatePeer_table (s : MediaServer) (ep : Endpoint) (pick : Nat) :
    (s.getOrCreatePeer ep pick).1.router.table = s.router.table := by
  unfold getOrCreatePeer
  split
  · rfl
  · split <;> rfl

/-- A datagram that changes no link and no route. -/
theorem Kept.careful_links (h : s.Kept) (h' : s'.Kept) {ep : Endpoint} {pick : Nat}
    (howns : ∀ P, s'.Owns P ↔ (s.getOrCreatePeer ep pick).1.Owns P)
    (hlinks : SameLinks s.router s'.router) (htable : s'.router.table = s.router.table) :
    Careful s s' := by
  refine h.careful h'
    (fun P hP => (howns P).2 ((owns_getOrCreatePeer s h.keyed.tables ep pick P).1 hP))
    (fun P hP => .inl ?_) (fun c P hc hP => .inl ?_) fun ssrc P hP => .inl ?_
  · rwa [← hlinks.allPeers]
  · obtain ⟨S, hS, hc⟩ := hc
    rw [hlinks.consumers] at hc
    rw [(hlinks.heap c).publisher] at hP
    exact ⟨h.live_of_getOrCreatePeer ((howns S).1 hS) hc, hP⟩
  · rwa [← htable]

theorem handleDtls_table (s : MediaServer) (ep : Endpoint) (env : PacketEnv) :
    (s.handleDtls ep env).1.router.table = s.router.table := by
  rw [← getOrCreatePeer_table s ep env.pick]
  exact handleDtls_cases (P := fun s' => s'.router.table = _) fun _ _ => rfl

theorem Kept.careful_handleDtls (h : s.Kept) (h' : (s.handleDtls ep env).1.Kept) :
    Careful s (s.handleDtls ep env).1 := by
  have hpool := samePool_handleDtls s ep env
  exact h.careful_links h' (owns_congr hpool.peers hpool.pendingPeers hpool.peerMap)
    ((sameLinks_getOrCreatePeer s ep env.pick).trans (sameLinks_handleDtls s ep env))
    (handleDtls_table s ep env)

theorem Kept.careful_handleSrtp (h : s.Kept) (h' : (s.handleSrtp data ep env).1.Kept) :
    Careful s (s.handleSrtp data ep env).1 := by
  have hgot := sameLinks_getOrCreatePeer s ep env.pick
  have htab := getOrCreatePeer_table s ep env.pick
  have hbound := getOrCreatePeer_bound s ep env.pick
  unfold MediaServer.handleSrtp at h' ⊢
  dsimp only at h' ⊢
  split at h'
  · exact h.careful_links h' (fun _ => Iff.rfl) hgot htab
  · split at h'
    · rename_i plain _
      refine h.careful h' (fun P hP => (owns_getOrCreatePeer s h.keyed.tables ep env.pick P).1 hP)
        (fun P hP => .inl ?_) (fun c P hc hP => .inl ?_) fun ssrc P hP => ?_
      · dsimp only at hP
        rw [onRtpPacket_allPeers] at hP
        rwa [← hgot.allPeers]
      · obtain ⟨S, hS, hc⟩ := hc
        have hsame := hgot.sameSubscribers.trans
          (sameSubscribers_onRtpPacket (P := (s.getOrCreatePeer ep env.pick).2) (o := env.srtp)
            (h.sound.getOrCreatePeer ep env.pick).wf (s.getOrCreatePeer ep env.pick).1.videoPTs
            plain)
        refine ⟨h.live_of_getOrCreatePeer hS ?_, (hsame.publisher c).symm.trans hP⟩
        rwa [← hsame.consumers]
      · rcases onRtpPacket_table hP with hP | rfl
        · exact .inl (htab ▸ hP)
        · exact .inr (.inr (.inr ⟨ep, hbound⟩))
    · split at h' <;> exact h.careful_links h' (fun _ => Iff.rfl) hgot htab

theorem Kept.careful_onPacket (h : s.Kept) (data : Bytes) (ep : Endpoint) (env : PacketEnv) :
    Careful s (s.onPacket data ep env).1 := by
  have h' := h.step (.packet data ep env)
  revert h'
  exact onPacket_cases (P := fun s' => s'.Kept → Careful s s')
    (fun _ => ⟨fun _ hP => hP, fun _ hP => .inl hP⟩) h.careful_handleDtls h.careful_handleSrtp

/-! ## `AddPeer` -/

/-- The maps after `AddPeer`: the new peer is in, and the one it replaces is out. -/
theorem Kept.owns_addPeer (h : s.Kept) (info : ServerInfo) (id : String) (P : PeerRef) :
    (s.addPeer info id).1.Owns P ↔ P = s.nextPeer ∨ s.Owns P ∧ (id, P) ∉ s.pendingPeers := by
  have hpeers : ∀ id', (s.addPeer info id).1.peers id' = some P ↔
      (id' = id ∧ P = s.nextPeer) ∨ (id' ≠ id ∧ s.peers id' = some P) := by
    intro id'
    rw [addPeer_peers]
    by_cases hid : id' = id
    · subst hid
      rw [Function.update_self]
      simp [eq_comm]
    · rw [Function.update_of_ne hid]
      simp [hid]
  constructor
  · intro hP
    rcases hP with ⟨id', hP⟩ | ⟨id', hP⟩ | ⟨ep, hP⟩
    · rcases (hpeers id').1 hP with ⟨-, rfl⟩ | ⟨hid, hP⟩
      · exact .inl rfl
      · refine .inr ⟨.inl ⟨id', hP⟩, fun hw => hid ?_⟩
        exact (h.sound.named id' P hP).symm.trans (h.sound.pool.ids _ hw)
    · rcases ListFacts.mem_setKey.1 hP with ⟨hP, hid⟩ | heq
      · refine .inr ⟨.inr (.inl ⟨id', hP⟩), fun hw => hid ?_⟩
        exact (h.sound.pool.ids _ hP).symm.trans (h.sound.pool.ids _ hw)
      · exact .inl (congrArg Prod.snd heq)
    · exact .inr ⟨.inr (.inr ⟨ep, hP⟩), fun hw => h.keyed.tables.unbound _ hw ep hP⟩
  · intro hP
    rcases hP with rfl | ⟨⟨id', hP⟩ | ⟨id', hP⟩ | hP, hw⟩
    · exact .inl ⟨id, (hpeers id).2 (.inl ⟨rfl, rfl⟩)⟩
    · by_cases hid : id' = id
      · -- the peer that the registry loses does not wait, so it is bound
        subst hid
        rcases h.sound.pool.registered id' P hP with hpend | hbound
        · exact absurd hpend hw
        · exact .inr (.inr hbound)
      · exact .inl ⟨id', (hpeers id').2 (.inr ⟨hid, hP⟩)⟩
    · by_cases hid : id' = id
      · subst hid
        exact absurd hP hw
      · exact .inr (.inl ⟨id', ListFacts.mem_setKey.2 (.inl ⟨hP, hid⟩)⟩)
    · exact .inr (.inr hP)

theorem Kept.refersTo_addPeer (h : s.Kept) (info : ServerInfo) (id : String)
    (hP : (s.addPeer info id).1.RefersTo P) : s.RefersTo P := by
  have hlinks := h.sound.sameLinks_addPeer info id
  have h' : (s.addPeer info id).1.Kept := h.step (.addPeer info id)
  rcases h'.refersTo_iff.1 hP with hall | ⟨c, ⟨S, hS, hc⟩, hpub⟩ | htab
  · exact .inl (hlinks.allPeers ▸ hall)
  · rw [hlinks.consumers] at hc
    rw [(hlinks.heap c).publisher] at hpub
    rcases (h.owns_addPeer info id S).1 hS with rfl | ⟨hS, -⟩
    · rw [(h.sound.blank _ (Nat.le_refl _)).2] at hc
      cases hc
    · exact .inr (.inl ⟨c, ⟨S, hS, hc⟩, .inl hpub⟩)
  · exact .inr (.inr htab)

/-- The pointers to the peer that `AddPeer` replaces stay in the router. -/
theorem Kept.refersTo_replaced (h : s.Kept) (info : ServerInfo) {id : String}
    (hw : (id, P) ∈ s.pendingPeers) (hP : s.RefersTo P) : (s.addPeer info id).1.RefersTo P := by
  have hlinks := h.sound.sameLinks_addPeer info id
  rcases h.refersTo_iff.1 hP with hall | ⟨c, ⟨S, hS, hc⟩, hpub⟩ | htab
  · exact .inl (hlinks.allPeers.symm ▸ hall)
  · by_cases hSP : S = P
    · -- the peer subscribes to itself, so it is registered
      subst hSP
      exact .inl (hlinks.allPeers.symm ▸ h.sound.wf.registered S c hc)
    · have hSw : (id, S) ∉ s.pendingPeers := fun hSw =>
        hSP (ListFacts.eq_of_key h.sound.pool.keys hSw hw)
      refine .inr (.inl ⟨c, ⟨S, (h.owns_addPeer info id S).2 (.inr ⟨hS, hSw⟩), ?_⟩, .inl hpub⟩)
      rwa [hlinks.consumers]
  · exact .inr (.inr htab)

theorem Kept.safe_addPeer_iff (h : s.Kept) (hs : s.Safe) (info : ServerInfo) (id : String) :
    (s.addPeer info id).1.Safe ↔ ∀ P, (id, P) ∈ s.pendingPeers → ¬ s.RefersTo P := by
  constructor
  · intro hs' P hw hP
    rcases (h.owns_addPeer info id P).1 (hs' P (h.refersTo_replaced info hw hP)) with rfl | ⟨-, hn⟩
    · exact Nat.lt_irrefl _ (h.sound.pool.fresh _ hw)
    · exact hn hw
  · intro hfree P hP
    have hold := h.refersTo_addPeer info id hP
    exact (h.owns_addPeer info id P).2 (.inr ⟨hs P hold, fun hw => hfree P hw hold⟩)

/-! ## Runs -/

theorem Kept.safe_step_iff (h : s.Kept) (hs : s.Safe) (op : ServerOp) :
    (s.step op).Safe ↔ s.NoneReplaced op := by
  cases op with
  | addPeer info id => exact h.safe_addPeer_iff hs info id
  | addConsumer sub pub v d =>
    exact iff_of_true ((h.careful_addConsumer sub pub v d).safe hs) trivial
  | sendOffer g id sdp rms =>
    exact iff_of_true ((h.careful_sendOffer g id sdp rms).safe hs) trivial
  | removePeer id => exact iff_of_true ((h.careful_removePeer id).safe hs) trivial
  | packet data ep env => exact iff_of_true ((h.careful_onPacket data ep env).safe hs) trivial

theorem kept_start : ({} : MediaServer).Kept := ⟨sound_start, keyed_start⟩

theorem safe_start : ({} : MediaServer).Safe := by
  intro P hP
  rcases hP with hall | ⟨c, ⟨S, -, hc⟩, -⟩ | ⟨ssrc, htab⟩
  · exact absurd hall List.not_mem_nil
  · exact absurd hc List.not_mem_nil
  · cases htab

/-- **When the router never outlives its peers**, along every run of RPCs and datagrams. -/
theorem always_safe_iff (ops : List ServerOp) :
    Always step Safe {} ops ↔ Meets step NoneReplaced {} ops :=
  Runs.always_iff_meets (I := Kept) (fun _ op h => h.step op)
    (fun _ op h hs => h.safe_step_iff hs op) kept_start safe_start

/-- Client b is in the room of client a, whose `AddPeer` comes a second time before a has sent a
datagram. -/
theorem replaced_peer_dangles :
    ¬ Always step Safe {} [.addPeer {} "a", .addPeer {} "b", .addConsumer "b" "a" true default,
      .addPeer {} "a"] := by
  intro h
  have hkept : (exec step {} [.addPeer {} "a", .addPeer {} "b",
      .addConsumer "b" "a" true default]).Kept :=
    Runs.exec_inv' (I := Kept) (fun _ op h => h.step op) _ kept_start
  rcases (hkept.owns_addPeer {} "a" 0).1 (h.last 0 (.inl (by decide))) with hnew | ⟨-, hw⟩
  · exact absurd hnew (by decide)
  · exact hw (by decide)

end MediaServer

end Namecon
