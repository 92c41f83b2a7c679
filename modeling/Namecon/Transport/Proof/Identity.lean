import Namecon.Transport.Proof.Pool

/-!
# Which peer a datagram is for

A new endpoint is given whichever registered peer `begin()` yields, and nothing takes a removed peer
out of the pool or the endpoint table.

* `endpoint_identity_iff`: along a run every new endpoint gets a peer of its own client, whatever
  the order of the pool, exactly when none arrives while a peer of another client waits.
* `removal_final_iff`: after `RemovePeer` no datagram is attributed to the removed peer exactly when
  none comes from its endpoint, nor from a new one while it waits; it is always one of the two.
-/

namespace Namecon

open Runs (exec Meets)

/-- The endpoint of a DTLS or SRTP datagram. -/
def ServerOp.mediaFrom : ServerOp → Option Endpoint
  | .packet data ep _ =>
    if MediaServer.protocol data = some .dtls ∨ MediaServer.protocol data = some .srtp then some ep
    else none
  | _ => none

namespace MediaServer

variable {s : MediaServer} {op : ServerOp} {ep : Endpoint} {X : PeerRef}

/-! ## Endpoint identity -/

/-- A new endpoint that is given a registered peer is given one of its own client; `client ep` is
the id of the client that sends from `ep`. -/
def BindsOwn (client : Endpoint → String) (s : MediaServer) (op : ServerOp) : Prop :=
  ∀ ep ∈ op.mediaFrom, ∀ pick, s.peerMap ep = none →
    (∃ id, (id, (s.getOrCreatePeer ep pick).2) ∈ s.pendingPeers) →
    ((s.getOrCreatePeer ep pick).1.router.peers (s.getOrCreatePeer ep pick).2).peerId = client ep

/-- A new endpoint arrives only while no peer of another client waits. -/
def OnlyOwnPending (client : Endpoint → String) (s : MediaServer) (op : ServerOp) : Prop :=
  ∀ ep ∈ op.mediaFrom, s.peerMap ep = none → ∀ e ∈ s.pendingPeers, e.1 = client ep

theorem bindsOwn_iff (h : s.Pool) (client : Endpoint → String) (op : ServerOp) :
    BindsOwn client s op ↔ OnlyOwnPending client s op := by
  have hid : ∀ {ep pick e}, s.peerMap ep = none → s.pendingBegin pick = some e →
      ((s.getOrCreatePeer ep pick).1.router.peers (s.getOrCreatePeer ep pick).2).peerId = e.1 := by
    intro ep pick e hm hb
    rw [getOrCreatePeer_drawn hm hb]
    exact (bindEndpoint_peerId _ _).trans (h.ids e (pendingBegin_mem hb))
  refine ⟨fun hb ep hep hm e he => ?_, fun ho ep hep pick hm hpend => ?_⟩
  · obtain ⟨pick, hpick⟩ := exists_pick he
    rw [← hb ep hep pick hm ⟨e.1, by rw [getOrCreatePeer_drawn hm hpick]; exact he⟩, hid hm hpick]
  · cases hpick : s.pendingBegin pick with
    | some e => rw [hid hm hpick]; exact ho ep hep hm e (pendingBegin_mem hpick)
    | none =>
      obtain ⟨id, hmem⟩ := hpend
      rw [pendingBegin_none hpick] at hmem
      exact absurd hmem List.not_mem_nil

/-- **When every endpoint gets its own client's peer.** -/
theorem endpoint_identity_iff (client : Endpoint → String) (ops : List ServerOp) :
    Meets step (BindsOwn client) {} ops ↔ Meets step (OnlyOwnPending client) {} ops :=
  Runs.meets_congr (I := Pool) (fun _ op h => h.step op) (fun _ op h => bindsOwn_iff h client op)
    pool_start

/-- A DTLS datagram that finds neither a handshake nor keys. -/
def firstFlight (ep : Endpoint) : ServerOp :=
  .packet [22] ep ⟨0, ⟨fun _ _ _ => none, fun _ _ _ => none⟩, fun _ _ => none, fun _ _ => none, [],
    false, [], [], false⟩

/-- Clients a, at port 1, and b, at port 2, join; the first datagram is from b. -/
theorem endpoint_swapped :
    ¬ Meets step (BindsOwn fun ep => if ep.port = 1 then "a" else "b") {}
      [.addPeer {} "a", .addPeer {} "b", firstFlight ⟨0, 2⟩] := by
  intro h
  exact absurd (h.2.2.1 ⟨0, 2⟩ rfl 0 rfl ⟨"a", by decide⟩) (by decide)

/-! ## Removal -/

/-- No datagram is attributed to `X`, and none of its RTP is forwarded. -/
structure Unserved (X : PeerRef) (s : MediaServer) (op : ServerOp) : Prop where
  attributed : ∀ ep ∈ op.mediaFrom, ∀ pick, (s.getOrCreatePeer ep pick).2 ≠ X
  forwarded : ∀ data ep env, op = .packet data ep env → protocol data = some .srtp →
    (s.getOrCreatePeer ep env.pick).2 = X → ∀ d ∈ (s.onPacket data ep env).2, d.channel ≠ .rtp

/-- The datagram is not from an endpoint of `X`, nor from a new one while `X` waits. -/
def OutOfReach (X : PeerRef) (s : MediaServer) (op : ServerOp) : Prop :=
  ∀ ep ∈ op.mediaFrom, s.peerMap ep ≠ some X ∧
    (s.peerMap ep = none → ∀ e ∈ s.pendingPeers, e.2 ≠ X)

theorem unserved_iff (hX : X < s.nextPeer) (op : ServerOp) :
    Unserved X s op ↔ OutOfReach X s op := by
  refine ⟨fun h ep hep => ⟨fun hm => ?_, fun hm e he heX => ?_⟩, fun h => ?_⟩
  · exact h.attributed ep hep 0 (by rw [getOrCreatePeer_known hm])
  · obtain ⟨pick, hpick⟩ := exists_pick he
    exact h.attributed ep hep pick (by rw [getOrCreatePeer_drawn hm hpick]; exact heX)
  · have hatt : ∀ ep ∈ op.mediaFrom, ∀ pick, (s.getOrCreatePeer ep pick).2 ≠ X := by
      intro ep hep pick
      obtain ⟨hbound, hpend⟩ := h ep hep
      cases hm : s.peerMap ep with
      | some p =>
        rw [getOrCreatePeer_known hm]
        exact fun hp => hbound (hm.trans (congrArg some hp))
      | none =>
        cases hb : s.pendingBegin pick with
        | some e => rw [getOrCreatePeer_drawn hm hb]; exact hpend hm e (pendingBegin_mem hb)
        | none => rw [getOrCreatePeer_made hm hb]; exact Nat.ne_of_gt hX
    refine ⟨hatt, fun data ep env hop hproto hgot => ?_⟩
    subst hop
    exact absurd hgot (hatt ep (if_pos (.inr hproto)) env.pick)

/-- References are never given out again. -/
theorem nextPeer_step (s : MediaServer) (op : ServerOp) : s.nextPeer ≤ (s.step op).nextPeer := by
  have hget : ∀ ep pick, s.nextPeer ≤ (s.getOrCreatePeer ep pick).1.nextPeer := by
    intro ep pick
    unfold getOrCreatePeer
    split
    · exact Nat.le_refl _
    · split
      · exact Nat.le_refl _
      · exact Nat.le_succ _
  cases op with
  | addPeer info id => exact Nat.le_succ _
  | addConsumer sub pub v d => exact Nat.le_of_eq (samePool_addConsumer s sub pub v d).nextPeer.symm
  | sendOffer g id sdp rms => exact Nat.le_refl _
  | removePeer id => simp only [step, removePeer]; split <;> exact Nat.le_refl _
  | packet data ep env =>
    simp only [step, onPacket]
    split
    · exact Nat.le_refl _
    · exact Nat.le_refl _
    · exact (samePool_handleDtls s ep env).nextPeer ▸ hget ep env.pick
    · exact (samePool_handleSrtp s data ep env).nextPeer ▸ hget ep env.pick

/-- `RemovePeer` leaves the peer where datagrams find it: in the pool or in the endpoint table. -/
theorem reachable_after_removal (h : s.Pool) {id : String} (hX : s.peers id = some X) :
    (∃ e ∈ (s.removePeer id).pendingPeers, e.2 = X) ∨
      ∃ ep, (s.removePeer id).peerMap ep = some X := by
  have hsame : (s.removePeer id).pendingPeers = s.pendingPeers ∧
      (s.removePeer id).peerMap = s.peerMap := by
    unfold removePeer
    split <;> exact ⟨rfl, rfl⟩
  rw [hsame.1, hsame.2]
  exact (h.registered id X hX).imp (fun he => ⟨_, he, rfl⟩) fun he => he

theorem registered_lt (h : s.Pool) {id : String} (hX : s.peers id = some X) : X < s.nextPeer := by
  rcases h.registered id X hX with he | ⟨ep, he⟩
  · exact h.fresh _ he
  · exact h.boundFresh ep X he

/-- **When a removed peer gets no datagrams**: in the runs after the removal that keep out of its
reach. There is always a datagram that does not. -/
theorem removal_final_iff (ops : List ServerOp) (id : String) (X : PeerRef)
    (hX : (exec step {} ops).peers id = some X) :
    (∀ ops', Meets step (Unserved X) ((exec step {} ops).removePeer id) ops' ↔
      Meets step (OutOfReach X) ((exec step {} ops).removePeer id) ops') ∧
    ((∃ e ∈ ((exec step {} ops).removePeer id).pendingPeers, e.2 = X) ∨
      ∃ ep, ((exec step {} ops).removePeer id).peerMap ep = some X) := by
  have hp : (exec step {} ops).Pool := pool_start.exec ops
  refine ⟨fun ops' => ?_, reachable_after_removal hp hX⟩
  refine Runs.meets_congr (I := fun s : MediaServer => X < s.nextPeer)
    (fun s op h => Nat.lt_of_lt_of_le h (nextPeer_step s op)) (fun s op h => unserved_iff h op) ?_
  exact Nat.lt_of_lt_of_le (registered_lt hp hX) (nextPeer_step _ (.removePeer id))

theorem removal_final_iff_waiting :
    (exec step {} [.addPeer {} "a"]).peers "a" = some 0 ∧
    (∀ ops', Meets step (Unserved 0) ((exec step {} [.addPeer {} "a"]).removePeer "a") ops' ↔
      Meets step (OutOfReach 0) ((exec step {} [.addPeer {} "a"]).removePeer "a") ops') ∧
    ((∃ e ∈ ((exec step {} [.addPeer {} "a"]).removePeer "a").pendingPeers, e.2 = 0) ∨
      ∃ ep, ((exec step {} [.addPeer {} "a"]).removePeer "a").peerMap ep = some 0) :=
  ⟨by decide, removal_final_iff [.addPeer {} "a"] "a" 0 (by decide)⟩

/-- Client a joins and leaves before it has sent anything; then a new endpoint appears. -/
theorem removed_peer_served :
    ¬ Meets step (Unserved 0) ((exec step {} [.addPeer {} "a"]).removePeer "a")
      [firstFlight ⟨0, 2⟩] := by
  intro h
  exact h.1.attributed ⟨0, 2⟩ rfl 0 (by decide)

end MediaServer

end Namecon
