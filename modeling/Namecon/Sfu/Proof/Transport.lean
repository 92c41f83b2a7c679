import Namecon.Sfu.Proof.Forward

/-!
# The router leaves the transport alone

No operation of the router writes the id, the endpoint or the DTLS and SRTP contexts of a peer: a
`Peer` after it differs in its producers and consumers only.
-/

namespace Namecon.Router

variable {r r' r'' : Router}

/-- No peer differs in more than its producers and consumers. -/
def SameTransport (r r' : Router) : Prop :=
  ∀ q, ∃ ps cs, r'.peers q = { r.peers q with producers := ps, consumers := cs }

theorem SameTransport.of_peers (h : r'.peers = r.peers) : SameTransport r r' :=
  fun q => ⟨_, _, congrFun h q⟩

theorem SameTransport.refl (r : Router) : SameTransport r r := .of_peers rfl

theorem SameTransport.trans (h : SameTransport r r') (h' : SameTransport r' r'') :
    SameTransport r r'' := by
  intro q
  obtain ⟨_, _, hq⟩ := h q
  obtain ⟨ps, cs, hq'⟩ := h' q
  exact ⟨ps, cs, by rw [hq', hq]⟩

theorem SameTransport.peerId (h : SameTransport r r') (q : PeerRef) :
    (r'.peers q).peerId = (r.peers q).peerId := by
  obtain ⟨_, _, hq⟩ := h q
  rw [hq]

theorem sameTransport_modifyPeer (r : Router) (p : PeerRef) {f : Peer → Peer}
    (hf : ∀ x, ∃ ps cs, f x = { x with producers := ps, consumers := cs }) :
    SameTransport r (r.modifyPeer p f) := by
  intro q
  by_cases hq : q = p
  · subst hq
    obtain ⟨ps, cs, h⟩ := hf (r.peers q)
    exact ⟨ps, cs, by rw [modifyPeer_self, h]⟩
  · exact ⟨_, _, modifyPeer_ne _ _ _ hq⟩

theorem sameTransport_foldl {f : Router → ConsumerRef → Router}
    (hf : ∀ r c, SameTransport r (f r c)) (l : List ConsumerRef) (r : Router) :
    SameTransport r (l.foldl f r) := by
  induction l generalizing r with
  | nil => exact .refl r
  | cons c l ih => exact (hf r c).trans (ih (f r c))

theorem sameTransport_addConsumer (r : Router) (S P : PeerRef) (v : Bool) (d : SsrcDraw) :
    SameTransport r (r.addConsumer S P v d).1 := by
  have hlink : ∀ (r : Router) raw, SameTransport r (r.linkNew P raw v) := fun r raw => by
    unfold linkNew
    split
    · exact .refl r
    · exact .trans (.of_peers rfl) (sameTransport_modifyPeer _ P fun x => ⟨_, x.consumers, rfl⟩)
  simp only [addConsumer]
  refine .trans ?_ (sameTransport_modifyPeer _ S fun x => ⟨x.producers, _, rfl⟩)
  exact .trans (.of_peers rfl) (hlink _ _)

theorem sameTransport_removePeer (r : Router) (X : PeerRef) : SameTransport r (r.removePeer X) := by
  have hunsub : ∀ (r : Router) c, SameTransport r (r.unsubscribe c) := fun r c => by
    refine .trans (?_ : SameTransport r (r.unlink c)) (.of_peers rfl)
    unfold unlink
    split
    · exact .refl r
    · exact sameTransport_modifyPeer _ _ fun x => ⟨_, x.consumers, rfl⟩
  have h1 : SameTransport r (r.afterRetire X) :=
    .trans (.of_peers (foldl_retire_rest _ r).1)
      (sameTransport_modifyPeer _ X fun x => ⟨[], x.consumers, rfl⟩)
  have h2 : SameTransport r (r.afterUnsubscribe X) := h1.trans (sameTransport_foldl hunsub _ _)
  exact .trans (h2.trans (sameTransport_modifyPeer _ X fun x => ⟨x.producers, [], rfl⟩))
    (.of_peers removePeer_peers)

theorem sameTransport_bind (r : Router) (S : PeerRef) (pid : String) (v : Bool) (mid : String) :
    SameTransport r (r.bindConsumerByMid S pid v mid).1 := by
  unfold bindConsumerByMid
  split <;> exact .of_peers rfl

theorem sameTransport_onRtpPacket (r : Router) (V : Finset UInt8) (o : SrtpOracle) (buf : Bytes)
    (P : PeerRef) : SameTransport r (r.onRtpPacket V o buf P).1 := by
  cases hp : RtpHeader.parse buf with
  | none => rw [onRtpPacket_short hp]; exact .refl r
  | some hdr =>
    rw [onRtpPacket_parse hp]
    refine .trans ?_ (.of_peers (forward_peers hp _ _))
    cases hf : r.findProducer P hdr.ssrc with
    | some p => rw [linkTargets_known hf]; exact .refl r
    | none =>
      rw [linkTargets_new hf]
      simp only [createProducer]
      refine .trans ?_ (sameTransport_modifyPeer _ P fun x => ⟨_, x.consumers, rfl⟩)
      exact .of_peers (linkWaiting_rest _ _).1

end Namecon.Router
