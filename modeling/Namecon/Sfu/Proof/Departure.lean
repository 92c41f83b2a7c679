import Namecon.Sfu.Proof.Dangling

/-!
# A publisher that leaves

`removePeer X` retires the consumers of `X` that it finds through the producers of `X`. A consumer
made before the first packet of its stream stands in no list, so it keeps its publisher, stays
active and can still be found by its outgoing SSRC (`forgotten_iff`).
-/

namespace Namecon.Router

open Runs (exec)

variable {r : Router} {X : PeerRef}

/-- No consumer of `X` that is left is active or can be found by its outgoing SSRC. -/
def Forgotten (r : Router) (X : PeerRef) : Prop :=
  ∀ S, ∀ c ∈ (r.peers S).consumers, (r.heap c).publisher = some X →
    (r.heap c).active = false ∧ ∀ ssrc, r.outSsrcToConsumer ssrc ≠ some c

/-- Every consumer that another peer has of `X` stands in the list of a stream `X` has started. -/
def AllStarted (r : Router) (X : PeerRef) : Prop :=
  ∀ S, S ≠ X → ∀ c ∈ (r.peers S).consumers, (r.heap c).publisher = some X →
    ∃ p ∈ (r.peers X).producers, c ∈ p.consumers

theorem Wf.forgotten_iff (hw : r.Wf) : (r.removePeer X).Forgotten X ↔ r.AllStarted X := by
  constructor
  · intro hf S hS c hc hX
    by_contra hno
    have ha : c ∉ r.audience X := fun h =>
      let ⟨p, hl⟩ := mem_audience.1 h
      hno ⟨p, hl.1, hl.2⟩
    have hkeep : (r.removePeer X).heap c = r.heap c := by
      rw [removePeer_heap]; exact if_neg ha
    have hdead := (hf S c (mem_removePeer_consumers.2 ⟨hS, hc⟩) (by rw [hkeep]; exact hX)).1
    rw [hkeep, hw.active c ⟨S, hc⟩ (by rw [hX]; simp)] at hdead
    cases hdead
  · intro hall S c hc hX
    obtain ⟨hS, hc⟩ := mem_removePeer_consumers.1 hc
    rw [removePeer_heap, heapAfter_publisher] at hX
    obtain ⟨p, hp, hcp⟩ := hall S hS c hc hX.2
    exact absurd (mem_audience.2 ⟨p, hp, hcp⟩) hX.1

/-- **When `removePeer` forgets the publisher**, in every reachable state. -/
theorem removePeer_forgotten_iff (ids : PeerRef → String) (ops : List RouterOp) (X : PeerRef) :
    ((exec step (start ids) ops).removePeer X).Forgotten X ↔
      (exec step (start ids) ops).AllStarted X :=
  ((wf_start ids).exec ops).forgotten_iff

/-- Peer 1 subscribes to the video of peer 2, whose camera is off; peer 2 leaves. -/
theorem not_forgotten_cameraOff :
    ¬ Forgotten (exec step (start toString)
      [.addConsumer 1 2 true default, .removePeer 2]) 2 := by
  intro h
  exact absurd (h 1 0 (by decide) (by decide)).1 (by decide)

end Namecon.Router
