import Namecon.Sfu.Proof.OutSsrcs

/-!
# The map from outgoing SSRCs, entry by entry

* `Entries`: an entry leads to an owned consumer of that SSRC which still has its publisher. It
  holds in every state of every run, also where draws repeat: a `removePeer` that clears a publisher
  erases the entry of the same consumer with it.
* `meets_freshDraw`: where the draws of a run are distinct, none is the SSRC of an owned consumer.
* `exec_findConsumerByOutSsrc`: what a lookup gives after a run, in both cases.
-/

namespace Namecon.Router

open Runs (exec Meets)

variable {r r' : Router} {S P X : PeerRef} {v : Bool} {d : SsrcDraw}

/-- What an entry of `_outSsrcToConsumer` leads to. -/
def Entries (r : Router) : Prop :=
  ∀ ssrc c, r.outSsrcToConsumer ssrc = some c →
    r.Owned c ∧ (r.heap c).rewrittenSsrc = ssrc ∧ (r.heap c).publisher ≠ none

theorem Wf.entries (hw : r.Wf)
    (h : ∀ ssrc c, r.outSsrcToConsumer ssrc = some c → (r.heap c).publisher ≠ none) : r.Entries :=
  fun ssrc c hc => ⟨(hw.reverse ssrc c hc).1, (hw.reverse ssrc c hc).2, h ssrc c hc⟩

/-! ## The steps -/

theorem Entries.addConsumer (hw : r.Wf) (h : r.Entries) : (r.addConsumer S P v d).1.Entries := by
  refine hw.addConsumer.entries fun ssrc c hc => ?_
  rw [addConsumer_out] at hc
  by_cases hssrc : ssrc = d.val
  · subst hssrc
    rw [Function.update_self] at hc
    obtain rfl := Option.some.inj hc
    rw [addConsumer_heap_new]
    exact Option.some_ne_none P
  · rw [Function.update_of_ne hssrc] at hc
    obtain ⟨hown, -, hpub⟩ := h ssrc c hc
    rw [addConsumer_heap_old (hw.fresh c hown)]
    exact hpub

theorem Entries.removePeer (hw : r.Wf) (h : r.Entries) : (r.removePeer X).Entries := by
  refine (hw.removePeer X).entries fun ssrc c hc => ?_
  obtain ⟨hc, haudience, -⟩ := (removePeer_out ssrc c).1 hc
  obtain ⟨-, hssrc, hpub⟩ := h ssrc c hc
  -- the retirement of `c` would have erased this entry
  have hkept : c ∉ r.audience X := fun hmem => haudience c hmem hssrc
  rw [removePeer_heap, heapAfter, if_neg hkept]
  exact hpub

theorem Entries.frame (hw : r'.Wf) (h : r.Entries) (hs : SameOut r r') : r'.Entries := by
  refine hw.entries fun ssrc c hc => ?_
  rw [hs.outSsrcToConsumer] at hc
  rw [hs.subscribers.publisher]
  exact (h ssrc c hc).2.2

/-- What an operation that neither adds nor removes a peer's consumers leaves alone. -/
theorem sameOut_step (hw : r.Wf) (op : RouterOp) :
    SameOut r (r.step op) ∨ (∃ S P v d, op = .addConsumer S P v d) ∨ ∃ X, op = .removePeer X := by
  cases op with
  | addConsumer S P v d => exact .inr (.inl ⟨S, P, v, d, rfl⟩)
  | removePeer X => exact .inr (.inr ⟨X, rfl⟩)
  | bindConsumerByMid S pid v mid => exact .inl (sameLinks_bind r S pid v mid).sameOut
  | onRtpPacket V o buf P => exact .inl (sameOut_onRtpPacket hw V o buf)
  | setTransport p ep d x => exact .inl (sameLinks_setTransport r p ep d x).sameOut

theorem Entries.step (hw : r.Wf) (h : r.Entries) (op : RouterOp) : (r.step op).Entries := by
  rcases sameOut_step hw op with hs | ⟨S, P, v, d, rfl⟩ | ⟨X, rfl⟩
  · exact h.frame (hw.step op) hs
  · exact h.addConsumer hw
  · exact h.removePeer hw

/-! ## Distinct draws -/

/-- The SSRC an operation allocates. -/
def allocated : RouterOp → Option UInt32
  | .addConsumer _ _ _ d => some (allocateSsrc d)
  | _ => none

/-- An owned consumer keeps its SSRC, and a new one has the SSRC just allocated. -/
theorem rewrittenSsrc_step (hw : r.Wf) {op : RouterOp} {c : ConsumerRef}
    (hc : (r.step op).Owned c) :
    r.Owned c ∧ ((r.step op).heap c).rewrittenSsrc = (r.heap c).rewrittenSsrc ∨
      allocated op = some ((r.step op).heap c).rewrittenSsrc := by
  rcases sameOut_step hw op with hs | ⟨S, P, v, d, rfl⟩ | ⟨X, rfl⟩
  · exact .inl ⟨hs.subscribers.owned.1 hc, hs.subscribers.rewrittenSsrc c⟩
  · rcases owned_addConsumer.1 hc with hold | rfl
    · exact .inl ⟨hold, congrArg _ (addConsumer_heap_old (hw.fresh c hold))⟩
    · exact .inr (congrArg some (congrArg Consumer.rewrittenSsrc addConsumer_heap_new).symm)
  · refine .inl ⟨((owned_removePeer hw).1 hc).1, ?_⟩
    show ((r.removePeer X).heap c).rewrittenSsrc = _
    rw [removePeer_heap, heapAfter_rewrittenSsrc]

/-- Where the draws to come are distinct from each other and from the SSRCs in use, none meets one
in use. -/
theorem meets_freshDraw {ops : List RouterOp} (hw : r.Wf)
    (hunused : ∀ c, r.Owned c → (r.heap c).rewrittenSsrc ∉ ops.filterMap allocated)
    (hn : (ops.filterMap allocated).Nodup) : Meets step FreshDraw r ops := by
  induction ops generalizing r with
  | nil => trivial
  | cons op ops ih =>
    have hrest : ∀ ssrc, ssrc ∈ ops.filterMap allocated → ssrc ∈ (op :: ops).filterMap allocated :=
      fun ssrc h => List.mem_filterMap.2
        ((List.mem_filterMap.1 h).imp fun _ h => ⟨.tail _ h.1, h.2⟩)
    have hnew : ∀ ssrc, allocated op = some ssrc → ssrc ∈ (op :: ops).filterMap allocated :=
      fun ssrc h => List.mem_filterMap.2 ⟨op, .head _, h⟩
    refine ⟨?_, ih (hw.step op) (fun c hc => ?_) (hn.sublist ?_)⟩
    · cases op with
      | addConsumer S P v d => exact fun c hc heq => hunused c hc (hnew _ (congrArg some heq.symm))
      | _ => trivial
    · rcases rewrittenSsrc_step hw hc with ⟨hold, hsame⟩ | hdrawn
      · rw [hsame]
        exact fun h => hunused c hold (hrest _ h)
      · rw [List.filterMap_cons, hdrawn] at hn
        exact (List.nodup_cons.1 hn).1
    · exact (List.sublist_cons_self op ops).filterMap allocated

/-! ## Runs -/

theorem entries_start (ids : PeerRef → String) : (start ids).Entries :=
  fun _ _ hc => absurd hc (Option.some_ne_none _).symm

theorem entries_exec (ids : PeerRef → String) (ops : List RouterOp) :
    (exec step (start ids) ops).Entries :=
  (Runs.exec_inv' (I := fun r : Router => r.Wf ∧ r.Entries)
    (fun _ op h => ⟨h.1.step op, h.2.step h.1 op⟩) ops ⟨wf_start ids, entries_start ids⟩).2

/-- After a run whose draws are distinct the map serves every live consumer. -/
theorem outSsrcs_exec (ids : PeerRef → String) {ops : List RouterOp}
    (hops : ∀ op ∈ ops, op.NoZeroPacket) (hn : (ops.filterMap allocated).Nodup) :
    (exec step (start ids) ops).OutSsrcs := by
  have hfresh : Meets step FreshDraw (start ids) ops :=
    meets_freshDraw (wf_start ids) (fun c ⟨S, hc⟩ => by cases hc) hn
  exact (Runs.exec_inv (I := fun r : Router => r.Linked ∧ r.OutSsrcs)
    (G := fun (r : Router) op => op.NoZeroPacket ∧ r.FreshDraw op)
    (fun _ op h hop => ⟨h.1.step hop.1, (outSsrcs_step h.1 h.2 op).2 hop.2⟩)
    ⟨linked_start ids, outSsrcs_start ids⟩ ((Runs.meets_of_forall hops).and hfresh)).2

/-- **The map is coherent.** After every run an entry leads to an owned consumer with the SSRC of
the entry; and if no SSRC was allocated twice in the run, a lookup finds the owned consumer of the
SSRC whose publisher has not been cleared, and nothing where there is none. -/
theorem exec_findConsumerByOutSsrc (ids : PeerRef → String) (ops : List RouterOp)
    (hops : ∀ op ∈ ops, op.NoZeroPacket) :
    let r := exec step (start ids) ops
    (∀ ssrc c, r.outSsrcToConsumer ssrc = some c → r.Owned c ∧ (r.heap c).rewrittenSsrc = ssrc) ∧
      ((ops.filterMap allocated).Nodup → ∀ ssrc,
        (∀ c, r.findConsumerByOutSsrc ssrc = some c ↔
          r.Owned c ∧ (r.heap c).rewrittenSsrc = ssrc ∧ (r.heap c).publisher ≠ none) ∧
        (r.findConsumerByOutSsrc ssrc = none ↔
          ∀ c, r.Owned c → (r.heap c).rewrittenSsrc = ssrc → (r.heap c).publisher = none)) := by
  have hentries := entries_exec ids ops
  have hw : (exec step (start ids) ops).Wf := (wf_start ids).exec ops
  refine ⟨fun ssrc c hc => ⟨(hentries ssrc c hc).1, (hentries ssrc c hc).2.1⟩, fun hn ssrc => ?_⟩
  have hout := outSsrcs_exec ids hops hn
  have hfind : ∀ c, (exec step (start ids) ops).findConsumerByOutSsrc ssrc = some c ↔
      (exec step (start ids) ops).Owned c ∧
        ((exec step (start ids) ops).heap c).rewrittenSsrc = ssrc ∧
          ((exec step (start ids) ops).heap c).publisher ≠ none := by
    refine fun c => ⟨hentries ssrc c, ?_⟩
    rintro ⟨hown, rfl, hpub⟩
    exact hout.found c hown (hw.active c hown hpub)
  refine ⟨hfind, ?_⟩
  rw [Option.eq_none_iff_forall_ne_some]
  refine forall_congr' fun c => ?_
  rw [ne_eq, hfind c]
  tauto

/-- Peers 1 and 3 subscribe to peer 2 with SSRCs of their own, and peer 1 leaves. -/
def secondStays : List RouterOp :=
  [.addConsumer 1 2 false default, .addConsumer 3 2 false ⟨0x40000004, by decide, by decide⟩,
    .removePeer 1]

theorem exec_findConsumerByOutSsrc_secondStays :
    (exec step (start toString) secondStays).findConsumerByOutSsrc 0x40000004 = some 1 :=
  (((exec_findConsumerByOutSsrc toString secondStays (by decide)).2 (by decide)
    0x40000004).1 1).2 ⟨⟨3, by decide⟩, by decide, by decide⟩

end Namecon.Router
