import Namecon.Sfu.RtcpReads

/-!
# The reads of the RTCP translation

* `checkedRound_eq`: a packet inside the buffer is handled without a read outside of it, as
  `handleRtcp` does.
* `Walk`: the offsets the loop visits and where it stops.
* `checkedOnRtcpPacket_spec`: the loop reads in bounds and ends, for every buffer and every state,
  and what it sends is what `onRtcpPacket` sends.
* `handleRtcp_event`: what is done for a packet depends on its event alone.
-/

namespace Namecon.Router

open Checked

variable {r : Router} {srtp : SrtpOracle} {rtcp p : Bytes} {i offset len : Nat}

theorem lengthWords_eq (byte2 byte3 : UInt8) : lengthWords byte2 byte3 = ntohs byte2 byte3 := by
  have h3 : byte3.toNat < 2 ^ 8 := byte3.toNat_lt
  unfold lengthWords ntohs
  rw [← Nat.shiftLeft_add_eq_or_of_lt h3, Nat.shiftLeft_eq]

/-! ## One packet -/

theorem checkedIsFeedback_eq {minLen : Nat} (hmin : 2 ≤ minLen) (pt : UInt8) :
    checkedIsFeedback minLen pt rtcp offset (rtcp.length - offset) =
      .ok (isFeedback minLen pt (rtcp.drop offset)) := by
  unfold checkedIsFeedback isFeedback
  rw [getD_drop, getD_drop, List.length_drop, Nat.add_zero]
  by_cases hlen : minLen ≤ rtcp.length - offset
  · rw [if_pos hlen, read_ok (by omega) 0, ok_bind]
    by_cases hpt : rtcp.getD (offset + 1) 0 = pt
    · rw [if_pos hpt, read_ok (by omega) 0, ok_bind, decide_eq_true hlen, beq_iff_eq.2 hpt]
      rfl
    · rw [if_neg hpt, decide_eq_true hlen, beq_eq_false_iff_ne.2 hpt]
      rfl
  · rw [if_neg hlen, decide_eq_false hlen]
    rfl

theorem checkedIsReport_eq {minLen : Nat} (hmin : 2 ≤ minLen) (pt : UInt8) :
    checkedIsReport minLen pt rtcp offset (rtcp.length - offset) =
      .ok (minLen ≤ (rtcp.drop offset).length && (rtcp.drop offset).getD 1 0 == pt) := by
  unfold checkedIsReport
  rw [getD_drop, List.length_drop]
  by_cases hlen : minLen ≤ rtcp.length - offset
  · rw [if_pos hlen, read_ok (by omega) 0, ok_bind, decide_eq_true hlen]
    rfl
  · rw [if_neg hlen, decide_eq_false hlen]
    rfl

theorem length_of_isFeedback {minLen : Nat} {pt : UInt8} (h : isFeedback minLen pt p = true) :
    minLen ≤ p.length := by
  simp only [isFeedback, Bool.and_eq_true, decide_eq_true_eq] at h
  exact h.1.1

theorem checkedHandlePLI_eq (h : rtcpIsPLI (rtcp.drop offset) = true) :
    r.checkedHandlePLI srtp i rtcp offset = .ok (r.handlePLI srtp i (rtcp.drop offset)) := by
  have hlen := length_of_isFeedback h
  rw [List.length_drop] at hlen
  unfold checkedHandlePLI handlePLI pliRequest
  rw [readNtohl_ok (by omega), ok_bind, ntohlAt_drop]
  rfl

theorem checkedHandleNACK_eq (h : rtcpIsNACK (rtcp.drop offset) = true) :
    r.checkedHandleNACK srtp i rtcp offset = .ok (r.handleNACK srtp i (rtcp.drop offset)) := by
  have hlen := length_of_isFeedback h
  rw [List.length_drop] at hlen
  unfold checkedHandleNACK handleNACK nackRequest
  rw [readNtohl_ok (by omega), ok_bind, readNtohs_ok (by omega), ok_bind, readNtohs_ok (by omega),
    ok_bind, ntohlAt_drop, ntohsAt_drop, ntohsAt_drop]
  rfl

theorem checkedHandleRR_eq (hlen : offset + len ≤ rtcp.length) :
    r.checkedHandleRR srtp i rtcp offset len = .ok (r.handleRR srtp i (rtcp.drop offset) len) := by
  unfold checkedHandleRR handleRR
  by_cases h8 : len < 8
  · rw [if_pos h8, if_pos h8]
    rfl
  · rw [if_neg h8, if_neg h8, readNtohl_ok (by omega), ok_bind]
    unfold translate rrRequest
    rw [ntohlAt_drop]
    dsimp only
    cases r.findConsumerByOutSsrc (ntohlAt rtcp (offset + 4)) with
    | none => rfl
    | some c =>
      dsimp only
      cases (r.heap c).publisher with
      | none => rfl
      | some publisher =>
        dsimp only
        cases hctx : (r.peers publisher).srtp with
        | none =>
          unfold Peer.sendRtcp
          rw [hctx]
          rfl
        | some ctx =>
          rw [readSlice_ok hlen, ok_bind]
          rfl

/-- **One packet.** A packet that ends inside the buffer is handled without a read outside of it. -/
theorem checkedRound_eq (hlen : offset + len ≤ rtcp.length) :
    r.checkedRound srtp i rtcp offset len = .ok (r.handleRtcp srtp i (rtcp.drop offset) len) := by
  unfold checkedRound handleRtcp
  dsimp only
  rw [checkedIsPLI, checkedIsFeedback_eq (by decide), ok_bind]
  by_cases hpli : rtcpIsPLI (rtcp.drop offset) = true
  · rw [if_pos hpli]
    exact (if_pos hpli).trans (checkedHandlePLI_eq hpli)
  · rw [if_neg hpli]
    refine (if_neg hpli).trans ?_
    rw [checkedIsNACK, checkedIsFeedback_eq (by decide), ok_bind]
    by_cases hnack : rtcpIsNACK (rtcp.drop offset) = true
    · rw [if_pos hnack]
      exact (if_pos hnack).trans (checkedHandleNACK_eq hnack)
    · rw [if_neg hnack]
      refine (if_neg hnack).trans ?_
      rw [checkedIsRR, checkedIsReport_eq (by decide), ok_bind]
      by_cases hrr : rtcpIsRR (rtcp.drop offset) = true
      · rw [if_pos hrr]
        exact (if_pos hrr).trans (checkedHandleRR_eq hlen)
      · rw [if_neg hrr]
        refine (if_neg hrr).trans ?_
        rw [checkedIsSR, checkedIsReport_eq (by decide), ok_bind]
        split <;> rfl

/-! ## The loop -/

theorem rtcpWalk_eq_walk (fuel : Nat) (p : Bytes) : rtcpWalk fuel p = compound.walk fuel p := by
  induction fuel generalizing p with
  | zero => rfl
  | succ fuel ih =>
    unfold rtcpWalk Framing.walk
    by_cases h : compound.Fits p
    · have hno : ¬ (p.length < 4 ∨ p.length < ((ntohsAt p 2).toNat + 1) * 4) := by
        obtain ⟨h4, hlen⟩ := fits_compound.1 h
        rw [rtcpPacketLen] at hlen
        omega
      rw [if_pos h]
      exact (if_neg hno).trans (congrArg _ (ih _))
    · have hyes : p.length < 4 ∨ p.length < ((ntohsAt p 2).toNat + 1) * 4 := by
        rw [fits_compound, rtcpPacketLen] at h
        omega
      rw [if_neg h]
      exact if_pos hyes

theorem rtcpWalk_eq (p : Bytes) : rtcpWalk p.length p = compound.visits p := rtcpWalk_eq_walk _ p

theorem rtcpWalk_fuel {fuel : Nat} (h : p.length ≤ fuel) :
    rtcpWalk fuel p = rtcpWalk p.length p := by
  rw [rtcpWalk_eq_walk, rtcpWalk_eq_walk]
  exact Framing.walk_fuel h (Nat.le_refl _)

/-- A packet of the loop is a record of the compound. -/
theorem mem_visits_of_mem_zipIdx {x : (Bytes × Nat) × Nat}
    (hx : x ∈ (rtcpWalk rtcp.length rtcp).zipIdx) : x.1 ∈ compound.visits rtcp := by
  rw [← rtcpWalk_eq]
  exact List.fst_mem_of_mem_zipIdx hx

/-- The offsets at which the loop looks, the one where it stops included. -/
def offsets (rounds : List Round) (stop : Nat) : List Nat := rounds.map (·.offset) ++ [stop]

/-- The loop goes from `start` through `rounds` to `stop`: each packet starts where the one before
it ends by its own length field, and is inside the buffer; at `stop` no header is left, or one that
claims more than what is left. -/
structure Walk (rtcp : Bytes) (start : Nat) (rounds : List Round) (stop : Nat) : Prop where
  start : (offsets rounds stop).head? = some start
  consecutive : (offsets rounds stop).IsChain fun a b => b = a + rtcpPacketLen (rtcp.drop a)
  fits : ∀ x ∈ rounds, x.pktLen = rtcpPacketLen (rtcp.drop x.offset) ∧
    x.offset + x.pktLen ≤ rtcp.length
  stops : rtcp.length < stop + 4 ∨ rtcp.length < stop + rtcpPacketLen (rtcp.drop stop)

theorem Walk.nil (h : rtcp.length < offset + 4 ∨
    rtcp.length < offset + rtcpPacketLen (rtcp.drop offset)) : Walk rtcp offset [] offset :=
  ⟨rfl, .singleton _, fun _ hx => absurd hx List.not_mem_nil, h⟩

theorem Walk.cons {rounds : List Round} {stop : Nat} {sent : List Datagram}
    (hfit : offset + rtcpPacketLen (rtcp.drop offset) ≤ rtcp.length)
    (h : Walk rtcp (offset + rtcpPacketLen (rtcp.drop offset)) rounds stop) :
    Walk rtcp offset (⟨offset, rtcpPacketLen (rtcp.drop offset), sent⟩ :: rounds) stop where
  start := rfl
  consecutive := by
    have hstart := h.start
    have hchain := h.consecutive
    change (offset :: offsets rounds stop).IsChain _
    cases ho : offsets rounds stop with
    | nil => exact .singleton _
    | cons a l =>
      rw [ho] at hstart hchain
      obtain rfl := Option.some.inj hstart
      exact .cons_cons rfl hchain
  fits := List.forall_mem_cons.2 ⟨⟨rfl, hfit⟩, h.fits⟩
  stops := h.stops

theorem Walk.increasing {start stop : Nat} {rounds : List Round}
    (h : Walk rtcp start rounds stop) : (offsets rounds stop).Pairwise (· < ·) := by
  apply List.isChain_iff_pairwise.1
  refine h.consecutive.imp fun a b hab => ?_
  have hpos := rtcpPacketLen_pos (rtcp.drop a)
  omega

theorem Walk.aligned {start stop : Nat} {rounds : List Round} (h : Walk rtcp start rounds stop)
    (hstart : 4 ∣ start) : ∀ o ∈ offsets rounds stop, 4 ∣ o := by
  have hhead := h.start
  have hchain := h.consecutive
  generalize offsets rounds stop = l at hhead hchain
  clear h
  induction l generalizing start with
  | nil => cases hhead
  | cons a l ih =>
    obtain rfl := Option.some.inj hhead
    rw [List.forall_mem_cons]
    refine ⟨hstart, ?_⟩
    cases l with
    | nil => exact fun o ho => absurd ho List.not_mem_nil
    | cons b l =>
      have hab : b = a + rtcpPacketLen (rtcp.drop a) := hchain.rel
      have hb : 4 ∣ b := hab ▸ Nat.dvd_add hstart (dvd_rtcpPacketLen _)
      exact ih hb rfl hchain.of_cons

/-- What the loop sends from `p` on, its packets counted from `i`. -/
def sentFrom (r : Router) (srtp : SrtpOracle) (i : Nat) (p : Bytes) : List Datagram :=
  ((compound.visits p).zipIdx i).flatMap fun x => r.handleRtcp srtp x.2 x.1.1 x.1.2

theorem checkedLoop_spec (r : Router) (srtp : SrtpOracle) (rtcp : Bytes) {fuel : Nat} (i : Nat)
    (hfuel : rtcp.length < offset + fuel) (hoff : offset ≤ rtcp.length) :
    ∃ rounds stop, r.checkedLoop srtp rtcp fuel i offset = .ok (rounds, stop) ∧
      Walk rtcp offset rounds stop ∧
      rounds.flatMap (·.sent) = r.sentFrom srtp i (rtcp.drop offset) := by
  induction fuel generalizing i offset with
  | zero => omega
  | succ fuel ih =>
    have hstop : ¬ (offset + 4 ≤ rtcp.length ∧
        offset + rtcpPacketLen (rtcp.drop offset) ≤ rtcp.length) →
        r.sentFrom srtp i (rtcp.drop offset) = [] := fun hno => by
      have hfits : ¬ compound.Fits (rtcp.drop offset) := by
        rw [fits_compound, List.length_drop]
        omega
      rw [sentFrom, Framing.visits_stop hfits]
      rfl
    unfold checkedLoop
    by_cases h4 : offset + 4 ≤ rtcp.length
    · have hlen : ((lengthWords (rtcp.getD (offset + 2) 0) (rtcp.getD (offset + 3) 0)).toNat + 1) *
          4 = rtcpPacketLen (rtcp.drop offset) := by
        rw [rtcpPacketLen, ntohsAt_drop, lengthWords_eq]
        rfl
      have hpos := rtcpPacketLen_pos (rtcp.drop offset)
      rw [if_pos h4, read_ok (by omega) 0, ok_bind, read_ok (by omega) 0, ok_bind, hlen]
      dsimp only
      by_cases hfit : offset + rtcpPacketLen (rtcp.drop offset) ≤ rtcp.length
      · have hfits : compound.Fits (rtcp.drop offset) := by
          rw [fits_compound, List.length_drop]
          omega
        have hnext : rtcp.length < offset + rtcpPacketLen (rtcp.drop offset) + fuel := by omega
        obtain ⟨rounds, stop, hrest, hwalk, hsent⟩ := ih (i + 1) hnext hfit
        rw [if_neg (by omega), checkedRound_eq hfit, ok_bind, hrest]
        refine ⟨_, _, rfl, hwalk.cons hfit, ?_⟩
        rw [sentFrom, Framing.visits_cons hfits, List.zipIdx_cons, List.flatMap_cons,
          List.flatMap_cons, hsent, sentFrom, compound_size, List.drop_drop]
      · rw [if_pos (by omega)]
        exact ⟨[], offset, rfl, .nil (.inr (by omega)), (hstop fun h => hfit h.2).symm⟩
    · rw [if_neg h4]
      exact ⟨[], offset, rfl, .nil (.inl (by omega)), (hstop fun h => h4 h.1).symm⟩

/-- **The walk stays in bounds and ends.** For every buffer and every state of the router,
`onRtcpPacket` with its handlers reads no byte outside of the buffer, visits strictly increasing
offsets that are multiples of 4, up to the first packet that claims more than what is left, and
ends; it sends what `onRtcpPacket` of `Sfu/Rtcp.lean` sends. -/
theorem checkedOnRtcpPacket_spec (r : Router) (srtp : SrtpOracle) (rtcp : Bytes) :
    ∃ rounds stop, r.checkedOnRtcpPacket srtp rtcp = .ok (rounds, stop) ∧
      Walk rtcp 0 rounds stop ∧ (offsets rounds stop).Pairwise (· < ·) ∧
      (∀ o ∈ offsets rounds stop, 4 ∣ o) ∧
      rounds.flatMap (·.sent) = r.onRtcpPacket srtp rtcp := by
  have hfuel : rtcp.length < 0 + (rtcp.length + 1) := by omega
  obtain ⟨rounds, stop, hrun, hwalk, hsent⟩ :=
    checkedLoop_spec r srtp rtcp 0 hfuel (Nat.zero_le rtcp.length)
  refine ⟨rounds, stop, hrun, hwalk, hwalk.increasing, hwalk.aligned (Nat.dvd_zero 4), ?_⟩
  rw [hsent, List.drop_zero, sentFrom, onRtcpPacket, rtcpWalk_eq]

/-! ## Events -/

theorem request_event : request p len = (event p len).map RtcpEvent.request := by
  unfold request event
  by_cases hpli : rtcpIsPLI p = true
  · rw [if_pos hpli, if_pos hpli]
    rfl
  · rw [if_neg hpli, if_neg hpli]
    by_cases hnack : rtcpIsNACK p = true
    · rw [if_pos hnack, if_pos hnack]
      rfl
    · rw [if_neg hnack, if_neg hnack]
      by_cases hrr : rtcpIsRR p = true
      · rw [if_pos hrr, if_pos hrr]
        by_cases h8 : len < 8
        · rw [if_pos h8, if_pos h8]
          rfl
        · rw [if_neg h8, if_neg h8]
          rfl
      · rw [if_neg hrr, if_neg hrr]
        rfl

/-- **What is done for a packet depends on its event alone**, in every state. -/
theorem handleRtcp_event (r : Router) (srtp : SrtpOracle) (i : Nat) :
    r.handleRtcp srtp i p len =
      (event p len).elim [] fun e => r.translate srtp i e.request := by
  rw [handleRtcp_eq, request_event]
  cases event p len <;> rfl

end Namecon.Router
