import Namecon.Rtcp.Proof.Parsing
import Namecon.Sfu.Proof.RtcpReads

/-!
# The packets of a compound, one by one

The classifiers of the router compare the bytes that are left of the datagram with the size of the
feedback packet they look for, where `RtcpHandler` compares the length of the packet: a PLI or NACK
header on a shorter packet is read on into what follows.

* `isolates_iff_enough`: what the router does for a packet is a function of its own bytes exactly
  when it is no such packet (`Enough`).
* `walkers_agree`: on compounds without packets that are too short, the router and `RtcpHandler`
  find the same PLIs and NACKs.
-/

namespace Namecon.Router

open Checked
open Framing (own)

variable {p q rtcp : Bytes} {len i : Nat} {x : Bytes × Nat}

/-- The type and the format of a feedback packet. -/
def HasFormat (pt : UInt8) (p : Bytes) : Prop := p.getD 1 0 = pt ∧ p.getD 0 0 &&& 0x1F = 1

instance (pt : UInt8) (p : Bytes) : Decidable (HasFormat pt p) :=
  inferInstanceAs (Decidable (_ ∧ _))

/-- The packet `q` is as long as a PLI, or a NACK, if it says it is one. -/
structure Enough (q : Bytes) : Prop where
  pli : HasFormat 206 q → 12 ≤ q.length
  nack : HasFormat 205 q → 16 ≤ q.length

instance (q : Bytes) : Decidable (Enough q) :=
  decidable_of_iff ((HasFormat 206 q → 12 ≤ q.length) ∧ (HasFormat 205 q → 16 ≤ q.length))
    ⟨fun h => ⟨h.1, h.2⟩, fun h => ⟨h.1, h.2⟩⟩

theorem isFeedback_iff {minLen : Nat} {pt : UInt8} :
    isFeedback minLen pt p = true ↔ minLen ≤ p.length ∧ HasFormat pt p := by
  simp only [isFeedback, HasFormat, Bool.and_eq_true, decide_eq_true_eq, beq_iff_eq, and_assoc]

theorem rtcpIsRR_iff : rtcpIsRR p = true ↔ 8 ≤ p.length ∧ p.getD 1 0 = 201 := by
  simp only [rtcpIsRR, Bool.and_eq_true, decide_eq_true_eq, beq_iff_eq]

theorem hasFormat_take {pt : UInt8} (h : 2 ≤ len) : HasFormat pt (p.take len) ↔ HasFormat pt p := by
  unfold HasFormat
  rw [getD_take (by omega), getD_take (by omega)]

theorem not_hasFormat {pt t : UInt8} (ht : p.getD 1 0 = t) (hne : pt ≠ t) : ¬ HasFormat pt p :=
  fun h => hne (h.1.symm.trans ht)

/-- A packet of another type is no feedback of the type `pt`. -/
theorem not_isFeedback {minLen : Nat} {pt t : UInt8} (ht : p.getD 1 0 = t) (hne : pt ≠ t) :
    ¬ isFeedback minLen pt p = true := fun h => not_hasFormat ht hne (isFeedback_iff.1 h).2

/-! ## The event of a packet -/

theorem event_pli (h : HasFormat 206 p) :
    event p len = if 12 ≤ p.length then some (.pli (ntohlAt p 8)) else none := by
  have hno : ¬ (205 : UInt8) = 206 := by decide
  have hrr : ¬ (201 : UInt8) = 206 := by decide
  unfold event
  by_cases hlen : 12 ≤ p.length
  · rw [if_pos hlen]
    exact if_pos (isFeedback_iff.2 ⟨hlen, h⟩)
  · rw [if_neg hlen]
    refine (if_neg fun hpli => hlen (isFeedback_iff.1 hpli).1).trans ?_
    refine (if_neg fun hnack => hno ((isFeedback_iff.1 hnack).2.1.symm.trans h.1)).trans ?_
    exact if_neg fun hr => hrr ((rtcpIsRR_iff.1 hr).2.symm.trans h.1)

theorem event_nack (h : HasFormat 205 p) : event p len =
    if 16 ≤ p.length then some (.nack (ntohlAt p 8) (ntohsAt p 12) (ntohsAt p 14)) else none := by
  have hno : ¬ (206 : UInt8) = 205 := by decide
  have hrr : ¬ (201 : UInt8) = 205 := by decide
  unfold event
  refine (if_neg fun hpli => hno ((isFeedback_iff.1 hpli).2.1.symm.trans h.1)).trans ?_
  by_cases hlen : 16 ≤ p.length
  · rw [if_pos hlen]
    exact if_pos (isFeedback_iff.2 ⟨hlen, h⟩)
  · rw [if_neg hlen]
    refine (if_neg fun hnack => hlen (isFeedback_iff.1 hnack).1).trans ?_
    exact if_neg fun hr => hrr ((rtcpIsRR_iff.1 hr).2.symm.trans h.1)

theorem event_rr (hle : len ≤ p.length) (h : p.getD 1 0 = 201) :
    event p len = if len < 8 then none else some (.rr (ntohlAt p 4) (p.take len)) := by
  have hpli : ¬ (206 : UInt8) = 201 := by decide
  have hnack : ¬ (205 : UInt8) = 201 := by decide
  unfold event
  refine (if_neg fun hp => hpli ((isFeedback_iff.1 hp).2.1.symm.trans h)).trans ?_
  refine (if_neg fun hn => hnack ((isFeedback_iff.1 hn).2.1.symm.trans h)).trans ?_
  by_cases h8 : len < 8
  · rw [if_pos h8]
    split <;> rfl
  · rw [if_neg h8]
    exact if_pos (rtcpIsRR_iff.2 ⟨by omega, h⟩)

theorem event_other (hpli : ¬ HasFormat 206 p) (hnack : ¬ HasFormat 205 p)
    (hrr : p.getD 1 0 ≠ 201) : event p len = none := by
  unfold event
  refine (if_neg fun hp => hpli (isFeedback_iff.1 hp).2).trans ?_
  refine (if_neg fun hn => hnack (isFeedback_iff.1 hn).2).trans ?_
  exact if_neg fun hr => hrr (rtcpIsRR_iff.1 hr).2

/-- A packet that is long enough is taken for what its own bytes say. -/
theorem event_take (h4 : 4 ≤ len) (hle : len ≤ p.length) (h : Enough (p.take len)) :
    event (p.take len) len = event p len := by
  have htake : (p.take len).length = len := List.length_take_of_le hle
  have htype : (p.take len).getD 1 0 = p.getD 1 0 := getD_take (by omega)
  have hpli : HasFormat 206 (p.take len) ↔ HasFormat 206 p := hasFormat_take (by omega)
  have hnack : HasFormat 205 (p.take len) ↔ HasFormat 205 p := hasFormat_take (by omega)
  have hlong := h.pli
  have hlong' := h.nack
  rw [htake] at hlong hlong'
  by_cases h206 : HasFormat 206 p
  · have h12 := hlong (hpli.2 h206)
    rw [event_pli (hpli.2 h206), event_pli h206, htake, if_pos h12, if_pos (by omega),
      ntohlAt_take (by omega)]
  · by_cases h205 : HasFormat 205 p
    · have h16 := hlong' (hnack.2 h205)
      rw [event_nack (hnack.2 h205), event_nack h205, htake, if_pos h16, if_pos (by omega),
        ntohlAt_take (by omega), ntohsAt_take (by omega), ntohsAt_take (by omega)]
    · by_cases h201 : p.getD 1 0 = 201
      · rw [event_rr (Nat.le_of_eq htake.symm) (htype.trans h201), event_rr hle h201,
          List.take_take, Nat.min_self]
        by_cases h8 : len < 8
        · rw [if_pos h8, if_pos h8]
        · rw [if_neg h8, if_neg h8, ntohlAt_take (by omega)]
      · rw [event_other (fun h => h206 (hpli.1 h)) (fun h => h205 (hnack.1 h))
          (by rw [htype]; exact h201), event_other h206 h205 h201]

/-- A header that is too short for its format is taken for nothing where the datagram ends behind
it, and for feedback where enough bytes follow. -/
theorem event_short (h4 : 4 ≤ q.length) (h : ¬ Enough q) :
    event q q.length ≠ event (q ++ List.replicate 16 0) q.length := by
  have hlen : (q ++ List.replicate 16 0).length = q.length + 16 := by
    rw [List.length_append, List.length_replicate]
  have hformat : ∀ pt, HasFormat pt q → HasFormat pt (q ++ List.replicate 16 0) := fun pt hq => by
    have hq' : HasFormat pt ((q ++ List.replicate 16 0).take q.length) := by
      rw [List.take_left]
      exact hq
    exact (hasFormat_take (by omega)).1 hq'
  rcases Classical.not_and_iff_not_or_not.1 fun hboth => h ⟨hboth.1, hboth.2⟩ with hpli | hnack
  · obtain ⟨h206, hshort⟩ := Classical.not_imp.1 hpli
    rw [event_pli h206, event_pli (hformat 206 h206), if_neg hshort, if_pos (by omega)]
    exact fun heq => by cases heq
  · obtain ⟨h205, hshort⟩ := Classical.not_imp.1 hnack
    rw [event_nack h205, event_nack (hformat 205 h205), if_neg hshort, if_pos (by omega)]
    exact fun heq => by cases heq

/-! ## Isolation -/

/-- What the router does for the packet `x`, number `i` of the datagram `rtcp`, is a function of the
bytes of the packet: any packet of any datagram with the same bytes is taken for the same and
handled in the same way by a router in the same state. So other bytes behind it, as many as there
are, change nothing. -/
structure Isolates (rtcp : Bytes) (i : Nat) (x : Bytes × Nat) : Prop where
  taken : ∀ rtcp', ∀ y ∈ compound.visits rtcp', own y = own x → event y.1 y.2 = event x.1 x.2
  handled : ∀ rtcp', ∀ y ∈ compound.visits rtcp', own y = own x → ∀ (r : Router) srtp j,
    r.handleRtcp srtp j y.1 y.2 = r.handleRtcp srtp j x.1 x.2
  replaced : ∀ behind : Bytes, behind.length = (x.1.drop x.2).length →
    ∃ y, (compound.visits (rtcp.take (rtcp.length - behind.length) ++ behind))[i]? = some y ∧
      own y = own x ∧ event y.1 y.2 = event x.1 x.2

theorem event_own (h : x ∈ compound.visits rtcp) (henough : Enough (own x)) :
    event x.1 x.2 = event (own x) (own x).length := by
  obtain ⟨h4, hle⟩ := Framing.bounds_of_mem_visits h
  rw [Framing.length_own h]
  exact (event_take h4 hle henough).symm

/-- **When a packet is isolated.** -/
theorem isolates_iff_enough (rtcp : Bytes) (i : Nat) (x : Bytes × Nat)
    (hx : (compound.visits rtcp)[i]? = some x) : Isolates rtcp i x ↔ Enough (own x) := by
  have hmem : x ∈ compound.visits rtcp := List.mem_of_getElem? hx
  have hrec : compound.IsRecord (own x) := Framing.isRecord_own hmem
  constructor
  · intro h
    by_contra hshort
    -- the packet alone, and with zeros behind it
    have hbare : own (own x ++ [], (own x).length) = own x := List.take_left
    have hzeros : own (own x ++ List.replicate 16 0, (own x).length) = own x := List.take_left
    have h1 := h.taken (own x ++ []) _ (by rw [Framing.visits_append hrec]; exact .head _) hbare
    have h2 := h.taken (own x ++ List.replicate 16 0) _
      (by rw [Framing.visits_append hrec]; exact .head _) hzeros
    rw [List.append_nil] at h1
    exact event_short hrec.1 hshort (h1.trans h2.symm)
  · intro henough
    have htaken : ∀ rtcp', ∀ y ∈ compound.visits rtcp', own y = own x →
        event y.1 y.2 = event x.1 x.2 := fun rtcp' y hy hown => by
      rw [event_own hy (hown.symm ▸ henough), event_own hmem henough, hown]
    refine ⟨htaken, fun rtcp' y hy hown r srtp j => ?_, fun behind hbehind => ?_⟩
    · rw [handleRtcp_event, handleRtcp_event, htaken rtcp' y hy hown]
    · have hat := Framing.visits_replace hx behind
      have hown : own (own x ++ behind, (own x).length) = own x := List.take_left
      refine ⟨(own x ++ behind, (own x).length), ?_, hown, ?_⟩
      · rw [hbehind, Framing.take_upTo hx]
        exact hat
      · exact htaken _ _ (List.mem_of_getElem? hat) hown

theorem isolates_iff_enough_pair :
    Isolates [0x80, 203, 0, 0, 0x81, 206, 0, 0] 1 ([0x81, 206, 0, 0], 4) ↔
      Enough (own (([0x81, 206, 0, 0], 4) : Bytes × Nat)) :=
  isolates_iff_enough _ _ _ (by decide)

/-- A PLI that is nothing but its header, in front of a packet of two words. -/
theorem header_not_isolated : ¬ ∀ rtcp i x, (compound.visits rtcp)[i]? = some x →
    Isolates rtcp i x := by
  intro h
  have hfirst := h [0x81, 206, 0, 0, 0x80, 203, 0, 1, 0, 0, 0, 7] 0
    ([0x81, 206, 0, 0, 0x80, 203, 0, 1, 0, 0, 0, 7], 4) (by decide)
  have heq := hfirst.taken [0x81, 206, 0, 0, 0x80, 203, 0, 1, 0, 0, 0, 8]
    ([0x81, 206, 0, 0, 0x80, 203, 0, 1, 0, 0, 0, 8], 4) (by decide) (by decide)
  exact absurd heq (by decide)

/-! ## The two walkers -/

/-- A PLI or a NACK. -/
def RtcpEvent.isFeedback : RtcpEvent → Bool
  | .pli _ => true
  | .nack .. => true
  | .rr .. => false

/-- A call of the PLI or the NACK callback, as the event it stands for. -/
def callbackEvent : RtcpHandler.Callback → Option RtcpEvent
  | .pli mediaSsrc => some (.pli mediaSsrc)
  | .nack mediaSsrc pid blp => some (.nack mediaSsrc pid blp)
  | .sdes .. => none
  | .sr .. => none

/-- The packet `q` has the fixed part of its type. -/
structure Minimal (q : Bytes) : Prop where
  enough : Enough q
  sr : q.getD 1 0 = 200 → 28 ≤ q.length
  sdes : q.getD 1 0 = 202 → 8 ≤ q.length

instance (q : Bytes) : Decidable (Minimal q) :=
  decidable_of_iff
    (Enough q ∧ (q.getD 1 0 = 200 → 28 ≤ q.length) ∧ (q.getD 1 0 = 202 → 8 ≤ q.length))
    ⟨fun h => ⟨h.1, h.2.1, h.2.2⟩, fun h => ⟨h.1, h.2, h.3⟩⟩

theorem callbackEvent_call {cb : Bool} (hcb : cb = true) (c : RtcpHandler.Callback) :
    (RtcpHandler.call cb c).filterMap callbackEvent = (callbackEvent c).toList := by
  rw [RtcpHandler.call, if_pos hcb]
  cases hc : callbackEvent c <;> simp [hc]

theorem Minimal.readable (h : Minimal (p.take len)) (h4 : 4 ≤ len) (hle : len ≤ p.length) :
    RtcpHandler.Readable p := by
  have htype : (p.take len).getD 1 0 = p.getD 1 0 := getD_take (by omega)
  have htake : (p.take len).length = len := List.length_take_of_le hle
  have hsr := h.sr
  have hsdes := h.sdes
  rw [htype, htake] at hsr hsdes
  exact ⟨fun h200 => Nat.le_trans (hsr h200) hle, fun h202 => Nat.le_trans (hsdes h202) hle⟩

/-- **One packet**: what the handler calls for it, and what the router takes it for. -/
theorem made_event {h : RtcpHandler} (hpli : h.pliCb = true) (hnack : h.nackCb = true)
    (h4 : 4 ≤ len) (hle : len ≤ p.length) (hmin : Minimal (p.take len)) :
    (h.made (p, len)).filterMap callbackEvent =
      (event p len).toList.filter RtcpEvent.isFeedback := by
  have hread : RtcpHandler.Readable p := hmin.readable h4 hle
  have htake : (p.take len).length = len := List.length_take_of_le hle
  have hlong := hmin.enough.pli
  have hlong' := hmin.enough.nack
  rw [htake, hasFormat_take (by omega)] at hlong hlong'
  by_cases h200 : p.getD 1 0 = 200
  · have hs : h.switch p len (p.getD 1 0) = h.caseSr p := by rw [h200]; rfl
    rw [RtcpHandler.made_eq (hs.trans (RtcpHandler.caseSr_eq (hread.sr h200))),
      event_other (not_hasFormat h200 (by decide)) (not_hasFormat h200 (by decide))
        (by rw [h200]; decide), RtcpHandler.call]
    split <;> rfl
  by_cases h202 : p.getD 1 0 = 202
  · have hs : h.switch p len (p.getD 1 0) = h.caseSdes p len := by rw [h202]; rfl
    obtain ⟨cbs, hcbs, hall⟩ := RtcpHandler.caseSdes_eq (h := h) (hread.sdes h202) hle (by omega)
    rw [RtcpHandler.made_eq (hs.trans hcbs), event_other (not_hasFormat h202 (by decide))
      (not_hasFormat h202 (by decide)) (by rw [h202]; decide)]
    refine List.filterMap_eq_nil_iff.2 fun cb hcb => ?_
    obtain ⟨cname, rfl⟩ := hall cb hcb
    rfl
  by_cases h205 : p.getD 1 0 = 205
  · have hs : h.switch p len (p.getD 1 0) = h.caseRtpfb p len := by rw [h205]; rfl
    rw [RtcpHandler.made_eq (hs.trans (RtcpHandler.caseRtpfb_eq hle (by omega)))]
    by_cases hfmt : p.getD 0 0 &&& 0x1F = 1
    · have h16 := hlong' ⟨h205, hfmt⟩
      rw [if_pos ⟨hfmt, h16⟩, callbackEvent_call hnack, event_nack ⟨h205, hfmt⟩,
        if_pos (by omega)]
      rfl
    · rw [if_neg fun hc => hfmt hc.1, event_other (not_hasFormat h205 (by decide))
        (fun hc => hfmt hc.2) (by rw [h205]; decide)]
      rfl
  by_cases h206 : p.getD 1 0 = 206
  · have hs : h.switch p len (p.getD 1 0) = h.casePsfb p len := by rw [h206]; rfl
    rw [RtcpHandler.made_eq (hs.trans (RtcpHandler.casePsfb_eq hle (by omega)))]
    by_cases hfmt : p.getD 0 0 &&& 0x1F = 1
    · have h12 := hlong ⟨h206, hfmt⟩
      rw [if_pos ⟨hfmt, h12⟩, callbackEvent_call hpli, event_pli ⟨h206, hfmt⟩, if_pos (by omega)]
      rfl
    · rw [if_neg fun hc => hfmt hc.1, event_other (fun hc => hfmt hc.2)
        (not_hasFormat h206 (by decide)) (by rw [h206]; decide)]
      rfl
  have hs : h.switch p len (p.getD 1 0) = .ok [] := by
    unfold RtcpHandler.switch
    rw [if_neg h200, if_neg h202, if_neg h205, if_neg h206]
    rfl
  rw [RtcpHandler.made_eq hs]
  by_cases h201 : p.getD 1 0 = 201
  · rw [event_rr hle h201]
    split <;> rfl
  · rw [event_other (fun hc => h206 hc.1) (fun hc => h205 hc.1) h201]
    rfl

/-- **The two walkers agree.** On a datagram without packets that are too short for their type, the
PLIs and NACKs that the router dispatches are those for which `RtcpHandler` calls its callbacks. -/
theorem walkers_agree {h : RtcpHandler} (hpli : h.pliCb = true) (hnack : h.nackCb = true)
    (data : Bytes) (hmin : ∀ q ∈ compound.records data, Minimal q) :
    ∃ cbs, h.onRtcpPacket data = .ok cbs ∧
      cbs.filterMap callbackEvent = (events data).filter RtcpEvent.isFeedback := by
  have hown : ∀ x ∈ compound.visits data, Minimal (own x) := fun x hx =>
    hmin _ (List.mem_map_of_mem hx)
  have hread : ∀ x ∈ compound.visits data, RtcpHandler.Readable x.1 := fun x hx => by
    obtain ⟨h4, hle⟩ := Framing.bounds_of_mem_visits hx
    exact (hown x hx).readable h4 hle
  refine ⟨_, RtcpHandler.onRtcpPacket_eq hread, ?_⟩
  rw [events, rtcpWalk_eq, List.filterMap_flatMap, List.filter_flatMap]
  refine List.flatMap_congr fun x hx => ?_
  obtain ⟨h4, hle⟩ := Framing.bounds_of_mem_visits hx
  exact made_event hpli hnack h4 hle (hown x hx)

/-- A PLI, a source description with no items, a receiver report, and a header that claims more than
what is left. -/
theorem walkers_agree_compound :
    ∃ cbs, ({ pliCb := true, nackCb := true } : RtcpHandler).onRtcpPacket
        ([0x81, 206, 0, 2, 0, 0, 0, 0, 0, 0, 0, 7, 0x81, 202, 0, 1, 0, 0, 0, 1,
          0x80, 201, 0, 1, 0, 0, 0, 1, 0x81, 206, 0, 2]) = .ok cbs ∧
      cbs.filterMap callbackEvent = (events [0x81, 206, 0, 2, 0, 0, 0, 0, 0, 0, 0, 7,
        0x81, 202, 0, 1, 0, 0, 0, 1, 0x80, 201, 0, 1, 0, 0, 0, 1,
        0x81, 206, 0, 2]).filter RtcpEvent.isFeedback :=
  walkers_agree rfl rfl _ (by decide)

end Namecon.Router
