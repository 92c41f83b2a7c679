import Namecon.Rtcp.RtcpHandler

/-!
# What the handler reads

`onRtcpPacket` compares the length of a packet with its fields for feedback packets, and the lengths
of the items of a source description with its end. A sender report and the SSRC of a source
description are read without a look at the length.

* `returns_switch`: which packets are read in bounds.
* `onRtcpPacket_returns_iff`: which buffers are read in bounds, to the end.
* `onRtcpPacket_eq`: what is called then, packet by packet (`made`).
-/

namespace Namecon.RtcpHandler

open Checked

variable {h : RtcpHandler} {p : Bytes} {len : Nat}

/-- The fields that are read without a look at the length of the packet are there. -/
structure Readable (p : Bytes) : Prop where
  sr : p.getD 1 0 = 200 → 28 ≤ p.length
  sdes : p.getD 1 0 = 202 → 8 ≤ p.length

instance (p : Bytes) : Decidable (Readable p) :=
  decidable_of_iff ((p.getD 1 0 = 200 → 28 ≤ p.length) ∧ (p.getD 1 0 = 202 → 8 ≤ p.length))
    ⟨fun h => ⟨h.1, h.2⟩, fun h => ⟨h.1, h.2⟩⟩

/-! ## One packet -/

theorem caseSr_eq (hp : 28 ≤ p.length) : h.caseSr p = .ok (call h.srCb (.sr (ntohlAt p 4)
    (ntohlAt p 8) (ntohlAt p 12) (ntohlAt p 16) (ntohlAt p 20) (ntohlAt p 24))) := by
  unfold caseSr
  rw [readNtohl_ok (by omega), ok_bind, readNtohl_ok (by omega), ok_bind, readNtohl_ok (by omega),
    ok_bind, readNtohl_ok (by omega), ok_bind, readNtohl_ok (by omega), ok_bind,
    readNtohl_ok (by omega)]
  rfl

theorem returns_caseSr : Returns (h.caseSr p) ↔ 28 ≤ p.length := by
  constructor
  · intro hr
    obtain ⟨_, -, hr⟩ := returns_bind.1 hr
    obtain ⟨_, -, hr⟩ := returns_bind.1 hr
    obtain ⟨_, -, hr⟩ := returns_bind.1 hr
    obtain ⟨_, -, hr⟩ := returns_bind.1 hr
    obtain ⟨_, -, hr⟩ := returns_bind.1 hr
    obtain ⟨octCnt, hlast, -⟩ := returns_bind.1 hr
    exact returns_readNtohl.1 ⟨octCnt, hlast⟩
  · intro hp
    rw [caseSr_eq hp]
    exact returns_ok _

/-- The loop over the items stays below `itemEnd`, and it calls the SDES callback alone. -/
theorem sdesItems_spec (h : RtcpHandler) (ssrc : UInt32) {itemEnd : Nat} (hend : itemEnd ≤ p.length)
    {fuel item : Nat} (hpos : 0 < fuel) (hfuel : itemEnd < item + fuel) :
    ∃ cbs, h.sdesItems p ssrc itemEnd fuel item = .ok cbs ∧
      ∀ cb ∈ cbs, ∃ cname, cb = .sdes ssrc cname := by
  induction fuel generalizing item with
  | zero => omega
  | succ fuel ih =>
    unfold sdesItems
    by_cases hitem : item + 2 ≤ itemEnd
    · rw [if_pos hitem, read_ok (by omega) 0, ok_bind]
      by_cases htype : p.getD item 0 = 0
      · rw [if_pos htype]
        exact ⟨[], rfl, fun cb hcb => absurd hcb List.not_mem_nil⟩
      · rw [if_neg htype, read_ok (by omega) 0, ok_bind]
        by_cases hval : itemEnd < item + 2 + (p.getD (item + 1) 0).toNat
        · rw [if_pos hval]
          exact ⟨[], rfl, fun cb hcb => absurd hcb List.not_mem_nil⟩
        · have hnext : itemEnd < item + 2 + (p.getD (item + 1) 0).toNat + fuel := by omega
          obtain ⟨rest, hrest, hall⟩ := ih (by omega) hnext
          rw [if_neg hval]
          split
          · rw [readSlice_ok (by omega), ok_bind, hrest]
            refine ⟨_, rfl, fun cb hcb => ?_⟩
            rcases List.mem_append.1 hcb with hcb | hcb
            · unfold call at hcb
              split at hcb
              · exact ⟨_, List.mem_singleton.1 hcb⟩
              · cases hcb
            · exact hall cb hcb
          · exact ⟨rest, hrest, hall⟩
    · rw [if_neg hitem]
      exact ⟨[], rfl, fun cb hcb => absurd hcb List.not_mem_nil⟩

theorem caseSdes_eq (hp : 8 ≤ p.length) (hlen : len ≤ p.length) (hpos : 0 < len) :
    ∃ cbs, h.caseSdes p len = .ok cbs ∧ ∀ cb ∈ cbs, ∃ cname, cb = .sdes (ntohlAt p 4) cname := by
  unfold caseSdes
  rw [readNtohl_ok (by omega), ok_bind]
  exact sdesItems_spec h (ntohlAt p 4) hlen hpos (by omega)

theorem returns_caseSdes (hlen : len ≤ p.length) (hpos : 0 < len) :
    Returns (h.caseSdes p len) ↔ 8 ≤ p.length := by
  constructor
  · intro hr
    obtain ⟨ssrc, hssrc, -⟩ := returns_bind.1 hr
    exact returns_readNtohl.1 ⟨ssrc, hssrc⟩
  · intro hp
    obtain ⟨cbs, hcbs, -⟩ := caseSdes_eq (h := h) hp hlen hpos
    exact ⟨cbs, hcbs⟩

theorem caseRtpfb_eq (hlen : len ≤ p.length) (hpos : 0 < len) : h.caseRtpfb p len =
    .ok (if p.getD 0 0 &&& 0x1F = 1 ∧ 16 ≤ len then
      call h.nackCb (.nack (ntohlAt p 8) (ntohsAt p 12) (ntohsAt p 14)) else []) := by
  unfold caseRtpfb
  rw [read_ok (by omega) 0, ok_bind]
  split
  · rw [readNtohl_ok (by omega), ok_bind, readNtohs_ok (by omega), ok_bind,
      readNtohs_ok (by omega)]
    rfl
  · rfl

theorem casePsfb_eq (hlen : len ≤ p.length) (hpos : 0 < len) : h.casePsfb p len =
    .ok (if p.getD 0 0 &&& 0x1F = 1 ∧ 12 ≤ len then call h.pliCb (.pli (ntohlAt p 8)) else []) := by
  unfold casePsfb
  rw [read_ok (by omega) 0, ok_bind]
  split
  · rw [readNtohl_ok (by omega)]
    rfl
  · rfl

theorem returns_switch (hlen : len ≤ p.length) (hpos : 0 < len) :
    Returns (h.switch p len (p.getD 1 0)) ↔ Readable p := by
  have h200 : (202 : UInt8) ≠ 200 := by decide
  unfold switch
  by_cases hsr : p.getD 1 0 = 200
  · rw [if_pos hsr, returns_caseSr]
    exact ⟨fun hp => ⟨fun _ => hp, fun hsdes => absurd (hsdes.symm.trans hsr) h200⟩,
      fun hp => hp.sr hsr⟩
  · rw [if_neg hsr]
    by_cases hsdes : p.getD 1 0 = 202
    · rw [if_pos hsdes, returns_caseSdes hlen hpos]
      exact ⟨fun hp => ⟨fun hsr' => absurd hsr' hsr, fun _ => hp⟩, fun hp => hp.sdes hsdes⟩
    · have hread : Readable p := ⟨fun hsr' => absurd hsr' hsr, fun hsdes' => absurd hsdes' hsdes⟩
      rw [if_neg hsdes]
      refine iff_of_true ?_ hread
      split
      · rw [caseRtpfb_eq hlen hpos]
        exact returns_ok _
      · split
        · rw [casePsfb_eq hlen hpos]
          exact returns_ok _
        · exact returns_ok _

/-! ## The compound -/

theorem packets_stop {fuel : Nat} (hp : ¬ compound.Fits p) : h.packets (fuel + 1) p = .ok [] := by
  unfold packets
  split
  · rename_i h4
    have hlen : p.length < rtcpPacketLen p := Nat.lt_of_not_le fun hle => hp ⟨h4, hle⟩
    rw [read_ok (by omega) 0, ok_bind, readNtohs_ok (by omega), ok_bind]
    exact if_pos hlen
  · rfl

theorem packets_round {fuel : Nat} (hp : compound.Fits p) :
    h.packets (fuel + 1) p = (do
      let cbs ← h.switch p (rtcpPacketLen p) (p.getD 1 0)
      let rest ← h.packets fuel (p.drop (rtcpPacketLen p))
      return cbs ++ rest) := by
  obtain ⟨h4, hlen⟩ := fits_compound.1 hp
  rw [packets, if_pos h4, read_ok (by omega) 0, ok_bind, readNtohs_ok (by omega), ok_bind]
  exact if_neg (by rw [rtcpPacketLen] at hlen; omega)

/-- What the loop does for a packet it visits. -/
def visit (h : RtcpHandler) (x : Bytes × Nat) : Result (List Callback) :=
  h.switch x.1 x.2 (x.1.getD 1 0)

/-- The loop is its rounds, one after the other. -/
theorem packets_mapM {fuel : Nat} (hfuel : p.length < fuel) :
    h.packets fuel p = (compound.visits p).mapM h.visit >>= fun cbs => .ok cbs.flatten := by
  induction p using compound.fits_induction generalizing fuel with
  | stop p hp =>
    obtain ⟨fuel, rfl⟩ := Nat.exists_eq_succ_of_ne_zero (Nat.ne_of_gt (Nat.zero_lt_of_lt hfuel))
    rw [packets_stop hp, Framing.visits_stop hp]
    rfl
  | round p hp ih =>
    obtain ⟨fuel, rfl⟩ := Nat.exists_eq_succ_of_ne_zero (Nat.ne_of_gt (Nat.zero_lt_of_lt hfuel))
    have hlt := Framing.length_drop_size hp
    have hrest : h.packets fuel (p.drop (rtcpPacketLen p)) = _ :=
      ih (Nat.lt_of_lt_of_le hlt (Nat.le_of_lt_succ hfuel))
    rw [packets_round hp, hrest, Framing.visits_cons hp, List.mapM_cons]
    simp only [bind_assoc]
    rfl

theorem returns_visit {x : Bytes × Nat} (hx : x ∈ compound.visits p) :
    Returns (h.visit x) ↔ Readable x.1 := by
  obtain ⟨h4, hle⟩ := Framing.bounds_of_mem_visits hx
  exact returns_switch hle (Nat.lt_of_lt_of_le compound.header_pos h4)

/-- **When the handler parses in bounds**: every sender report has its 28 bytes up to the end of the
buffer, and every source description its SSRC. -/
theorem onRtcpPacket_returns_iff (h : RtcpHandler) (data : Bytes) :
    Returns (h.onRtcpPacket data) ↔ ∀ x ∈ compound.visits data, Readable x.1 := by
  have hloop : h.onRtcpPacket data = _ := packets_mapM (Nat.lt_succ_self _)
  rw [hloop, returns_bind_ok, returns_mapM]
  exact forall₂_congr fun x hx => returns_visit hx

/-- A sender report that is nothing but its header. -/
theorem onRtcpPacket_reads_past : ¬ ∀ (h : RtcpHandler) (data : Bytes),
    Returns (h.onRtcpPacket data) := by
  intro hall
  obtain ⟨cbs, hcbs⟩ := hall {} [0x80, 200, 0, 0]
  have hfault : (({} : RtcpHandler).onRtcpPacket [0x80, 200, 0, 0]) =
      .error (.outOfBounds 4) := rfl
  rw [hfault] at hcbs
  cases hcbs

/-- The calls for one packet that is read in bounds. -/
def made (h : RtcpHandler) (x : Bytes × Nat) : List Callback :=
  match h.switch x.1 x.2 (x.1.getD 1 0) with
  | .ok cbs => cbs
  | .error _ => []

theorem made_eq {cbs : List Callback} (hs : h.switch p len (p.getD 1 0) = .ok cbs) :
    h.made (p, len) = cbs := by
  simp only [made, hs]

/-- The calls for a buffer that is read in bounds, packet by packet. -/
theorem onRtcpPacket_eq {data : Bytes} (hread : ∀ x ∈ compound.visits data, Readable x.1) :
    h.onRtcpPacket data = .ok ((compound.visits data).flatMap h.made) := by
  have hloop : h.onRtcpPacket data = _ := packets_mapM (Nat.lt_succ_self _)
  have hmade : ∀ x ∈ compound.visits data, h.visit x = .ok (h.made x) := fun x hx => by
    obtain ⟨cbs, hcbs⟩ := (returns_visit hx).2 (hread x hx)
    rw [hcbs, made_eq hcbs]
  rw [hloop, mapM_ok hmade, ok_bind, List.flatMap_def]

end Namecon.RtcpHandler
