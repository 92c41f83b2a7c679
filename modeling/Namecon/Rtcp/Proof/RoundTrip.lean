import Namecon.Rtcp.Proof.Parsing

/-!
# What is sent is parsed

`sendPLI`, `sendNACK` and `sendSR` write complete packets (`isRecord_bytes`), so a concatenation of
their buffers is taken apart into them again, and each is parsed as the message it was made from
(`made_bytes`): `onRtcpPacket_send`.
-/

namespace Namecon.RtcpHandler

open Checked

/-- A call of one of the three send functions. -/
inductive Message
  | pli (senderSsrc mediaSsrc : UInt32)
  | nack (senderSsrc mediaSsrc : UInt32) (pid blp : UInt16)
  | sr (receiverSsrc mediaSsrc ntpMsw ntpLsw rtpTs pktCnt octCnt : UInt32)
deriving DecidableEq, Repr

/-- The sender of a message. -/
def send (h : RtcpHandler) : Message → List Bytes
  | .pli senderSsrc mediaSsrc => h.sendPLI senderSsrc mediaSsrc
  | .nack senderSsrc mediaSsrc pid blp => h.sendNACK senderSsrc mediaSsrc pid blp
  | .sr receiverSsrc mediaSsrc ntpMsw ntpLsw rtpTs pktCnt octCnt =>
    h.sendSR receiverSsrc mediaSsrc ntpMsw ntpLsw rtpTs pktCnt octCnt

/-- What the receiver is told of a message. -/
def Message.callback : Message → Callback
  | .pli _ mediaSsrc => .pli mediaSsrc
  | .nack _ mediaSsrc pid blp => .nack mediaSsrc pid blp
  | .sr receiverSsrc _ ntpMsw ntpLsw rtpTs pktCnt octCnt =>
    .sr receiverSsrc ntpMsw ntpLsw rtpTs pktCnt octCnt

/-- The callback for `c` is set. -/
def hears (h : RtcpHandler) : Callback → Bool
  | .pli .. => h.pliCb
  | .nack .. => h.nackCb
  | .sdes .. => h.sdesCb
  | .sr .. => h.srCb

/-- The buffer of a message. -/
def Message.bytes (m : Message) : Bytes := (({ sendCb := true } : RtcpHandler).send m).flatten

theorem send_eq {h : RtcpHandler} (hsend : h.sendCb = true) (m : Message) :
    h.send m = [m.bytes] := by
  cases m with
  | pli _ _ => simp [Message.bytes, send, sendPLI, call, hsend]
  | nack _ _ _ _ => simp [Message.bytes, send, sendNACK, call, hsend]
  | sr _ _ _ _ _ _ _ => simp [Message.bytes, send, sendSR, call, hsend]

/-- The length field counts the words of the buffer. -/
theorem isRecord_bytes (m : Message) : compound.IsRecord m.bytes := by
  cases m with
  | pli senderSsrc mediaSsrc =>
    exact isRecord_compound (0x80 ||| 1) 206 (htonl senderSsrc ++ htonl mediaSsrc) rfl
  | nack senderSsrc mediaSsrc pid blp =>
    exact isRecord_compound (0x80 ||| 1) 205
      (htonl senderSsrc ++ htonl mediaSsrc ++ htons pid ++ htons blp) rfl
  | sr receiverSsrc mediaSsrc ntpMsw ntpLsw rtpTs pktCnt octCnt =>
    exact isRecord_compound 0x80 200
      (htonl receiverSsrc ++ htonl ntpMsw ++ htonl ntpLsw ++ htonl rtpTs ++ htonl pktCnt ++
        htonl octCnt) rfl

theorem filter_hears (h : RtcpHandler) (c : Callback) :
    [c].filter h.hears = call (h.hears c) c := by
  unfold call
  cases hc : h.hears c <;> simp [hc]

/-- A packet is parsed as the message it was made from, whatever follows it. -/
theorem switch_bytes (h : RtcpHandler) (m : Message) (q : Bytes) :
    h.switch (m.bytes ++ q) m.bytes.length ((m.bytes ++ q).getD 1 0) =
      .ok ([m.callback].filter h.hears) := by
  have hfmt : (0x80 ||| 1 : UInt8) &&& 0x1F = 1 := by decide
  have hle := (List.prefix_append m.bytes q).length_le
  rw [filter_hears]
  cases m with
  | pli senderSsrc mediaSsrc =>
    have hmedia : ntohlAt ((Message.pli senderSsrc mediaSsrc).bytes ++ q) 8 = mediaSsrc :=
      ntohl_htonl mediaSsrc
    refine (casePsfb_eq hle (Nat.zero_lt_succ 11)).trans (congrArg Except.ok ?_)
    rw [hmedia]
    exact if_pos ⟨hfmt, Nat.le_refl 12⟩
  | nack senderSsrc mediaSsrc pid blp =>
    have hmedia : ntohlAt ((Message.nack senderSsrc mediaSsrc pid blp).bytes ++ q) 8 = mediaSsrc :=
      ntohl_htonl mediaSsrc
    have hpid : ntohsAt ((Message.nack senderSsrc mediaSsrc pid blp).bytes ++ q) 12 = pid :=
      ntohs_htons pid
    have hblp : ntohsAt ((Message.nack senderSsrc mediaSsrc pid blp).bytes ++ q) 14 = blp :=
      ntohs_htons blp
    refine (caseRtpfb_eq hle (Nat.zero_lt_succ 15)).trans (congrArg Except.ok ?_)
    rw [hmedia, hpid, hblp]
    exact if_pos ⟨hfmt, Nat.le_refl 16⟩
  | sr receiverSsrc mediaSsrc ntpMsw ntpLsw rtpTs pktCnt octCnt =>
    refine (caseSr_eq (Nat.le_trans (Nat.le_refl 28) hle)).trans (congrArg Except.ok ?_)
    refine congrArg (call h.srCb) ?_
    have hbytes : (Message.sr receiverSsrc mediaSsrc ntpMsw ntpLsw rtpTs pktCnt octCnt).bytes ++ q =
        0x80 :: 200 :: 0 :: 6 :: (htonl receiverSsrc ++ (htonl ntpMsw ++ (htonl ntpLsw ++
          (htonl rtpTs ++ (htonl pktCnt ++ (htonl octCnt ++ q)))))) := rfl
    rw [hbytes, Message.callback, Callback.sr.injEq]
    exact ⟨ntohl_htonl receiverSsrc, ntohl_htonl ntpMsw, ntohl_htonl ntpLsw, ntohl_htonl rtpTs,
      ntohl_htonl pktCnt, ntohl_htonl octCnt⟩

theorem made_bytes (h : RtcpHandler) (m : Message) (q : Bytes) :
    h.made (m.bytes ++ q, m.bytes.length) = [m.callback].filter h.hears := by
  unfold made
  rw [switch_bytes]

theorem readable_bytes (m : Message) (q : Bytes) : Readable (m.bytes ++ q) := by
  have hle := (List.prefix_append m.bytes q).length_le
  have hpos : 0 < m.bytes.length := Nat.lt_of_lt_of_le compound.header_pos (isRecord_bytes m).1
  apply (returns_switch (h := {}) hle hpos).1
  rw [switch_bytes]
  exact returns_ok _

/-! ## The concatenation -/

theorem flatten_send {s : RtcpHandler} (hsend : s.sendCb = true) (msgs : List Message) :
    (msgs.flatMap s.send).flatten = (msgs.map Message.bytes).flatten := by
  induction msgs with
  | nil => rfl
  | cons m msgs ih => rw [List.flatMap_cons, send_eq hsend, List.flatten_append, ih]; simp

/-- The packets of the concatenation are those of the messages. -/
theorem visits_bytes (msgs : List Message) :
    (∀ x ∈ compound.visits (msgs.map Message.bytes).flatten, Readable x.1) ∧
      ∀ h : RtcpHandler, (compound.visits (msgs.map Message.bytes).flatten).flatMap h.made =
        (msgs.map Message.callback).filter h.hears := by
  induction msgs with
  | nil => exact ⟨fun x hx => absurd hx List.not_mem_nil, fun _ => rfl⟩
  | cons m msgs ih =>
    rw [List.map_cons, List.flatten_cons, Framing.visits_append (isRecord_bytes m)]
    constructor
    · rw [List.forall_mem_cons]
      exact ⟨readable_bytes m _, ih.1⟩
    · intro h
      rw [List.flatMap_cons, made_bytes, ih.2, List.map_cons, ← List.filter_append,
        List.singleton_append]

/-- **The round trip.** The buffers that `sendPLI`, `sendNACK` and `sendSR` hand to the send
callback for any list of messages, concatenated and parsed, trigger the callbacks of the messages,
in order and with their fields, and nothing else. -/
theorem onRtcpPacket_send {s : RtcpHandler} (hsend : s.sendCb = true) (h : RtcpHandler)
    (msgs : List Message) : h.onRtcpPacket (msgs.flatMap s.send).flatten =
      .ok ((msgs.map Message.callback).filter h.hears) := by
  rw [flatten_send hsend, onRtcpPacket_eq (visits_bytes msgs).1, (visits_bytes msgs).2]

theorem onRtcpPacket_send_pair :
    ({ pliCb := true, nackCb := true } : RtcpHandler).onRtcpPacket
      ([.pli 1 2, .nack 1 2 65535 1].flatMap ({ sendCb := true } : RtcpHandler).send).flatten =
        .ok (([.pli 1 2, .nack 1 2 65535 1].map Message.callback).filter
          ({ pliCb := true, nackCb := true } : RtcpHandler).hears) :=
  onRtcpPacket_send rfl _ _

end Namecon.RtcpHandler
