import Namecon.Sfu.Router

/-!
# Sender reports (`sfu/Router.cpp`)

The SFU is the sender of what it forwards, so it makes the sender reports of a subscriber's streams
itself, from the statistics of the consumer. `SrTimes` are the two fields of `Consumer` that only
`generateAndSendSR` writes. The clock is an argument: nanoseconds since the Unix epoch, which is what
`system_clock::now().time_since_epoch()` counts.
-/

namespace Namecon

/-- The two times a consumer keeps of its last sender report. -/
structure SrTimes where
  lastSrNtpTs : UInt32 := 0
  lastSrRtpTs : UInt32 := 0
deriving DecidableEq, Repr

namespace Router

/-- Seconds since 1900 in the upper half, 2^32nds of a second in the lower. Both casts of the
durations are to 64 bits and truncate towards 0. -/
def getNtpTimestamp (now : Int) : UInt64 :=
  let secs := UInt64.ofInt (now.tdiv 1000000000)
  let frac := UInt64.ofInt (now.tmod 1000000000)
  let ntpSecs := secs + 2208988800
  let ntpFrac := (frac <<< 32) / 1000000000
  (ntpSecs <<< 32) ||| ntpFrac

/-- The seconds. -/
def ntpHi (now : Int) : UInt32 := (getNtpTimestamp now >>> 32).toUInt32

/-- The fraction of a second. -/
def ntpLo (now : Int) : UInt32 := (getNtpTimestamp now &&& 0xFFFFFFFF).toUInt32

/-- The report for the consumer `k`. -/
def senderReport (k : Consumer) (now : Int) : Bytes :=
  [0x80, 200] ++ htons 6 ++ htonl k.rewrittenSsrc ++ htonl (ntpHi now) ++ htonl (ntpLo now) ++
    htonl k.lastSentTimestamp ++ htonl k.packetsSent ++ htonl k.octetsSent

/-- `Router::generateAndSendSR`; the times are kept only where the report is sent. -/
def generateAndSendSR (r : Router) (times : ConsumerRef → SrTimes) (srtp : SrtpOracle) (now : Int)
    (c : Option ConsumerRef) : (ConsumerRef → SrTimes) × List Datagram :=
  match c with
  | none => (times, [])
  | some c =>
    match (r.heap c).subscriber with
    | none => (times, [])
    | some subscriber =>
      match (r.peers subscriber).srtp with
      | none => (times, [])
      | some ctx =>
        let sr := senderReport (r.heap c) now
        match srtp.protectRtcp 0 ctx sr with
        | none => (times, [])
        | some data =>
          (Function.update times c ⟨ntpHi now, (r.heap c).lastSentTimestamp⟩,
            [⟨(r.peers subscriber).remoteEp, .rtcp, sr, data⟩])

end Router

end Namecon
