import Namecon.Grpc.Process
import Namecon.Grpc.Proof.Mids

/-!
# Offers that fail

`SendOffer` binds the mids of the request before it parses the offer, and the parser lets the
payload types of a line into the sets before it reads the next. Neither is undone when the offer is
refused or the parser throws: the state is as before if the request asks for nothing new
(`failed_unchanged_iff`).
-/

namespace Namecon

open Runs (exec)

namespace Router

/-- The last entry that selects a consumer names the mid which the consumer has. -/
def KeepsMidsOf (r : Router) (S : PeerRef) (recvMids : List RecvMid) : Prop :=
  ∀ pre rm post, recvMids = pre ++ rm :: post → ∀ d, r.boundBy S rm = some d →
    (∀ rm' ∈ post, r.boundBy S rm' ≠ some d) → rm.mid = (r.heap d).recvMid

theorem keepsMidsOf_iff {r : Router} {S : PeerRef} {rms : List RecvMid} :
    r.KeepsMidsOf S rms ↔ ∀ d, r.newMid S rms d = (r.heap d).recvMid := by
  have hd : ∀ d, r.newMid S rms d = (r.heap d).recvMid ↔ ∀ pre rm post, rms = pre ++ rm :: post →
      r.boundBy S rm = some d → (∀ rm' ∈ post, r.boundBy S rm' ≠ some d) →
        rm.mid = (r.heap d).recvMid := fun d =>
    ListFacts.foldl_ite_eq_iff (fun rm => r.boundBy S rm = some d) RecvMid.mid rms _
  constructor
  · exact fun h d => (hd d).2 fun pre rm post hl => h pre rm post hl d
  · exact fun h pre rm post hl d => (hd d).1 (h d) pre rm post hl

end Router

namespace MediaServer

open Router

/-- The entries change the mids of consumers and nothing else. -/
theorem bindMids_router (S : PeerRef) (rms : List RecvMid) (r : Router)
    (m : String → Option UInt32) : (bindMids S rms (r, m)).1 =
      { r with heap := fun d => { r.heap d with recvMid := r.newMid S rms d } } := by
  have hrest : (bindMids S rms (r, m)).1 = { r with heap := (bindMids S rms (r, m)).1.heap } := by
    induction rms generalizing r m with
    | nil => rfl
    | cons rm rms ih =>
      rw [bindMids, ih, bindConsumerByMid_eq]
      cases r.boundBy S rm <;> rfl
  rw [hrest]
  congr 1
  exact funext fun d => heap_bindMids rms r m d

theorem bindMids_eq_iff {S : PeerRef} {rms : List RecvMid} {r : Router}
    {m : String → Option UInt32} : (bindMids S rms (r, m)).1 = r ↔ r.KeepsMidsOf S rms := by
  rw [keepsMidsOf_iff]
  constructor
  · intro h d
    have hd := heap_bindMids (S := S) rms r m d
    rw [h] at hd
    exact (congrArg Consumer.recvMid hd).symm
  · intro h
    rw [bindMids_router]
    simp only [h]

theorem offerMids_router_iff {s : MediaServer} {peerId : String} {rms : List RecvMid} :
    (s.offerMids peerId rms).1 = s.router ↔
      ∀ S, s.peers peerId = some S → s.router.KeepsMidsOf S rms := by
  cases hS : s.peers peerId with
  | none =>
    have hoff : s.offerMids peerId rms = (s.router, fun _ => none) := by
      simp only [offerMids, findPeer, hS]
    rw [hoff]
    exact iff_of_true rfl fun S h => by cases h
  | some S =>
    rw [offerMids_eq hS]
    dsimp only
    rw [bindMids_eq_iff]
    exact ⟨fun h _ hS' => Option.some.inj hS' ▸ h, fun h => h S rfl⟩

end MediaServer

namespace SdpParser

/-- The numbers on the m= lines that are read are in the sets already. -/
def NamesKnown (g : PayloadTypes) (sdp : Text) : Prop :=
  ∀ m ∈ mediaOf sdp, ∀ n ∈ readInts m.2.length m.2,
    (m.1 = "video".toList → toUInt8 n ∈ g.videoPTs) ∧
      (m.1 = "audio".toList → toUInt8 n ∈ g.audioPTs)

instance (g : PayloadTypes) (sdp : Text) : Decidable (NamesKnown g sdp) :=
  inferInstanceAs (Decidable (∀ m ∈ mediaOf sdp, _))

theorem namesKnown_iff {g : PayloadTypes} {sdp : Text} : NamesKnown g sdp ↔
    payloadTypesOf "video" (mediaOf sdp) ⊆ g.videoPTs ∧
      payloadTypesOf "audio" (mediaOf sdp) ⊆ g.audioPTs := by
  simp only [Finset.subset_iff, mem_payloadTypesOf]
  constructor
  · intro h
    constructor
    · rintro _ ⟨m, hm, hkind, n, hn, rfl⟩
      exact (h m hm n hn).1 hkind
    · rintro _ ⟨m, hm, hkind, n, hn, rfl⟩
      exact (h m hm n hn).2 hkind
  · exact fun h m hm n hn => ⟨fun hkind => h.1 ⟨m, hm, hkind, n, hn, rfl⟩,
      fun hkind => h.2 ⟨m, hm, hkind, n, hn, rfl⟩⟩

end SdpParser

namespace MediaProcess

open SdpParser MediaServer

/-- The call ends without a non-empty answer. -/
def Failed (res : Except Status String) : Prop := ∀ answer, res = .ok answer → answer = ""

/-- The server with all its consumers is the same, and so are the sets. -/
structure Unchanged (m m' : MediaProcess) : Prop where
  server : m'.server = m.server
  videoPTs : m'.statics.videoPTs = m.statics.videoPTs
  audioPTs : m'.statics.audioPTs = m.statics.audioPTs

theorem sendOffer_router (m : MediaProcess) (info : ServerInfo) (peerId sdp : String)
    (recvMids : List RecvMid) : (m.sendOffer info peerId sdp recvMids).1.server =
      { m.server with
        router := (m.server.offerMids peerId recvMids).1
        videoPTs := (m.sendOffer info peerId sdp recvMids).1.statics.videoPTs } := by
  rw [(m.sendOffer info peerId sdp recvMids).1.shared]
  have h := congrArg Prod.fst (m.sendOffer_server info peerId sdp recvMids)
  dsimp only at h
  rw [h]
  rfl

theorem sendOffer_unchanged_iff (m : MediaProcess) (info : ServerInfo) (peerId sdp : String)
    (recvMids : List RecvMid) : Unchanged m (m.sendOffer info peerId sdp recvMids).1 ↔
      (∀ S, m.server.peers peerId = some S → m.server.router.KeepsMidsOf S recvMids) ∧
        NamesKnown m.statics sdp.toList := by
  have hgains := m.gains_sendOffer info peerId sdp recvMids
  have hserver := m.sendOffer_router info peerId sdp recvMids
  rw [← offerMids_router_iff, namesKnown_iff]
  constructor
  · intro h
    refine ⟨?_, ?_, ?_⟩
    · rw [h.server] at hserver
      exact (congrArg MediaServer.router hserver).symm
    · rw [← Finset.union_eq_left, ← hgains.videoPTs]
      exact h.videoPTs
    · rw [← Finset.union_eq_left, ← hgains.audioPTs]
      exact h.audioPTs
  · rintro ⟨hrouter, hv, ha⟩
    have hvideo := hgains.videoPTs.trans (Finset.union_eq_left.2 hv)
    refine ⟨?_, hvideo, hgains.audioPTs.trans (Finset.union_eq_left.2 ha)⟩
    rw [hserver, hrouter, hvideo, m.shared]

/-- **A failed offer changes nothing** exactly when it asks for nothing new. -/
theorem failed_unchanged_iff (m : MediaProcess) (info : ServerInfo) (peerId sdp : String)
    (recvMids : List RecvMid) : Failed (m.sendOffer info peerId sdp recvMids).2 →
      (Unchanged m (m.sendOffer info peerId sdp recvMids).1 ↔
        (∀ S, m.server.peers peerId = some S → m.server.router.KeepsMidsOf S recvMids) ∧
          NamesKnown m.statics sdp.toList) :=
  fun _ => m.sendOffer_unchanged_iff info peerId sdp recvMids

/-- Client s subscribes to the video of b. -/
def subscribeOne : MediaProcess :=
  exec step start [.addPeer {} "s", .addPeer {} "b", .addConsumer "s" "b" true default]

/-- An offer with a payload type that is no number. -/
def badOffer : String := "m=video 9 RTP 96\na=rtpmap:x VP8"

/-- The process after that offer with the mid 1 for the video. -/
def triedOne : MediaProcess := (subscribeOne.sendOffer {} "s" badOffer [⟨"1", "b", true⟩]).1

/-- The same offer again. -/
theorem failed_unchanged_iff_again :
    Unchanged triedOne (triedOne.sendOffer {} "s" badOffer [⟨"1", "b", true⟩]).1 := by
  have hthrows :
      (triedOne.sendOffer {} "s" badOffer [⟨"1", "b", true⟩]).2 = .error .exception := rfl
  refine (failed_unchanged_iff triedOne {} "s" badOffer [⟨"1", "b", true⟩] ?_).2 ⟨?_, by decide⟩
  · rw [hthrows]
    intro answer h
    cases h
  · intro S hS pre rm post hl d hd hpost
    have hS0 : triedOne.server.peers "s" = some 0 := by decide
    obtain rfl : 0 = S := Option.some.inj (hS0.symm.trans hS)
    have hrm : rm ∈ [⟨"1", "b", true⟩] := hl ▸ List.mem_append_right _ (.head _)
    obtain rfl := List.mem_singleton.1 hrm
    have hbound : triedOne.server.router.boundBy 0 ⟨"1", "b", true⟩ = some 0 := by decide
    obtain rfl : 0 = d := Option.some.inj (hbound.symm.trans hd)
    rfl

/-- The parser throws, and the consumer has its mid. -/
theorem badOffer_binds : ¬ ∀ ops info peerId sdp recvMids,
    Failed ((exec step start ops).sendOffer info peerId sdp recvMids).2 →
      Unchanged (exec step start ops)
        ((exec step start ops).sendOffer info peerId sdp recvMids).1 := by
  intro h
  have hthrows : (subscribeOne.sendOffer {} "s" badOffer [⟨"1", "b", true⟩]).2 =
      .error .exception := rfl
  have hfailed : Failed (subscribeOne.sendOffer {} "s" badOffer [⟨"1", "b", true⟩]).2 := by
    rw [hthrows]
    intro answer ha
    cases ha
  have hmid :
      (triedOne.server.router.heap 0).recvMid = (subscribeOne.server.router.heap 0).recvMid :=
    congrArg (fun s : MediaServer => (s.router.heap 0).recvMid) (h _ _ _ _ _ hfailed).server
  exact absurd hmid (by decide)

end MediaProcess

end Namecon
