import Namecon.Signal.Proof.Roommates
import Namecon.Web.Proof.Seats
import Namecon.Web.Proof.Tiles

/-!
# Everyone is seen

The hub's mailbox of a client and the page of the same client, put together: the page handles the
messages in their order, whatever the browser does in between. `tile_iff_unsettled` reads the grid
off the messages, and `everyone_seen`: when all of a room have joined and nobody has left, each page
that has handled its messages shows a tile for every other member of the room, and no other.
-/

namespace Namecon

open Runs (exec Meets)

/-! ## News in messages -/

theorem Event.news_none {p : String} {e : Event} (he : e.fromServer = false) : e.news p = none := by
  cases e with
  | joined | addRecvTransceiver | renegotiate | peerLeft | answer | error => cases he
  | _ => rfl

/-- Only the messages of the server bring news. -/
theorem filterMap_news {p : String} (es : List Event) :
    (es.filter Event.fromServer).filterMap (Event.news p) = es.filterMap (Event.news p) := by
  induction es with
  | nil => rfl
  | cons e es ih =>
    cases he : e.fromServer with
    | true => rw [List.filter_cons_of_pos he, List.filterMap_cons, List.filterMap_cons, ih]
    | false =>
      rw [List.filter_cons_of_neg (by rw [he]; exact Bool.false_ne_true), List.filterMap_cons,
        Event.news_none he, ih]

theorem expected_message {p : String} {es : List Event} (m : Message) :
    Expected p (es ++ m.events) ↔ (p ∈ m.announces ∨ m ≠ .peerLeft p ∧ Expected p es) := by
  cases m with
  | error | answer =>
    rw [Message.events, expected_snoc]
    simp [Event.news, Message.announces]
  | joined _ _ _ _ _ _ existing =>
    rw [Message.events, expected_snoc]
    by_cases hp : p ∈ existing.map Prod.fst
    · simp only [Event.news, Message.announces, hp, if_true, true_or]
    · simp [Event.news, Message.announces, hp]
  | renegotiate peerId username =>
    have hevents : es ++ Message.events (.renegotiate peerId username) =
        es ++ [.addRecvTransceiver peerId WebRTC.both] ++ [.renegotiate] := by
      rw [List.append_assoc]
      rfl
    rw [hevents, expected_snoc, expected_snoc]
    by_cases hp : p = peerId
    · simp [Event.news, Message.announces, hp]
    · simp [Event.news, Message.announces, hp]
  | peerLeft peerId =>
    rw [Message.events, expected_snoc]
    by_cases hp : p = peerId
    · simp [Event.news, Message.announces, hp]
    · simp [Event.news, Message.announces, hp, Ne.symm hp]

theorem expected_flatMap {p : String} (ms : List Message) :
    Expected p (ms.flatMap Message.events) ↔ ¬ Settled p ms := by
  induction ms using List.reverseRecOn with
  | nil =>
    refine iff_of_false (by simp [Expected]) (not_not.2 ?_)
    exact settled_of_silent fun _ hm => absurd hm List.not_mem_nil
  | append_singleton ms m ih =>
    rw [List.flatMap_append, List.flatMap_singleton, expected_message, ih, settled_snoc]
    tauto

namespace Screen

variable {s : Screen} {ms : List Message} {es : List ScreenEvent} {p : String}

theorem Handles.expected_iff (h : Handles ms es) :
    Expected p (es.filterMap pageEvent) ↔ ¬ Settled p ms := by
  rw [← expected_flatMap, ← h]
  unfold Expected
  rw [filterMap_news]

/-- **The grid is what the messages say**: the tile of a peer is there exactly when an announcement
of it has not been followed by its `peer-left`. -/
theorem tile_iff_unsettled (hp : p ≠ "local") (hms : Handles ms es) (h : Meets step Shows {} es)
    (hinit : ∀ i, (exec step {} es).page.inits i = none) :
    p ∈ (exec step {} es).shown ↔ ¬ Settled p ms :=
  (shown_iff hp es h hinit).trans hms.expected_iff

/-- Peer b is there, c comes, b leaves. -/
def visitOf : List Message :=
  [.joined "a" "" 0 "" "" "" [("b", "b")], .answer "", .renegotiate "c" "c", .peerLeft "b"]

/-- What the page does meanwhile. -/
def visit : List ScreenEvent :=
  [.page (.joined ["b"]), .page (.userMedia 0 true), .page (.offerCreated 0), .page (.described 0),
    .page .answer, .page .remoteDescribed] ++ (Event.renegotiateMessage "c").map .page ++
    [.page (.peerLeft "b")]

theorem tile_iff_unsettled_visit : "c" ∈ (exec step {} visit).shown ↔ ¬ Settled "c" visitOf := by
  refine tile_iff_unsettled (by decide) (by decide) ⟨rfl, trivial, trivial, trivial, trivial,
    trivial, trivial, trivial, ?_, trivial⟩ (Page.inits_none (calls_screen visit) (by decide))
  rintro ⟨i, l, hi, -⟩
  have hnone := Page.inits_none (calls_screen (visit.take 8)) (by decide) i
  cases hnone.symm.trans hi

example : (exec step {} visit).shown = ["local", "c"] := by decide

end Screen

/-! ## `joined` comes once -/

/-- The `joined` message. -/
def Event.isJoined : Event → Bool
  | .joined _ => true
  | _ => false

theorem countP_events (ms : List Message) :
    (ms.flatMap Message.events).countP Event.isJoined = ms.countP Message.isJoined := by
  induction ms with
  | nil => rfl
  | cons m ms ih =>
    rw [List.flatMap_cons, List.countP_append, ih, List.countP_cons, Nat.add_comm]
    cases m <;> rfl

theorem countP_fromServer (es : List Event) :
    (es.filter Event.fromServer).countP Event.isJoined = es.countP Event.isJoined := by
  rw [List.countP_filter]
  refine List.countP_congr fun e _ => ?_
  cases e <;> simp [Event.isJoined, Event.fromServer]

/-- Only `joined` makes the peer connection. -/
theorem Page.kept_noPc {s : Page} {e : Event} (he : e.isJoined = false) :
    Page.Kept s e fun w => w.pc = false where
  pc _ _ hj _ := by rw [hj] at he; cases he
  flags _ _ _ _ _ _ h := h
  addRecvOne w _ _ _ h := by
    unfold WebRTC.addRecvOne
    split <;> exact h
  markOne w _ _ _ h := by
    unfold WebRTC.markOne
    split
    · exact h
    · split <;> exact h
  addTrack w _ _ _ h := by
    unfold WebRTC.addTrack
    split <;> exact h
  enableCamera w h := by
    unfold WebRTC.enableCamera
    split <;> exact h
  disableCamera w h := by
    unfold WebRTC.disableCamera
    cases w.videoSender <;> exact h
  setLocalDescription _ _ _ _ _ _ h := h
  takePending _ _ _ _ _ _ h := h

namespace Screen

variable {ms : List Message} {es : List ScreenEvent} {p : String}

theorem pc_exec (es : List ScreenEvent) (hnone : (es.filterMap pageEvent).countP Event.isJoined = 0) :
    (exec step {} es).page.rtc.pc = false := by
  induction es using List.reverseRecOn with
  | nil => rfl
  | append_singleton es e ih =>
    rw [List.filterMap_append, List.countP_append] at hnone
    rw [Runs.exec_append]
    have hbefore := ih (Nat.eq_zero_of_add_eq_zero hnone).1
    cases e with
    | page e =>
      have he : e.isJoined = false := by
        have hlast := (Nat.eq_zero_of_add_eq_zero hnone).2
        rw [show [ScreenEvent.page e].filterMap pageEvent = [e] from rfl, List.countP_singleton]
          at hlast
        simpa using hlast
      exact (Page.kept_noPc he).step hbefore
    | track t =>
      rw [Runs.exec_cons, Runs.exec_nil, step, page_ontrack]
      exact hbefore

/-- `init` does not throw. -/
def InitSucceeds (s : Screen) (e : ScreenEvent) : Prop :=
  ∀ i, e = .page (.rejected i) → s.page.inits i = none

theorem shows_exec (es : List ScreenEvent) (h : Meets step InitSucceeds {} es)
    (honce : (es.filterMap pageEvent).countP Event.isJoined ≤ 1)
    (hstay : ∀ id, .peerLeft id ∉ es.filterMap pageEvent) : Meets step Shows {} es := by
  induction es using List.reverseRecOn with
  | nil => trivial
  | append_singleton es e ih =>
    obtain ⟨hes, he, -⟩ := Runs.meets_append.1 h
    rw [List.filterMap_append] at honce hstay
    rw [List.countP_append] at honce
    refine Runs.meets_append.2 ⟨ih hes (by omega) fun id hid =>
      hstay id (List.mem_append_left _ hid), ?_, trivial⟩
    cases e with
    | track t => trivial
    | page e =>
      cases e with
      | joined l =>
        have hlast : ([ScreenEvent.page (.joined l)].filterMap pageEvent).countP Event.isJoined = 1 :=
          rfl
        exact pc_exec es (by omega)
      | rejected i => exact he i rfl
      | peerLeft id => exact absurd (List.mem_append_right _ (.head _)) (hstay id)
      | _ => trivial

theorem Handles.shows (hms : Handles ms es) (h : Meets step InitSucceeds {} es)
    (honce : ms.countP Message.isJoined ≤ 1) (hstay : ∀ m ∈ ms, ∀ id, m ≠ .peerLeft id) :
    Meets step Shows {} es := by
  refine shows_exec es h ?_ fun id hid => ?_
  · rw [← countP_fromServer, hms, countP_events]
    exact honce
  · have hserver : .peerLeft id ∈ ms.flatMap Message.events := by
      rw [← hms]
      exact List.mem_filter.2 ⟨hid, rfl⟩
    obtain ⟨m, hm, he⟩ := List.mem_flatMap.1 hserver
    cases m with
    | peerLeft id' =>
      obtain rfl : id = id' := by injection List.mem_singleton.1 he
      exact hstay _ hm id rfl
    | renegotiate => simp [Message.events, Event.renegotiateMessage] at he
    | _ => cases List.mem_singleton.1 he

end Screen

/-! ## The room on the screen -/

namespace Hub

/-- **Everyone is seen.** All of the room of `A` have joined and nobody has left. A page that has
handled the messages of `A`, whose `init` has returned, shows the tiles of the other members of the
room, and no others. -/
theorem everyone_seen (ops : List HubOp) (hops : Meets Hub.step Gathers {} ops) (A : ClientRef)
    (hjoined : ∀ B, ((exec Hub.step {} ops).client B).roomID =
      ((exec Hub.step {} ops).client A).roomID → (exec Hub.step {} ops).HasJoined B)
    (es : List ScreenEvent) (hes : Screen.Handles ((exec Hub.step {} ops).client A).stream es)
    (hinit : Meets Screen.step Screen.InitSucceeds {} es)
    (hdone : ∀ i, (exec Screen.step {} es).page.inits i = none) (p : String) (hp : p ≠ "local") :
    p ∈ (exec Screen.step {} es).shown ↔ (exec Hub.step {} ops).Roommate A p := by
  obtain ⟨ht, hl⟩ := telling_exec ops hops
  have hshows := hes.shows hinit (ht.once A) fun m hm => (ht.told A m hm).1
  rw [Screen.shown_iff hp es hshows hdone, hes.expected_iff]
  constructor
  · intro hsettled
    by_contra hnot
    refine hsettled fun before m after he hm => absurd ((ht.told A m ?_).2 p hm) hnot
    rw [he]
    simp
  · intro hmate hsettled
    obtain ⟨m, hm, hid⟩ := hl.told hjoined hmate
    obtain ⟨before, after, he⟩ := List.append_of_mem hm
    have hleft := hsettled before m after he hid
    exact (ht.told A _ (by rw [he]; exact List.mem_append_right _ (.tail _ hleft))).1 p rfl

/-- Both have joined, and the first has got the answer to its offer. -/
def joinAndAnswer : List HubOp :=
  joinBoth ++ [.message 0 (fun _ _ v => (some "answer", v)) (.offer "offer" []),
    .advance 0 (Logged.quietEnv 1)]

/-- What the page of the first does. It is told of the second twice. -/
def watchRoom : List ScreenEvent :=
  [.page (.joined ["peer_2"]), .page (.userMedia 0 true), .page (.offerCreated 0),
    .page (.described 0)] ++ (Event.renegotiateMessage "peer_2").map .page ++
    [.page .answer, .page .remoteDescribed]

theorem everyone_seen_both : "peer_2" ∈ (exec Screen.step {} watchRoom).shown ↔
    (exec Hub.step {} joinAndAnswer).Roommate 0 "peer_2" := by
  refine everyone_seen joinAndAnswer (by decide) 0 (fun B hB => ?_) watchRoom (by decide)
    ⟨nofun, nofun, nofun, nofun, nofun, nofun, nofun, nofun, trivial⟩ (fun i => ?_) "peer_2"
    (by decide)
  · -- there are two clients
    have hroom : ((exec Hub.step {} joinAndAnswer).client 0).roomID ≠ "" := by decide
    have hnext : (exec Hub.step {} joinAndAnswer).nextClient = 2 := by decide
    have hlt : B < 2 := hnext ▸ (telling_exec joinAndAnswer (by decide)).1.toStaged.born
      fun hnone => hroom (by rw [← hB, hnone])
    rcases Nat.lt_succ_iff_lt_or_eq.1 hlt with h0 | rfl
    · obtain rfl := Nat.lt_one_iff.1 h0
      exact ⟨by decide, by decide⟩
    · exact ⟨by decide, by decide⟩
  · exact Page.inits_none (Screen.calls_screen watchRoom) (by decide) i

end Hub

end Namecon
