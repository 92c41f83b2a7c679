import Namecon.Web.Proof.InFlight

/-!
# The entries of an offer

`_runRenegotiateQueue` reads the pending transceivers when `setLocalDescription` has resolved, and
with them those that came after its offer was created. Whatever happens, what has been pushed is
reported once or still pending (`ReportedOnce`). A call of `renegotiate` sees to it that it is
reported (`Settling`), unless an iteration before it waits for an answer that does not wake it
(`Wakeable`). `entries_belong_iff`: the entries belong to their offers, and all that is pushed is
reported, as long as no transceiver is reported that came too late and no waiting iteration loses
its answer.
-/

namespace Namecon

open Function (update)
open Runs (exec Always Meets)

/-- What an entry reports. -/
def RecvMidEntry.pending (e : RecvMidEntry) : Pending := ⟨e.transceiver, e.publisherPeerId, e.kind⟩

/-- What an offer of `_runRenegotiateQueue` reports. -/
def Payload.reports (x : Payload) : List Pending :=
  if x.caller = .run then x.recvMids.map RecvMidEntry.pending else []

namespace Page

open WebRTC (Grows)

variable {s t u : Page} {i : Nat} {o : Offer} {caller : Caller} {await : Await}

/-- Each entry that `_runRenegotiateQueue` has sent has a mid, which occurs in its SDP. -/
def Belongs (s : Page) : Prop := ∀ x ∈ s.sent, x.caller = .run →
  ∀ e ∈ x.recvMids, ∃ mid ∈ x.sdp.mids, e.mid = some mid

/-- What the entries sent so far report, in their order. -/
def reported (s : Page) : List Pending := s.sent.flatMap Payload.reports

/-- What has been pushed is in one entry or still pending, in the order in which it was pushed. -/
def ReportedOnce (s : Page) : Prop := s.reported ++ s.rtc.pendingTransceivers = s.rtc.pushed

/-- When `setLocalDescription` resolves for `_runRenegotiateQueue`, the pending transceivers were
there when the offer was created. -/
def InTime (s : Page) : Event → Prop
  | .described i => ∀ o, s.frames i = some ⟨.run, .setLocalDescription o⟩ →
    ∀ p ∈ s.rtc.pendingTransceivers, p.transceiver < o.sections
  | _ => True

/-- The offer that an iteration of `_runRenegotiateQueue` is describing. -/
def runOffer : CallFrame → Option Offer
  | ⟨.run, .setLocalDescription o⟩ => some o
  | _ => none

theorem runOffer_eq_some {f : CallFrame} :
    runOffer f = some o ↔ f = ⟨.run, .setLocalDescription o⟩ := by
  unfold runOffer
  split
  · simp
  · rename_i hne
    refine iff_of_false nofun fun he => hne o ?_
    exact he

instance (s : Page) (e : Event) : Decidable (s.InTime e) :=
  match e with
  | .described i => decidable_of_iff
      (∀ o ∈ (s.frames i).bind runOffer, ∀ p ∈ s.rtc.pendingTransceivers,
        p.transceiver < o.sections)
      (forall_congr' fun o => imp_congr_left (by
        rw [Option.mem_def, Option.bind_eq_some_iff]
        simp only [runOffer_eq_some, exists_eq_right]))
  | .joined _ | .addRecvTransceiver _ _ | .renegotiate | .peerLeft _ | .cameraOn | .cameraOff
  | .iceRestart | .userMedia _ _ | .offerCreated _ | .rejected _ | .answer | .error
  | .remoteDescribed => .isTrue trivial

/-- A waiting iteration does not lose its answer: `init` and `_doIceRestart`, which take the
resolver, send no offer while it waits, and no error comes for the last offer under way. -/
def Heard (s : Page) : Event → Prop
  | .described i => ∀ caller o, s.frames i = some ⟨caller, .setLocalDescription o⟩ → caller ≠ .run →
    s.Sends o caller → ∀ j, s.frames j ≠ some ⟨.run, .answer⟩
  | .error => s.unanswered.tail ++ s.answering = [] → ∀ j, s.frames j ≠ some ⟨.run, .answer⟩
  | _ => True

/-! ## Steps that report nothing -/

/-- The step sends no entries of `_runRenegotiateQueue`, and what it pushes stays pending. -/
structure NoReport (s t : Page) : Prop where
  sent : ∃ l, t.sent = s.sent ++ l ∧ ∀ x ∈ l, x.caller ≠ .run
  pushes : ∃ l, t.rtc.pendingTransceivers = s.rtc.pendingTransceivers ++ l ∧
    t.rtc.pushed = s.rtc.pushed ++ l

theorem NoReport.of_grows (hsent : t.sent = s.sent) (hg : Grows s.rtc t.rtc) : NoReport s t where
  sent := ⟨[], by rw [hsent, List.append_nil], fun _ hx => absurd hx List.not_mem_nil⟩
  pushes := hg.pushes

theorem NoReport.same (hsent : t.sent = s.sent)
    (hpending : t.rtc.pendingTransceivers = s.rtc.pendingTransceivers)
    (hpushed : t.rtc.pushed = s.rtc.pushed) : NoReport s t where
  sent := ⟨[], by rw [hsent, List.append_nil], fun _ hx => absurd hx List.not_mem_nil⟩
  pushes := WebRTC.noPush hpending hpushed

theorem NoReport.refl (s : Page) : NoReport s s := .same rfl rfl rfl

theorem NoReport.trans (h : NoReport s t) (h' : NoReport t u) : NoReport s u := by
  obtain ⟨⟨l, hsent, hl⟩, p, hpending, hpushed⟩ := h
  obtain ⟨⟨l', hsent', hl'⟩, p', hpending', hpushed'⟩ := h'
  refine ⟨⟨l ++ l', by rw [hsent', hsent, List.append_assoc], fun x hx => ?_⟩, p ++ p', ?_, ?_⟩
  · exact (List.mem_append.1 hx).elim (hl x) (hl' x)
  · rw [hpending', hpending, List.append_assoc]
  · rw [hpushed', hpushed, List.append_assoc]

theorem NoReport.belongs_iff (h : NoReport s t) : t.Belongs ↔ s.Belongs := by
  obtain ⟨l, hsent, hl⟩ := h.sent
  unfold Belongs
  rw [hsent]
  constructor
  · exact fun hb x hx => hb x (List.mem_append_left _ hx)
  · intro hb x hx hrun
    rcases List.mem_append.1 hx with hx | hx
    · exact hb x hx hrun
    · exact absurd hrun (hl x hx)

theorem NoReport.reported (h : NoReport s t) : t.reported = s.reported := by
  obtain ⟨l, hsent, hl⟩ := h.sent
  have hnone : l.flatMap Payload.reports = [] := by
    rw [List.flatMap_eq_nil_iff]
    exact fun x hx => if_neg (hl x hx)
  unfold Page.reported
  rw [hsent, List.flatMap_append, hnone, List.append_nil]

theorem NoReport.reportedOnce (h : NoReport s t) (hr : s.ReportedOnce) : t.ReportedOnce := by
  obtain ⟨p, hpending, hpushed⟩ := h.pushes
  unfold ReportedOnce
  rw [h.reported, hpending, hpushed, ← List.append_assoc]
  exact congrArg (· ++ p) hr

theorem noReport_runRenegotiateQueue (n : Nat) (s : Page) :
    NoReport s (s.runRenegotiateQueue n) := by
  induction n with
  | zero => exact .same rfl rfl rfl
  | succ n ih =>
    rw [runRenegotiateQueue]
    split
    · exact ih
    · exact .same rfl rfl rfl

theorem noReport_renegotiate (s : Page) : NoReport s s.renegotiate := by
  unfold renegotiate
  dsimp only
  split
  · exact .same rfl rfl rfl
  · exact noReport_runRenegotiateQueue _ s

/-- The WebRTC object grows, then `renegotiate`. -/
theorem noReport_grow {w : WebRTC} (hg : Grows s.rtc w) :
    NoReport s (renegotiate { s with rtc := w }) :=
  (NoReport.of_grows (s := s) (t := { s with rtc := w }) rfl hg).trans (noReport_renegotiate _)

theorem noReport_afterInit (s : Page) (existing : List String) :
    NoReport s (s.afterInit existing) := by
  unfold afterInit
  split
  · exact .refl s
  · exact noReport_grow (WebRTC.grows_existing s.rtc existing)

theorem noReport_throws (s : Page) (i : Nat) (caller : Caller) :
    NoReport s (s.throws i caller) := by
  cases caller <;> exact .same rfl rfl rfl

theorem noReport_resume (s : Page) (caller : Caller) : NoReport s (s.resume caller) := by
  cases caller with
  | init existing => exact noReport_afterInit s existing
  | run =>
    exact (NoReport.same (s := s) (t := { s with rtc := { s.rtc with renegotiating := false } })
      rfl rfl rfl).trans (noReport_runRenegotiateQueue _ _)
  | iceRestart => exact .refl s

theorem noReport_resolve (s : Page) (i : Nat) : NoReport s (s.resolve i) := by
  unfold resolve
  split
  · rename_i caller _
    have hset : NoReport s (s.setFrame i none) := .same rfl rfl rfl
    exact hset.trans (noReport_resume _ caller)
  · exact .refl s

theorem noReport_sendOffer (hc : caller ≠ .run) (o : Offer) (mids : List RecvMidEntry) :
    NoReport s (s.sendOffer i caller o mids) where
  sent := ⟨[⟨caller, o, mids⟩], rfl, fun x hx => by rw [List.mem_singleton.1 hx]; exact hc⟩
  pushes := WebRTC.noPush rfl rfl

theorem noReport_offerDescribed (hc : caller ≠ .run) (s : Page) (i : Nat) (o : Offer) :
    NoReport s (s.offerDescribed i o caller) := by
  cases caller with
  | run => exact absurd rfl hc
  | iceRestart =>
    exact (NoReport.same (s := s) (t := { s with rtc := { s.rtc with needsRenegotiate := false } })
      rfl rfl rfl).trans (noReport_sendOffer hc o _)
  | init existing =>
    dsimp only [offerDescribed]
    split
    · exact noReport_sendOffer hc o []
    · exact (NoReport.same (s := s) (t := s.setFrame i none) rfl rfl rfl).trans
        (noReport_afterInit _ existing)

theorem noReport_step (e : Event)
    (he : ∀ i o, e = .described i → s.frames i ≠ some ⟨.run, .setLocalDescription o⟩) :
    NoReport s (s.step e) := by
  have hmoves := moves s e
  generalize s.step e = t at hmoves ⊢
  cases hmoves with
  | stays => exact .refl s
  | grows hg | camera hg | begins hg | goesOn _ _ hg => exact .of_grows rfl hg
  | renegotiates hg => exact noReport_grow hg
  | @described i caller o hf =>
    have hc : caller ≠ .run := fun hc => he i o rfl (hc ▸ hf)
    have hset : NoReport s { s with rtc := s.rtc.setLocalDescription o } := .same rfl rfl rfl
    exact hset.trans (noReport_offerDescribed hc _ i o)
  | rejected => exact noReport_throws s _ _
  | answer | error | forgets => exact .same rfl rfl rfl
  | @resolves i j rest =>
    have hset : NoReport s { s with
        rtc := { s.rtc with answerResolver := none }
        answering := rest
        resolved := s.resolved ++ [(i, j)] } := .same rfl rfl rfl
    exact hset.trans (noReport_resolve _ i)

/-! ## The step that reports -/

/-- After the description of an offer, a transceiver of the page has a mid that occurs in it exactly
when it was there at its creation. -/
theorem Calls.mid_iff (h : s.Calls)
    (hf : s.frames i = some ⟨caller, .setLocalDescription o⟩) (t : Nat) :
    (∃ mid ∈ o.mids, (s.rtc.setLocalDescription o).midOf t = some mid) ↔ t < o.sections := by
  have hmid := WebRTC.midOf_setLocalDescription s.rtc (h.covered i caller o hf) t
  unfold Offer.mids
  constructor
  · rintro ⟨mid, hmem, hsome⟩
    rw [hmid] at hsome
    split at hsome
    · assumption
    · rw [h.ownMids t mid hsome] at hmem
      exact List.mem_range.1 hmem
  · intro ht
    exact ⟨t, List.mem_range.2 ht, by rw [hmid, if_pos ht]⟩

/-- What `_runRenegotiateQueue` sends, and what it leaves. -/
theorem step_described_run (hf : s.frames i = some ⟨.run, .setLocalDescription o⟩) :
    (s.step (.described i)).sent = s.sent ++
        [⟨.run, o, s.rtc.pendingTransceivers.map (s.rtc.setLocalDescription o).recvMid⟩] ∧
      (s.step (.described i)).rtc.pendingTransceivers = [] ∧
      (s.step (.described i)).rtc.pushed = s.rtc.pushed := by
  simp only [step, hf]
  exact ⟨rfl, rfl, rfl⟩

theorem reportedOnce_described (hf : s.frames i = some ⟨.run, .setLocalDescription o⟩)
    (hr : s.ReportedOnce) : (s.step (.described i)).ReportedOnce := by
  obtain ⟨hsent, hpending, hpushed⟩ := step_described_run hf
  have hreports : Payload.reports ⟨.run, o,
      s.rtc.pendingTransceivers.map (s.rtc.setLocalDescription o).recvMid⟩ =
        s.rtc.pendingTransceivers := by
    unfold Payload.reports
    rw [if_pos rfl, List.map_map]
    exact List.map_id _
  unfold ReportedOnce reported
  rw [hsent, hpending, hpushed, List.append_nil, List.flatMap_append, List.flatMap_singleton,
    hreports]
  exact hr

theorem belongs_described_iff (h : s.Calls) (hb : s.Belongs)
    (hf : s.frames i = some ⟨.run, .setLocalDescription o⟩) :
    (s.step (.described i)).Belongs ↔
      ∀ p ∈ s.rtc.pendingTransceivers, p.transceiver < o.sections := by
  obtain ⟨hsent, -⟩ := step_described_run hf
  unfold Belongs
  rw [hsent]
  constructor
  · intro hall p hp
    have hentry := hall _ (List.mem_append_right _ (List.mem_singleton.2 rfl)) rfl _
      (List.mem_map_of_mem hp)
    exact (h.mid_iff hf p.transceiver).1 hentry
  · intro htime x hx hrun e he
    rcases List.mem_append.1 hx with hx | hx
    · exact hb x hx hrun e he
    · rw [List.mem_singleton.1 hx] at he ⊢
      obtain ⟨p, hp, rfl⟩ := List.mem_map.1 he
      exact (h.mid_iff hf p.transceiver).2 (htime p hp)

theorem reportedOnce_step (hr : s.ReportedOnce) (e : Event) : (s.step e).ReportedOnce := by
  by_cases hrun : ∃ i o, e = .described i ∧ s.frames i = some ⟨.run, .setLocalDescription o⟩
  · obtain ⟨i, o, rfl, hf⟩ := hrun
    exact reportedOnce_described hf hr
  · exact (noReport_step e fun i o he hf => hrun ⟨i, o, he, hf⟩).reportedOnce hr

theorem belongs_step_iff (h : s.Calls) (hb : s.Belongs) (e : Event) :
    (s.step e).Belongs ↔ s.InTime e := by
  by_cases hrun : ∃ i o, e = .described i ∧ s.frames i = some ⟨.run, .setLocalDescription o⟩
  · obtain ⟨i, o, rfl, hf⟩ := hrun
    rw [belongs_described_iff h hb hf]
    constructor
    · intro htime o' hf'
      rw [hf] at hf'
      cases hf'
      exact htime
    · exact fun htime => htime o hf
  · rw [(noReport_step e fun i o he hf => hrun ⟨i, o, he, hf⟩).belongs_iff]
    refine iff_of_true hb ?_
    cases e with
    | described i => exact fun o hf => absurd ⟨i, o, rfl, hf⟩ hrun
    | _ => trivial

/-! ## What is pending is reported -/

/-- Nothing is pending, or an iteration that will report it is under way or in the queue. -/
def Settling (s : Page) : Prop :=
  s.rtc.pendingTransceivers = [] ∨ (s.rtc.renegotiating = true ∧ 0 < s.rtc.renegotiateQueue) ∨
    ∃ i a, s.frames i = some ⟨.run, a⟩ ∧ a ≠ .answer

/-- The page adds no transceiver of its own accord, and no promise of the browser is rejected. -/
def Quiet : Event → Prop
  | .addRecvTransceiver .. => False
  | .rejected _ => False
  | _ => True

theorem settling_runRenegotiateQueue {n : Nat}
    (h : 0 < n ∨ s.rtc.pendingTransceivers = []) : (s.runRenegotiateQueue n).Settling := by
  induction n with
  | zero => exact .inl (h.resolve_left (Nat.lt_irrefl 0))
  | succ n ih =>
    rw [runRenegotiateQueue]
    split
    · rename_i hnone
      exact ih (.inr hnone.1)
    · exact .inr (.inr ⟨s.nextFrame, .createOffer, call_self _, fun he => by cases he⟩)

theorem settling_renegotiate (s : Page) : s.renegotiate.Settling := by
  unfold renegotiate
  dsimp only
  split
  · rename_i hflag
    exact .inr (.inl ⟨hflag, Nat.succ_pos _⟩)
  · exact settling_runRenegotiateQueue (.inl (Nat.succ_pos _))

theorem Settling.frame (h : s.Settling)
    (hpending : t.rtc.pendingTransceivers = s.rtc.pendingTransceivers)
    (hflag : t.rtc.renegotiating = s.rtc.renegotiating)
    (hqueue : t.rtc.renegotiateQueue = s.rtc.renegotiateQueue)
    (hframes : ∀ i a, s.frames i = some ⟨.run, a⟩ → a ≠ .answer →
      ∃ b, t.frames i = some ⟨.run, b⟩ ∧ b ≠ .answer) : t.Settling := by
  rcases h with hnone | hqueued | ⟨i, a, hf, ha⟩
  · exact .inl (hpending.trans hnone)
  · exact .inr (.inl (by rw [hflag, hqueue]; exact hqueued))
  · obtain ⟨b, hb, hne⟩ := hframes i a hf ha
    exact .inr (.inr ⟨i, b, hb, hne⟩)

/-- A call that is no run changes. -/
theorem Settling.other (h : s.Settling) (hf : s.frames i = some ⟨caller, await⟩)
    (hc : caller ≠ .run) {f : Option CallFrame} (hframes : t.frames = update s.frames i f)
    (hpending : t.rtc.pendingTransceivers = s.rtc.pendingTransceivers)
    (hflag : t.rtc.renegotiating = s.rtc.renegotiating)
    (hqueue : t.rtc.renegotiateQueue = s.rtc.renegotiateQueue) : t.Settling := by
  refine h.frame hpending hflag hqueue fun j a hj ha => ⟨a, ?_, ha⟩
  have hji : j ≠ i := by
    rintro rfl
    rw [hf] at hj
    cases hj
    exact hc rfl
  rw [hframes, Function.update_of_ne hji, hj]

/-- A call goes on to another `await` before its offer is sent. -/
theorem Settling.moves (h : s.Settling) (hf : s.frames i = some ⟨caller, await⟩) {b : Await}
    (hb : b ≠ .answer) (hframes : t.frames = update s.frames i (some ⟨caller, b⟩))
    (hpending : t.rtc.pendingTransceivers = s.rtc.pendingTransceivers)
    (hflag : t.rtc.renegotiating = s.rtc.renegotiating)
    (hqueue : t.rtc.renegotiateQueue = s.rtc.renegotiateQueue) : t.Settling := by
  refine h.frame hpending hflag hqueue fun j a hj ha => ?_
  by_cases hji : j = i
  · subst hji
    rw [hf] at hj
    cases hj
    exact ⟨b, by rw [hframes, Function.update_self], hb⟩
  · exact ⟨a, by rw [hframes, Function.update_of_ne hji, hj], ha⟩

theorem Settling.calls (h : s.Settling) (hc : s.Calls) (f : CallFrame) : (s.call f).Settling := by
  refine h.frame rfl rfl rfl fun j a hj ha => ⟨a, ?_, ha⟩
  exact (call_ne (hc.lt hj).ne f).trans hj

theorem Settling.afterInit (h : s.Settling) (existing : List String) :
    (s.afterInit existing).Settling := by
  unfold Page.afterInit
  split
  · exact h
  · exact settling_renegotiate _

theorem Settling.offerDescribed (h : s.Settling) (hf : s.frames i = some ⟨caller, await⟩)
    (o : Offer) : (s.offerDescribed i o caller).Settling := by
  cases caller with
  | run => exact .inl rfl
  | iceRestart => exact h.other hf (fun he => by cases he) rfl rfl rfl rfl
  | init existing =>
    dsimp only [Page.offerDescribed]
    split
    · exact h.other hf (fun he => by cases he) rfl rfl rfl rfl
    · exact (h.other (t := s.setFrame i none) hf (fun he => by cases he) rfl rfl rfl
        rfl).afterInit existing

/-- An iteration that ends leaves its flag to the next, or nothing is pending. -/
theorem Settling.resolve (h : s.Settling) (hc : s.Calls) (i : Nat) : (s.resolve i).Settling := by
  unfold Page.resolve
  split
  · rename_i caller hf
    cases caller with
    | init existing =>
      exact (h.other (t := s.setFrame i none) hf (fun he => by cases he) rfl rfl rfl
        rfl).afterInit existing
    | iceRestart => exact h.other hf (fun he => by cases he) rfl rfl rfl rfl
    | run =>
      refine settling_runRenegotiateQueue ?_
      rcases h with hnone | ⟨-, hqueued⟩ | ⟨j, a, hj, ha⟩
      · exact .inr hnone
      · exact .inl hqueued
      · obtain rfl := hc.one j i ⟨a, hj⟩ ⟨_, hf⟩
        rw [hf] at hj
        cases hj
        exact absurd rfl ha
  · exact h

theorem Settling.step (h : s.Settling) (hc : s.Calls) {e : Event} (he : Quiet e) :
    (s.step e).Settling := by
  have hmoves := Page.moves s e
  generalize s.step e = t at hmoves ⊢
  cases hmoves with
  | grows | rejected => exact he.elim
  | stays => exact h
  | camera hg hpending =>
    exact h.frame hpending hg.renegotiating hg.queue fun i a hf ha => ⟨a, hf, ha⟩
  | renegotiates => exact settling_renegotiate _
  | @begins _ w _ _ hg hpending =>
    have hset : Settling { s with rtc := w } :=
      h.frame hpending hg.renegotiating hg.queue fun i a hf ha => ⟨a, hf, ha⟩
    exact hset.calls (hc.grow hg) _
  | goesOn hf _ hg hpending hb => exact h.moves hf hb rfl hpending hg.renegotiating hg.queue
  | @described i caller o hf =>
    have hset : Settling { s with rtc := s.rtc.setLocalDescription o } :=
      h.frame rfl rfl rfl fun i a hf ha => ⟨a, hf, ha⟩
    exact hset.offerDescribed hf o
  | answer | error | forgets => exact h.frame rfl rfl rfl fun i a hf ha => ⟨a, hf, ha⟩
  | @resolves i j rest =>
    have hset : Settling { s with
        rtc := { s.rtc with answerResolver := none }
        answering := rest
        resolved := s.resolved ++ [(i, j)] } :=
      h.frame rfl rfl rfl fun i a hf ha => ⟨a, hf, ha⟩
    exact hset.resolve (hc.frame rfl rfl rfl le_rfl hc.ownMids) i

/-! ## Iterations that wait -/

/-- An iteration that waits for its answer has the resolver, and an offer is under way whose answer
will call it. -/
def Wakeable (s : Page) : Prop := ∀ i, s.frames i = some ⟨.run, .answer⟩ →
  s.rtc.answerResolver = some i ∧ s.underWay ≠ []

theorem wakeable_of_none (h : ∀ i, s.frames i ≠ some ⟨.run, .answer⟩) : s.Wakeable :=
  fun i hf => absurd hf (h i)

/-- The same iterations wait, with as good a prospect. -/
theorem wakeable_congr (hwaits : ∀ i, t.frames i = some ⟨.run, .answer⟩ ↔
    s.frames i = some ⟨.run, .answer⟩) (hresolver : t.rtc.answerResolver = s.rtc.answerResolver)
    (hopen : t.underWay = [] ↔ s.underWay = []) : t.Wakeable ↔ s.Wakeable := by
  unfold Wakeable
  simp only [hwaits, hresolver, ne_eq, hopen]

theorem SameOffers.wakeable (hsame : SameOffers s t) : t.Wakeable ↔ s.Wakeable := by
  refine wakeable_congr (fun i => hsame.waits i .run) hsame.resolver ?_
  rw [underWay, hsame.unanswered, hsame.answering, underWay]

theorem wakeable_answer (s : Page) : (s.step .answer).Wakeable ↔ s.Wakeable := by
  obtain ⟨-, hrtc, hframes, -⟩ := step_answer s
  refine wakeable_congr (fun i => by rw [hframes]) (by rw [hrtc]) ?_
  unfold underWay
  dsimp only [Page.step]
  cases hu : s.unanswered with
  | nil => rw [hu]
  | cons i rest => simp

/-- An offer that is sent takes the resolver from every other call that waits. -/
theorem NewOffer.wakeable_iff (hnew : NewOffer s i caller t) (hc : s.Calls)
    (hf : s.frames i = some ⟨caller, .setLocalDescription o⟩) :
    t.Wakeable ↔ (caller ≠ .run → ∀ j, s.frames j ≠ some ⟨.run, .answer⟩) := by
  have hother : ∀ j, s.frames j = some ⟨.run, .answer⟩ → j ≠ i := by
    rintro j hj rfl
    rw [hf] at hj
    cases hj
  constructor
  · intro h hrun j hj
    have hwaits : t.frames j = some ⟨.run, .answer⟩ := by
      rw [hnew.frames, Function.update_of_ne (hother j hj), hj]
    have hresolver := (h j hwaits).1
    rw [hnew.resolver] at hresolver
    exact hother j hj (Option.some.inj hresolver).symm
  · intro h j hj
    refine ⟨?_, by rw [underWay, hnew.unanswered]; simp⟩
    by_cases hji : j = i
    · rw [hji, hnew.resolver]
    · rw [hnew.frames, Function.update_of_ne hji] at hj
      by_cases hrun : caller = .run
      · exact absurd (hc.one j i ⟨_, hj⟩ ⟨_, hrun ▸ hf⟩) hji
      · exact absurd hj (h hrun j)

theorem wakeable_error_iff (h : s.Wakeable) : (s.step .error).Wakeable ↔ s.Heard .error := by
  constructor
  · exact fun hnext hempty j hj => (hnext j hj).2 hempty
  · exact fun hheard j hj => ⟨(h j hj).1, fun hempty => hheard hempty j hj⟩

/-- The answer that is set wakes the iteration that waits, if there is one. -/
theorem Wakeable.remoteDescribed (h : s.Wakeable) (hc : s.Calls) :
    (s.step .remoteDescribed).Wakeable := by
  cases hans : s.answering with
  | nil =>
    rw [step_remoteDescribed_nil hans]
    exact h
  | cons j rest =>
    cases hres : s.rtc.answerResolver with
    | none =>
      rw [step_remoteDescribed_none hans hres]
      refine wakeable_of_none fun i hf => ?_
      have hresolver := (h i hf).1
      rw [hres] at hresolver
      cases hresolver
    | some i =>
      refine wakeable_of_none fun k hf => ?_
      obtain ⟨hne, hf⟩ := ((resolves_step hc hans hres).waits k .run).1 hf
      have hresolver := (h k hf).1
      rw [hres] at hresolver
      exact hne (Option.some.inj hresolver).symm

theorem wakeable_step_iff (h : s.Wakeable) (hc : s.Calls) (e : Event) :
    (s.step e).Wakeable ↔ s.Heard e := by
  rcases offer_cases hc e with hsame | ⟨i, caller, o, rfl, hf, hs⟩ | rfl | rfl | rfl
  · have hnext := hsame.wakeable.2 h
    refine iff_of_true hnext ?_
    cases e with
    | described i =>
      intro caller o hf _ hs
      have hwaits : (s.step (.described i)).frames i = some ⟨caller, .answer⟩ := by
        rw [(newOffer_step hf hs).frames, Function.update_self]
      rw [hsame.waits, hf] at hwaits
      cases hwaits
    | error => exact (wakeable_error_iff h).1 hnext
    | _ => trivial
  · rw [(newOffer_step hf hs).wakeable_iff hc hf]
    constructor
    · intro hnone caller' o' hf' hrun _
      rw [hf] at hf'
      cases hf'
      exact hnone hrun
    · exact fun hheard hrun => hheard caller o hf hrun hs
  · exact iff_of_true ((wakeable_answer s).2 h) trivial
  · exact wakeable_error_iff h
  · exact iff_of_true (h.remoteDescribed hc) trivial

/-- An iteration that has lost its answer waits on. -/
theorem not_wakeable_step (h : ¬ s.Wakeable) (hc : s.Calls) (e : Event) : ¬ (s.step e).Wakeable := by
  rcases offer_cases hc e with hsame | ⟨i, caller, o, rfl, hf, hs⟩ | rfl | rfl | rfl
  · rwa [hsame.wakeable]
  · intro hnext
    refine h (wakeable_of_none fun j hj => ?_)
    refine ((newOffer_step hf hs).wakeable_iff hc hf).1 hnext ?_ j hj
    rintro rfl
    obtain rfl := hc.one i j ⟨_, hf⟩ ⟨_, hj⟩
    rw [hf] at hj
    cases hj
  · rwa [wakeable_answer]
  · refine fun hnext => h fun j hj => ⟨(hnext j hj).1, fun hempty => (hnext j hj).2 ?_⟩
    obtain ⟨hu, ha⟩ := List.append_eq_nil_iff.1 hempty
    simp only [underWay, Page.step, hu, ha, List.tail_nil, List.append_nil]
  · cases hans : s.answering with
    | nil => rwa [step_remoteDescribed_nil hans]
    | cons j rest =>
      cases hres : s.rtc.answerResolver with
      | none =>
        rw [step_remoteDescribed_none hans hres]
        refine fun hnext => h (wakeable_of_none fun i hf => ?_)
        have hresolver := (hnext i hf).1
        rw [hres] at hresolver
        cases hresolver
      | some i =>
        have hstep := resolves_step hc hans hres
        refine fun hnext => h fun k hk => ?_
        by_cases hki : k = i
        · exact ⟨by rw [hki, hres], by rw [underWay, hans]; simp⟩
        · have hresolver := (hnext k ((hstep.waits k .run).2 ⟨hki, hk⟩)).1
          rw [hstep.resolver] at hresolver
          cases hresolver

/-- While an iteration waits that has lost its answer, `_renegotiating` stays set. -/
theorem renegotiating_of_not_wakeable (h : ¬ s.Wakeable) (hc : s.Calls) :
    s.rtc.renegotiating = true := by
  by_contra hidle
  exact h (wakeable_of_none fun i hf => hidle (hc.flag.2 ⟨i, _, hf⟩))

/-- The iteration that waits is the only one, so nothing is reported meanwhile. -/
theorem reported_of_not_wakeable (h : ¬ s.Wakeable) (hc : s.Calls) (e : Event) :
    (s.step e).reported = s.reported := by
  refine (noReport_step e fun i o _ hf => h (wakeable_of_none fun j hj => ?_)).reported
  obtain rfl := hc.one i j ⟨_, hf⟩ ⟨_, hj⟩
  rw [hf] at hj
  cases hj

/-- The server has replied to all offers, their answers are set, and no promise of the browser is
waited for. -/
def AtRest (s : Page) : Prop :=
  s.underWay = [] ∧ ∀ i < s.nextFrame, ∀ f ∈ s.frames i, f.await = .answer

instance (s : Page) : Decidable s.AtRest := inferInstanceAs (Decidable (_ ∧ _))

theorem Wakeable.idle (h : s.Wakeable) (hc : s.Calls) (hrest : s.AtRest) :
    s.rtc.renegotiating = false := by
  by_contra hflag
  obtain ⟨i, a, hf⟩ := hc.flag.1 (Bool.eq_true_of_not_eq_false hflag)
  obtain rfl : a = .answer := hrest.2 i (hc.lt hf) _ hf
  exact (h i hf).2 hrest.1

theorem Settling.reported (h : s.Settling) (hc : s.Calls) (ha : s.Wakeable) (hrest : s.AtRest)
    (hr : s.ReportedOnce) : s.reported = s.rtc.pushed := by
  have hidle := ha.idle hc hrest
  rcases h with hnone | ⟨hflag, -⟩ | ⟨i, a, hf, -⟩
  · rw [← hr, hnone, List.append_nil]
  · rw [hidle] at hflag
    cases hflag
  · rw [hc.flag.2 ⟨i, a, hf⟩] at hidle
    cases hidle

/-! ## Runs -/

/-- Whenever the page is at rest, with `renegotiate` called since its own last push, each transceiver
that has been pushed is in one entry. -/
def Delivered (ops : List Event) : Prop :=
  ∀ pre post more, ops = pre ++ post ++ more → (pre = [] ∨ ∃ l, pre = l ++ [.renegotiate]) →
    (∀ e ∈ post, Quiet e) → (exec step {} (pre ++ post)).AtRest →
      (exec step {} (pre ++ post)).reported = (exec step {} (pre ++ post)).rtc.pushed

theorem calls_exec (ops : List Event) : (exec step {} ops).Calls :=
  Runs.exec_inv' (fun _ e h => h.step e) ops calls_start

theorem wakeable_iff (ops : List Event) :
    Always step Wakeable {} ops ↔ Meets step Heard {} ops :=
  Runs.always_iff_meets (I := Calls) (fun _ e h => h.step e)
    (fun _ e hc h => wakeable_step_iff h hc e) calls_start (wakeable_of_none fun _ hf => by cases hf)

theorem reportedOnce_exec (ops : List Event) : (exec step {} ops).ReportedOnce :=
  Runs.exec_inv' (I := ReportedOnce) (fun _ e h => reportedOnce_step h e) ops rfl

theorem settling_exec {pre : List Event} (h : pre = [] ∨ ∃ l, pre = l ++ [.renegotiate]) :
    (exec step {} pre).Settling := by
  rcases h with rfl | ⟨l, rfl⟩
  · exact .inl rfl
  · rw [Runs.exec_append]
    exact settling_renegotiate _

theorem delivered {ops : List Event} (h : Meets step Heard {} ops) : Delivered ops := by
  rintro pre post more rfl hpre hquiet hrest
  have hwakeable := ((wakeable_iff _).2 (Runs.meets_append.1 h).1).last
  refine Settling.reported ?_ (calls_exec _) hwakeable hrest (reportedOnce_exec _)
  rw [Runs.exec_append]
  exact (Runs.exec_inv (I := fun s : Page => s.Settling ∧ s.Calls) (G := fun _ e => Quiet e)
    (fun s e h he => ⟨h.1.step h.2 he, h.2.step e⟩) ⟨settling_exec hpre, calls_exec pre⟩
    (Runs.meets_of_forall hquiet)).1

/-- While one offer is in flight, an iteration that waits has the resolver. -/
theorem Steady.wakeable (h : s.Steady) : s.Wakeable := by
  intro i hf
  have hi := h.waits i .run hf
  exact ⟨h.resolver i hi, List.ne_nil_of_mem hi⟩

/-- **With one offer in flight**, all that is pushed is reported. -/
theorem delivered_of_alone {ops : List Event} (h : Meets step Alone {} ops) : Delivered ops :=
  delivered ((wakeable_iff ops).1 ((always_steady h).mono fun _ hs => hs.1.wakeable))

/-- **Every entry belongs to its offer**, no iteration loses its answer, and each transceiver is
reported once, exactly when no transceiver is reported that was added after the creation of the
offer, and nothing takes the answer from an iteration that waits. -/
theorem entries_belong_iff (ops : List Event) :
    Always step (fun s => s.Belongs ∧ s.ReportedOnce ∧ s.Wakeable) {} ops ∧ Delivered ops ↔
      Meets step (fun s e => s.InTime e ∧ s.Heard e) {} ops := by
  have hiff : Always step (fun s => s.Belongs ∧ s.ReportedOnce ∧ s.Wakeable) {} ops ↔
      Meets step (fun s e => s.InTime e ∧ s.Heard e) {} ops := by
    refine Runs.always_iff_meets (I := Calls) (fun _ e h => h.step e) (fun s e h hp => ?_)
      calls_start ⟨fun _ hx => absurd hx List.not_mem_nil, rfl,
        wakeable_of_none fun _ hf => by cases hf⟩
    rw [belongs_step_iff h hp.1, wakeable_step_iff hp.2.2 h,
      and_iff_right (reportedOnce_step hp.2.1 e)]
  rw [hiff]
  exact and_iff_left_of_imp fun h => delivered (h.mono fun _ _ he => he.2)

/-- **An iteration that has lost its answer** blocks the queue: in every continuation of the run
`_renegotiating` stays set, and nothing more is reported. -/
theorem unreported_forever (h : ¬ s.Wakeable) (hc : s.Calls) (ops : List Event) :
    (exec step s ops).rtc.renegotiating = true ∧ (exec step s ops).reported = s.reported := by
  have hlost : ¬ (exec step s ops).Wakeable ∧ (exec step s ops).Calls ∧
      (exec step s ops).reported = s.reported :=
    Runs.exec_inv' (I := fun t : Page => ¬ t.Wakeable ∧ t.Calls ∧ t.reported = s.reported)
      (fun _ e h => ⟨not_wakeable_step h.1 h.2.1 e, h.2.1.step e,
        (reported_of_not_wakeable h.1 h.2.1 e).trans h.2.2⟩) ops ⟨h, hc, rfl⟩
  exact ⟨renegotiating_of_not_wakeable hlost.1 hlost.2.1, hlost.2.2⟩

/-- A page that is alone in its room, its first offer answered. -/
def joinAlone : List Event :=
  [.joined [], .userMedia 0 true, .offerCreated 0, .described 0, .answer, .remoteDescribed]

/-- Peer c comes while the offer for peer b is being described. -/
def comeLate : List Event :=
  joinAlone ++ Event.renegotiateMessage "b" ++ [.offerCreated 1] ++ Event.renegotiateMessage "c" ++
    [.described 1]

theorem late_entry : ¬ ∀ ops,
    Always step (fun s => s.Belongs ∧ s.ReportedOnce ∧ s.Wakeable) {} ops ∧ Delivered ops := by
  intro h
  obtain ⟨mid, -, hmid⟩ := (h comeLate).1.last.1
    ⟨.run, ⟨3⟩, [⟨1, some 1, "b", .video, true⟩, ⟨2, some 2, "b", .audio, false⟩,
      ⟨3, none, "c", .video, true⟩, ⟨4, none, "c", .audio, false⟩]⟩ (by decide) rfl
    ⟨3, none, "c", .video, true⟩ (by decide)
  cases hmid

/-- The offer for peer b is sent before that of `init`, which takes the resolver, and peer c comes
when both are answered. -/
def overtaken : List Event :=
  [.joined [], .userMedia 0 true, .offerCreated 0] ++ Event.renegotiateMessage "b" ++
    [.offerCreated 1, .described 1, .described 0, .answer, .answer, .remoteDescribed,
      .remoteDescribed] ++ Event.renegotiateMessage "c"

/-- What is pushed for c is in no entry. -/
theorem overtaken_unreported : Meets step InTime {} overtaken ∧ ¬ Delivered overtaken := by
  refine ⟨by decide, fun h => ?_⟩
  have hall := h overtaken [] [] rfl (.inr ⟨overtaken.take 13, rfl⟩)
    (fun _ he => absurd he List.not_mem_nil) (by decide)
  exact absurd hall (by decide)

end Page

end Namecon
