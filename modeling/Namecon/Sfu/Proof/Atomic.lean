import Namecon.Lib.Atomic
import Namecon.Lib.Deadlock
import Namecon.Sfu.Proof.Threads

/-!
# The router among threads

`Hides` are the rules for what the forwarding loop and the transport do: the links stay as they are.
`Inside` are those for the body of a section: what it does to the links depends on the links alone,
it notes nothing, and it takes `RouteTable::_mutex` at most. `Outside` are those for a call: outside
of its sections it leaves the links as they are. With them, whatever the schedule,

* the sections of all calls are a run of the router of `Sfu/Router.lean` (`calls_atomic`),
* while nobody writes, the link invariant holds (`link_invariant_threads`),
* no thread waits for ever (`calls_return`).

A run ends at an access to a destroyed consumer or through a null pointer; what is said of a run
holds up to there.
-/

namespace Namecon

open Locks Locks.Prog
open Runs (exec Meets upTo)

/-! ## The links -/

/-- The links of the router in memory. -/
def RouterMemory.links (s : RouterMemory) : Router := s.router.links

namespace Router

theorem links_links (r : Router) : r.links.links = r.links := rfl

theorem links_modifyConsumer (r : Router) (c : ConsumerRef) (f : Consumer → Consumer) :
    (r.modifyConsumer c f).links = r.links.modifyConsumer c fun _ => (f (r.heap c)).link :=
  congrArg (fun heap => { r.links with heap })
    (Function.comp_update Consumer.link r.heap c (f (r.heap c)))

theorem links_modifyPeer (r : Router) (p : PeerRef) (f : Peer → Peer) :
    (r.modifyPeer p f).links = r.links.modifyPeer p fun _ => (f (r.peers p)).link :=
  congrArg (fun peers => { r.links with peers })
    (Function.comp_update Peer.link r.peers p (f (r.peers p)))

theorem links_allocate (r : Router) (k : Consumer) :
    (r.allocate k).links = r.links.allocate k.link :=
  congrArg (fun heap => { r.links with nextConsumer := r.nextConsumer + 1, heap })
    (Function.comp_update Consumer.link r.heap r.nextConsumer k)

/-- A change of what the loop writes is none of the links. -/
theorem links_setConsumer {r : Router} {c : ConsumerRef} {f : Consumer → Consumer}
    (h : (f (r.heap c)).link = (r.heap c).link) : (r.modifyConsumer c f).links = r.links := by
  rw [links_modifyConsumer, h]
  exact congrArg (fun heap => { r.links with heap }) (Function.update_eq_self c r.links.heap)

theorem links_setPeer {r : Router} {p : PeerRef} {f : Peer → Peer}
    (h : (f (r.peers p)).link = (r.peers p).link) : (r.modifyPeer p f).links = r.links := by
  rw [links_modifyPeer, h]
  exact congrArg (fun peers => { r.links with peers }) (Function.update_eq_self p r.links.peers)

theorem LinkInvariant.of_links {r r' : Router} (h : r.LinkInvariant)
    (hlinks : r'.links = r.links) : r'.LinkInvariant := by
  have hr : r.links.LinkInvariant := ⟨h.distinct, h.nodup, h.member, h.converse⟩
  rw [← hlinks] at hr
  exact ⟨hr.distinct, hr.nodup, hr.member, hr.converse⟩

end Router

namespace RouterProg

variable {α β : Type} {mode : Mode}

instance : Finite RouterLock :=
  Finite.of_surjective (fun n : Fin 3 => [RouterLock.router, .ssrcGen, .table].get n) fun m =>
    match m with
    | .router => ⟨0, rfl⟩
    | .ssrcGen => ⟨1, rfl⟩
    | .table => ⟨2, rfl⟩

/-- The order in which the locks are taken. -/
def rank : RouterLock → ℕ
  | .router | .ssrcGen => 0
  | .table => 1

/-- The router as a sequential object, seen by its links. -/
def spec : Spec Router RouterEvent where
  legal r e := e.2 = r.answer e.1
  apply r e := (r.after e.1).links

/-! ## What the lock does not guard -/

/-- The rules for a block that may stand anywhere: it leaves the links as they are, notes nothing
and takes no lock. -/
structure Hides (p : RouterProg α) : Prop where
  hidden : p.Hidden .router RouterMemory.links spec
  silent : p.Silent
  balanced : ∀ held, p.Balanced rank held

theorem Hides.bind {p : RouterProg α} {f : α → RouterProg β} (h : Hides p)
    (hf : ∀ a, Hides (f a)) : Hides (p >>= f) where
  hidden := h.hidden.bind fun a => (hf a).hidden
  silent := h.silent.bind fun a => (hf a).silent
  balanced held := (h.balanced held).bind fun a => (hf a).balanced held

theorem hides_pure (a : α) : Hides (pure a) := ⟨hidden_ret a, rfl, fun _ => rfl⟩

theorem hides_loadIf (ok : RouterMemory → Bool) (f : RouterMemory → α) : Hides (loadIf ok f) where
  hidden := hidden_loadIf _ _
  silent := silent_loadIf _ _
  balanced _ := balanced_loadIf _ _

theorem hides_look (f : Router → α) : Hides (look f) := hides_loadIf _ _

theorem hides_read (c : ConsumerRef) (f : Consumer → α) : Hides (read c f) := hides_loadIf _ _

theorem hides_storeIf {ok : RouterMemory → Bool} {upd : RouterMemory → RouterMemory}
    (h : ∀ s, (upd s).links = s.links) : Hides (storeIf ok upd) where
  hidden := hidden_storeIf h
  silent := silent_storeIf _ _
  balanced _ := balanced_storeIf _ _

theorem hides_crash : Hides crash := hides_storeIf fun _ => rfl

theorem hides_modify {f : Router → Router} (h : ∀ r, (f r).links = r.links) : Hides (modify f) :=
  hides_storeIf fun s => h s.router

theorem hides_consumer (c : ConsumerRef) {f : Consumer → Consumer}
    (h : ∀ k, (f k).link = k.link) : Hides (consumer c f) :=
  hides_storeIf fun _ => Router.links_setConsumer (h _)

theorem hides_peer (p : PeerRef) {f : Peer → Peer} (h : ∀ x, (f x).link = x.link) :
    Hides (peer p f) :=
  hides_modify fun _ => Router.links_setPeer (h _)

theorem hides_sendTo (f : Router → List Datagram) : Hides (sendTo f) := hides_storeIf fun _ => rfl

theorem hides_forEach {f : β → RouterProg Unit} (h : ∀ x, Hides (f x)) (xs : List β) :
    Hides (forEach xs f) where
  hidden := hidden_forEach xs fun x => (h x).hidden
  silent := silent_fold (fun _ x => (h x).silent) xs ()
  balanced held := balanced_forEach xs fun x => (h x).balanced held

theorem hides_sendRtcp (P : PeerRef) (o : SrtpOracle) (i : Nat) (plain : Bytes) :
    Hides (sendRtcp P o i plain) := by
  refine (hides_look _).bind fun srtp => ?_
  cases srtp with
  | none => exact hides_crash
  | some ctx =>
    cases hdata : o.protectRtcp i ctx plain with
    | none =>
      dsimp only
      rw [hdata]
      exact hides_pure _
    | some data =>
      dsimp only
      rw [hdata]
      exact hides_sendTo _

theorem hides_requestPli (o : SrtpOracle) (P : PeerRef) (ssrc : UInt32) (v : Bool) :
    Hides (requestPli o P ssrc v) := by
  cases v with
  | false => exact hides_pure _
  | true =>
    refine (hides_look _).bind fun keyed => ?_
    cases keyed with
    | false => exact hides_pure _
    | true => exact hides_sendRtcp P o 0 _

theorem hides_rewriteRtpHeader (buf : Bytes) (c : ConsumerRef) :
    Hides (rewriteRtpHeader buf c) := by
  unfold rewriteRtpHeader
  cases RtpHeader.parse buf with
  | none => exact hides_pure _
  | some hdr =>
    refine (hides_read c _).bind fun ssrc => (hides_read c _).bind fun initialized => ?_
    cases initialized with
    | true =>
      refine (hides_read c _).bind fun lastSentSeq => (hides_read c _).bind fun lastSentTs =>
        (hides_read c _).bind fun lastSentSeq' => (hides_read c _).bind fun lastSentTs' => ?_
      exact (hides_consumer c fun _ => by rfl).bind fun _ =>
        (hides_consumer c fun _ => by rfl).bind fun _ =>
        (hides_consumer c fun _ => by rfl).bind fun _ =>
        (hides_consumer c fun _ => by rfl).bind fun _ => hides_pure _
    | false =>
      exact (hides_consumer c fun _ => by rfl).bind fun _ =>
        (hides_consumer c fun _ => by rfl).bind fun _ =>
        (hides_consumer c fun _ => by rfl).bind fun _ =>
        (hides_consumer c fun _ => by rfl).bind fun _ =>
        (hides_consumer c fun _ => by rfl).bind fun _ => hides_pure _

theorem hides_countSent (len : Nat) (c : ConsumerRef) : Hides (countSent len c) :=
  (hides_read c _).bind fun _ => (hides_consumer c fun _ => by rfl).bind fun _ =>
    (hides_read c _).bind fun _ => hides_consumer c fun _ => by rfl

theorem hides_protectAndSend (o : SrtpOracle) (plainRtp out : Bytes) (c : ConsumerRef) :
    Hides (protectAndSend o plainRtp out c) := by
  refine (hides_read c _).bind fun subscriber => ?_
  cases subscriber with
  | none => exact hides_crash
  | some S =>
    refine (hides_look _).bind fun srtp => ?_
    cases srtp with
    | none => exact hides_crash
    | some ctx =>
      cases hdata : o.protect c ctx out with
      | none =>
        dsimp only
        rw [hdata]
        exact hides_pure _
      | some data =>
        dsimp only
        rw [hdata]
        refine (hides_read c _).bind fun subscriber => ?_
        cases subscriber with
        | none => exact hides_crash
        | some S' => exact (hides_sendTo _).bind fun _ => hides_countSent _ c

theorem hides_forwardOne (o : SrtpOracle) (plainRtp : Bytes) (c : ConsumerRef) :
    Hides (forwardOne o plainRtp c) := by
  refine (hides_read c _).bind fun active => ?_
  cases active with
  | false => exact hides_pure _
  | true =>
    refine (hides_read c _).bind fun subscribed => ?_
    cases subscribed with
    | false => exact hides_pure _
    | true =>
      refine (hides_read c _).bind fun subscriber => ?_
      cases subscriber with
      | none => exact hides_crash
      | some S =>
        refine (hides_look _).bind fun keyed => ?_
        cases keyed with
        | false => exact hides_pure _
        | true =>
          refine (hides_read c _).bind fun unbound => ?_
          cases unbound with
          | true => exact hides_pure _
          | false =>
            exact (hides_rewriteRtpHeader plainRtp c).bind fun out =>
              hides_protectAndSend o plainRtp out c

theorem hides_collect (c : ConsumerRef) (reading : Router.Reading) :
    Hides (collect c reading) := by
  induction reading with
  | built plain => exact hides_pure _
  | seqDelta next ih => exact (hides_read c _).bind ih
  | publisherSsrc next ih => exact (hides_read c _).bind ih

theorem hides_setTransport (p : PeerRef) (remoteEp : Endpoint) (dtls : Option DtlsContext)
    (srtp : Option SrtpContext) : Hides (setTransport p remoteEp dtls srtp) :=
  (hides_peer p fun _ => by rfl).bind fun _ => (hides_peer p fun _ => by rfl).bind fun _ =>
    hides_peer p fun _ => by rfl

/-! ## In a section -/

/-- The rules for a block in a section of the mode. -/
structure Inside (mode : Mode) (p : RouterProg α) : Prop where
  respects : p.Respects .router RouterMemory.links spec mode
  silent : p.Silent
  balanced : p.Balanced rank fun m => m = .router ∨ False

theorem Inside.bind {p : RouterProg α} {f : α → RouterProg β} (h : Inside mode p)
    (hf : ∀ a, Inside mode (f a)) : Inside mode (p >>= f) where
  respects := h.respects.bind fun a => (hf a).respects
  silent := h.silent.bind fun a => (hf a).silent
  balanced := h.balanced.bind fun a => (hf a).balanced

/-- What the links do not show may go any way in a section, if nothing comes of it. -/
theorem Hides.inside {p : RouterProg Unit} (h : Hides p) : Inside mode p where
  respects := h.hidden.respects
  silent := h.silent
  balanced := h.balanced _

theorem inside_pure (a : α) : Inside mode (pure a) := ⟨respects_ret a, rfl, rfl⟩

theorem inside_loadIf {ok : RouterMemory → Bool} {f : Router → α} (h : ∀ r, f r.links = f r) :
    Inside mode (loadIf ok fun s => f s.router : RouterProg α) where
  respects := respects_loadIf fun s s' hs => by
    rw [← h s.router, ← h s'.router]
    exact congrArg f hs
  silent := silent_loadIf _ _
  balanced := balanced_loadIf _ _

theorem inside_look {f : Router → α} (h : ∀ r, f r.links = f r) : Inside mode (look f) :=
  inside_loadIf h

theorem inside_lookAt {c : ConsumerRef} {f : Router → α} (h : ∀ r, f r.links = f r) :
    Inside mode (lookAt c f) :=
  inside_loadIf h

theorem inside_read {c : ConsumerRef} {f : Consumer → α} (h : ∀ k, f k.link = f k) :
    Inside mode (read c f) :=
  inside_lookAt fun r => h (r.heap c)

/-- A change that the links determine, whatever else it does. -/
theorem inside_storeIf {ok : RouterMemory → Bool} {upd : RouterMemory → RouterMemory}
    {f : Router → Router} (hupd : ∀ s, (upd s).links = (f s.router).links)
    (h : ∀ r, (f r.links).links = (f r).links) :
    Inside .exclusive (storeIf ok upd : RouterProg Unit) where
  respects := respects_storeIf fun s s' hs => by
    rw [hupd, hupd, ← h s.router, ← h s'.router]
    exact congrArg (fun r => (f r).links) hs
  silent := silent_storeIf _ _
  balanced := balanced_storeIf _ _

theorem inside_modify {f : Router → Router} (h : ∀ r, (f r.links).links = (f r).links) :
    Inside .exclusive (modify f) :=
  inside_storeIf (fun _ => rfl) h

theorem inside_consumer (c : ConsumerRef) {f : Consumer → Consumer}
    (h : ∀ k, (f k.link).link = (f k).link) : Inside .exclusive (consumer c f) :=
  inside_storeIf (fun _ => rfl) fun r => by
    rw [Router.links_modifyConsumer, Router.links_modifyConsumer, ← h (r.heap c)]
    rfl

theorem inside_peer (p : PeerRef) {f : Peer → Peer} (h : ∀ x, (f x.link).link = (f x).link) :
    Inside .exclusive (peer p f) :=
  inside_modify fun r => by
    rw [Router.links_modifyPeer, Router.links_modifyPeer, ← h (r.peers p)]
    rfl

theorem inside_clearConsumers (p : PeerRef) : Inside .exclusive (clearConsumers p) :=
  inside_storeIf (f := fun r => r.modifyPeer p fun x => { x with consumers := [] }) (fun _ => rfl)
    fun r => by
      rw [Router.links_modifyPeer, Router.links_modifyPeer]
      rfl

theorem inside_table {p : RouterProg α} (h : p.Respects .router RouterMemory.links spec mode)
    (hsilent : p.Silent) (hheld : ∀ held, p.Balanced rank held) :
    Inside mode (withLock .table .exclusive p) where
  respects := h.withLock (by decide) _
  silent := hsilent.withLock _ _
  balanced := by
    refine Balanced.withLock (fun m hm => ?_) (hheld _)
    obtain rfl := hm.resolve_right id
    decide

theorem inside_fold {f : α → β → RouterProg α} (h : ∀ a x, Inside mode (f a x)) (xs : List β)
    (a : α) : Inside mode (fold f xs a) where
  respects := respects_fold (fun a x => (h a x).respects) xs a
  silent := silent_fold (fun a x => (h a x).silent) xs a
  balanced := balanced_fold (fun a x => (h a x).balanced) xs a

theorem inside_forEach {f : β → RouterProg Unit} (h : ∀ x, Inside mode (f x)) (xs : List β) :
    Inside mode (forEach xs f) :=
  inside_fold (fun _ => h) xs ()

theorem inside_find {f : β → RouterProg Bool} (h : ∀ x, Inside mode (f x)) (xs : List β) :
    Inside mode (find f xs) where
  respects := respects_find (fun x => (h x).respects) xs
  silent := silent_find (fun x => (h x).silent) xs
  balanced := balanced_find (fun x => (h x).balanced) xs

theorem inside_registerPeer (p : PeerRef) : Inside .exclusive (registerPeer p) := by
  refine (inside_look fun _ => rfl).bind fun allPeers => ?_
  split
  · exact inside_pure _
  · exact inside_modify fun _ => rfl

theorem inside_newConsumer (k : Consumer) : Inside .exclusive (newConsumer k) where
  respects := by
    intro s before Q hQ s' hs'
    have hnext : s'.router.nextConsumer = s.router.nextConsumer :=
      show s'.links.nextConsumer = s.links.nextConsumer from congrArg Router.nextConsumer hs'
    have hlinks : (s'.router.allocate k).links = (s.router.allocate k).links := by
      rw [Router.links_allocate, Router.links_allocate]
      exact congrArg (fun r : Router => r.allocate k.link) hs'
    refine ⟨fun hm => Mode.noConfusion hm, ?_⟩
    change Q s'.router.nextConsumer (.inside .exclusive before (s'.router.allocate k).links)
    rw [hnext, hlinks]
    exact hQ
  silent := fun _ => rfl
  balanced := fun _ => rfl

theorem inside_linkNew (publisher : PeerRef) (raw : ConsumerRef) (isVideo : Bool) :
    Inside .exclusive (linkNew publisher raw isVideo) := by
  refine (inside_look fun _ => rfl).bind fun producers => ?_
  cases producers.find? (Router.linksTo isVideo) with
  | none => exact inside_pure _
  | some p =>
    exact (inside_consumer _ fun _ => rfl).bind fun _ => inside_peer _ fun _ => rfl

theorem inside_addConsumerBody (S P : PeerRef) (v : Bool) (ssrc : UInt32) :
    Inside .exclusive (addConsumerBody S P v ssrc) :=
  (inside_newConsumer _).bind fun raw => (inside_registerPeer S).bind fun _ =>
    (inside_registerPeer P).bind fun _ => (inside_modify fun _ => rfl).bind fun _ =>
    (inside_linkNew P raw v).bind fun _ => (inside_peer S fun _ => rfl).bind fun _ =>
    inside_pure raw

theorem inside_eraseOut (c : ConsumerRef) : Inside .exclusive (eraseOut c) :=
  (inside_read fun _ => rfl).bind fun _ => inside_modify fun _ => rfl

theorem inside_retire (c : ConsumerRef) : Inside .exclusive (retire c) :=
  (inside_consumer c fun _ => rfl).bind fun _ => (inside_consumer c fun _ => rfl).bind fun _ =>
    inside_eraseOut c

theorem inside_unlink (c : ConsumerRef) : Inside .exclusive (unlink c) := by
  refine (inside_read fun _ => rfl).bind fun publisher => ?_
  cases publisher with
  | none => exact inside_pure _
  | some P =>
    refine (inside_read fun _ => rfl).bind fun ssrc => (inside_look fun _ => rfl).bind fun ps => ?_
    split
    · exact inside_peer P fun _ => rfl
    · exact inside_pure _

theorem inside_unsubscribe (c : ConsumerRef) : Inside .exclusive (unsubscribe c) :=
  (inside_unlink c).bind fun _ => inside_eraseOut c

theorem inside_removePeerBody (p : PeerRef) : Inside .exclusive (removePeerBody p) :=
  (inside_look fun _ => rfl).bind fun producers =>
    (inside_forEach (fun x => inside_forEach inside_retire x.consumers) producers).bind fun _ =>
    (inside_peer p fun _ => rfl).bind fun _ => (inside_look fun _ => rfl).bind fun consumers =>
    (inside_forEach inside_unsubscribe consumers).bind fun _ =>
    (inside_clearConsumers p).bind fun _ => (inside_modify fun _ => rfl).bind fun _ =>
    inside_table (inside_modify fun _ => rfl).respects (silent_store _) fun _ => balanced_store _

theorem inside_linkWaiting (P : PeerRef) (ssrc : UInt32) (v : Bool) (c : ConsumerRef) :
    Inside .exclusive (linkWaiting P ssrc v c) := by
  refine (inside_read fun _ => rfl).bind fun waits => ?_
  split
  · exact (inside_consumer c fun _ => rfl).bind fun _ => inside_peer P fun _ => rfl
  · exact inside_pure _

theorem inside_createProducer (o : SrtpOracle) (P : PeerRef) (ssrc : UInt32) (v : Bool) :
    Inside .exclusive (createProducer o P ssrc v) :=
  (inside_peer P fun _ => rfl).bind fun _ =>
    (inside_table (inside_modify fun _ => rfl).respects (silent_store _)
      fun _ => balanced_store _).bind fun _ =>
    (hides_requestPli o P ssrc v).inside.bind fun _ =>
    (inside_look fun _ => rfl).bind fun allPeers =>
    (inside_forEach (fun _ => (inside_look fun _ => rfl).bind fun consumers =>
      inside_forEach (inside_linkWaiting P ssrc v) consumers) allPeers).bind fun _ =>
    inside_look fun _ => rfl

theorem inside_createTargets (o : SrtpOracle) (P : PeerRef) (ssrc : UInt32) (v : Bool) :
    Inside .exclusive (createTargets o P ssrc v) := by
  refine (inside_look fun _ => rfl).bind fun found => ?_
  cases found with
  | none => exact inside_createProducer o P ssrc v
  | some p => exact inside_pure _

theorem inside_bindConsumerByMidBody (S : PeerRef) (publisherPeerId : String) (v : Bool)
    (mid : String) : Inside .exclusive (bindConsumerByMidBody S publisherPeerId v mid) := by
  refine (inside_look fun _ => rfl).bind fun consumers =>
    (inside_find (fun c => inside_lookAt fun _ => rfl) consumers).bind fun found => ?_
  cases found with
  | none => exact inside_pure _
  | some c => exact (inside_consumer c fun _ => rfl).bind fun _ => inside_read fun _ => rfl

theorem inside_getAllBoundSsrcsBody (S : PeerRef) : Inside .shared (getAllBoundSsrcsBody S) := by
  refine (inside_look fun _ => rfl).bind fun consumers => inside_fold (fun result c => ?_) _ _
  refine (inside_read fun _ => rfl).bind fun mid => ?_
  split
  · exact inside_pure _
  · exact (inside_read fun _ => rfl).bind fun _ => inside_pure _

theorem inside_getAllVideoProducersBody : Inside .shared getAllVideoProducersBody :=
  (inside_look fun _ => rfl).bind fun allPeers =>
    inside_fold (fun _ _ => (inside_look fun _ => rfl).bind fun _ => inside_pure _) allPeers []

/-! ## The sections -/

/-- On its own, the block does what the query says, and keeps the rules. -/
structure Performs (mode : Mode) (q : RouterQuery) (body : RouterProg q.Result) : Prop where
  inside : Inside mode body
  links : ∀ r, (body.run ⟨r, [], ∅⟩).1.links = (r.after q).links
  answer : ∀ r, (body.run ⟨r, [], ∅⟩).2 = r.answer q

theorem performs_addConsumer (S P : PeerRef) (v : Bool) (d : Router.SsrcDraw) :
    Performs .exclusive (.addConsumer S P v d) (addConsumerBody S P v (Router.allocateSsrc d)) where
  inside := inside_addConsumerBody S P v _
  links r := by rw [run_addConsumerBody]; rfl
  answer r := by rw [run_addConsumerBody]; rfl

theorem performs_removePeer (p : PeerRef) :
    Performs .exclusive (.removePeer p) (removePeerBody p) where
  inside := inside_removePeerBody p
  links r := by rw [run_removePeerBody]; rfl
  answer r := rfl

theorem performs_bindConsumerByMid (S : PeerRef) (publisherPeerId : String) (v : Bool)
    (mid : String) : Performs .exclusive (.bindConsumerByMid S publisherPeerId v mid)
      (bindConsumerByMidBody S publisherPeerId v mid) where
  inside := inside_bindConsumerByMidBody S publisherPeerId v mid
  links r := by rw [run_bindConsumerByMidBody]; rfl
  answer r := by rw [run_bindConsumerByMidBody]; rfl

theorem performs_findConsumerByOutSsrc (ssrc : UInt32) :
    Performs .shared (.findConsumerByOutSsrc ssrc)
      (look fun r => r.findConsumerByOutSsrc ssrc) where
  inside := inside_look fun _ => rfl
  links _ := rfl
  answer _ := rfl

theorem performs_getAllBoundSsrcs (S : PeerRef) :
    Performs .shared (.getAllBoundSsrcs S) (getAllBoundSsrcsBody S) where
  inside := inside_getAllBoundSsrcsBody S
  links r := by rw [run_getAllBoundSsrcsBody]; rfl
  answer r := by rw [run_getAllBoundSsrcsBody]; rfl

theorem performs_getAllVideoProducers :
    Performs .shared .getAllVideoProducers getAllVideoProducersBody where
  inside := inside_getAllVideoProducersBody
  links r := by rw [run_getAllVideoProducersBody]; rfl
  answer r := by rw [run_getAllVideoProducersBody]; rfl

theorem link_rewriteRtpHeader (buf : Bytes) (k : Consumer) :
    (Router.rewriteRtpHeader buf k).2.link = k.link := by
  unfold Router.rewriteRtpHeader
  split
  · rfl
  · dsimp only
    split <;> rfl

theorem links_forwardOne (o : SrtpOracle) (plainRtp : Bytes) (r : Router) (c : ConsumerRef) :
    (r.forwardOne o plainRtp c).1.links = r.links := by
  have hrewritten := Router.links_setConsumer (r := r) (c := c)
    (f := fun _ => (Router.rewriteRtpHeader plainRtp (r.heap c)).2)
    (link_rewriteRtpHeader plainRtp (r.heap c))
  unfold Router.forwardOne
  dsimp only
  split
  · rfl
  · split
    · rfl
    · split
      · rfl
      · split
        · rfl
        · split
          · exact hrewritten
          · exact (Router.links_setConsumer (by rfl)).trans hrewritten

theorem links_forward (o : SrtpOracle) (plainRtp : Bytes) (cs : List ConsumerRef) (r : Router) :
    (Router.forward o plainRtp cs r).1.links = r.links := by
  induction cs generalizing r with
  | nil => rfl
  | cons c cs ih => exact (ih _).trans (links_forwardOne o plainRtp r c)

theorem after_onRtpPacket {pts : Finset UInt8} {o : SrtpOracle} {plainRtp : Bytes} {P : PeerRef}
    {hdr : RtpHeader} (hparse : RtpHeader.parse plainRtp = some hdr) (r : Router) :
    (r.after (.onRtpPacket pts o plainRtp P)).links =
      (r.linkTargets o P hdr.ssrc (hdr.payloadType ∈ pts)).1.links := by
  change (r.onRtpPacket pts o plainRtp P).1.links = _
  unfold Router.onRtpPacket
  rw [hparse]
  exact links_forward o plainRtp _ _

theorem answer_onRtpPacket {pts : Finset UInt8} {o : SrtpOracle} {plainRtp : Bytes} {P : PeerRef}
    {hdr : RtpHeader} (hparse : RtpHeader.parse plainRtp = some hdr) (r : Router) :
    r.answer (.onRtpPacket pts o plainRtp P) =
      (r.linkTargets o P hdr.ssrc (hdr.payloadType ∈ pts)).2.1 := by
  change (RtpHeader.parse plainRtp).elim [] _ = _
  rw [hparse]
  rfl

theorem performs_onRtpPacket {pts : Finset UInt8} {o : SrtpOracle} {plainRtp : Bytes} {P : PeerRef}
    {hdr : RtpHeader} (hparse : RtpHeader.parse plainRtp = some hdr) :
    Performs .exclusive (.onRtpPacket pts o plainRtp P)
      (createTargets o P hdr.ssrc (hdr.payloadType ∈ pts)) where
  inside := inside_createTargets o P _ _
  links r := by
    rw [run_createTargets, after_onRtpPacket hparse]
    rfl
  answer r := by rw [run_createTargets, answer_onRtpPacket hparse]

/-- Every query is performed by a block that keeps the rules: what it finds and does depends on the
links alone. -/
theorem exists_performs (q : RouterQuery) : ∃ mode body, Performs mode q body := by
  cases q with
  | addConsumer S P v d => exact ⟨_, _, performs_addConsumer S P v d⟩
  | removePeer p => exact ⟨_, _, performs_removePeer p⟩
  | bindConsumerByMid S publisherPeerId v mid =>
    exact ⟨_, _, performs_bindConsumerByMid S publisherPeerId v mid⟩
  | onRtpPacket pts o plainRtp P =>
    cases hparse : RtpHeader.parse plainRtp with
    | some hdr => exact ⟨_, _, performs_onRtpPacket hparse⟩
    | none =>
      refine ⟨.shared, pure [], inside_pure _, fun r => ?_, fun r => ?_⟩
      · change r.links = (r.onRtpPacket pts o plainRtp P).1.links
        unfold Router.onRtpPacket
        rw [hparse]
      · change [] = (RtpHeader.parse plainRtp).elim [] _
        rw [hparse]
        rfl
  | findConsumerByOutSsrc ssrc => exact ⟨_, _, performs_findConsumerByOutSsrc ssrc⟩
  | getAllBoundSsrcs S => exact ⟨_, _, performs_getAllBoundSsrcs S⟩
  | getAllVideoProducers => exact ⟨_, _, performs_getAllVideoProducers⟩

theorem answer_links (r : Router) (q : RouterQuery) : r.links.answer q = r.answer q := by
  obtain ⟨mode, body, h⟩ := exists_performs q
  rw [← h.answer, ← h.answer]
  have hsame : RouterMemory.links ⟨r.links, [], ∅⟩ = RouterMemory.links ⟨r, [], ∅⟩ := r.links_links
  exact (h.inside.respects.run hsame).2

theorem after_links (r : Router) (q : RouterQuery) :
    (r.links.after q).links = (r.after q).links := by
  obtain ⟨mode, body, h⟩ := exists_performs q
  rw [← h.links, ← h.links]
  have hsame : RouterMemory.links ⟨r.links, [], ∅⟩ = RouterMemory.links ⟨r, [], ∅⟩ := r.links_links
  exact (h.inside.respects.run hsame).1

/-! ## Outside of the sections -/

/-- The rules for a program that asks the queries. -/
structure Outside (p : RouterProg α) (qs : List RouterQuery) : Prop where
  unseen : p.Unseen .router RouterMemory.links spec
  balanced : p.Balanced rank fun _ => False
  emits : p.Emits fun _ es => es.map Sigma.fst = qs

theorem Outside.bind {p : RouterProg α} {f : α → RouterProg β} {qs qs' : List RouterQuery}
    (h : Outside p qs) (hf : ∀ a, Outside (f a) qs') : Outside (p >>= f) (qs ++ qs') where
  unseen := Unseen.bind h.unseen fun a => (hf a).unseen
  balanced := h.balanced.bind fun a => (hf a).balanced
  emits := Emits.bind h.emits fun a es hes => (hf a).emits.mono fun _ es' hes' => by
    rw [List.map_append, hes, hes']

theorem Hides.outside {p : RouterProg α} (h : Hides p) : Outside p [] where
  unseen := h.hidden.unseen
  balanced := h.balanced _
  emits := h.silent.mono fun _ es hes => by rw [hes]; rfl

theorem outside_pure (a : α) : Outside (pure a) [] := (hides_pure a).outside

theorem outside_forEach {f : β → RouterProg Unit} {g : β → List RouterQuery}
    (h : ∀ x, Outside (f x) (g x)) (xs : List β) : Outside (forEach xs f) (xs.flatMap g) where
  unseen := unseen_forEach xs fun x => (h x).unseen
  balanced := balanced_forEach xs fun x => (h x).balanced
  emits := emits_forEach xs fun x => (h x).emits

/-- A section that performs its query is a step of the sequential object. -/
theorem outside_locked {q : RouterQuery} {body : RouterProg q.Result} (h : Performs mode q body) :
    Outside (locked mode body fun a => ⟨q, a⟩) [q] where
  unseen := by
    refine wp_critical h.inside.respects fun s => ?_
    obtain ⟨hlinks, hanswer⟩ := h.inside.respects.run
      (show RouterMemory.links s = RouterMemory.links ⟨s.router, [], ∅⟩ from rfl)
    refine ⟨fun e he => ?_, (fun hnone => by cases hnone), rfl⟩
    obtain rfl := Option.some.inj he
    refine ⟨?_, ?_⟩
    · exact hanswer.trans ((h.answer _).trans (answer_links _ _).symm)
    · exact (after_links _ _).trans ((h.links _).symm.trans hlinks.symm)
  balanced := balanced_critical (fun _ h => h.elim) h.inside.balanced _
  emits := (emits_critical h.inside.silent _ _ _).mono fun a es hes => by subst hes; rfl

/-- `allocateSsrc` keeps its lock for the draw. -/
theorem outside_allocateSsrc {a : α} {f : α → RouterProg β} {qs : List RouterQuery}
    (h : Outside (f a) qs) : Outside (withLock .ssrcGen .exclusive (pure a) >>= f) qs where
  unseen := (wp_lock_ne (by decide)).2 ⟨by decide, h.unseen⟩
  balanced := by
    have hnone : (fun m : RouterLock => m ≠ .ssrcGen ∧ (m = .ssrcGen ∨ False)) = fun _ => False :=
      funext fun m => propext ⟨fun h => h.2.elim h.1 id, False.elim⟩
    refine ⟨fun _ h => h.elim, .inl rfl, ?_⟩
    rw [hnone]
    exact h.balanced
  emits := h.emits

theorem outside_addConsumer (S P : PeerRef) (v : Bool) (d : Router.SsrcDraw) :
    Outside (addConsumer S P v d) [.addConsumer S P v d] :=
  outside_allocateSsrc <| (outside_locked (performs_addConsumer S P v d)).bind fun raw =>
    ((hides_read raw _).bind fun _ => hides_read raw _).outside

/-- The fast path is a step of the sequential object when it answers. -/
theorem outside_linkTargets (pts : Finset UInt8) (o : SrtpOracle) {plainRtp : Bytes} (P : PeerRef)
    {hdr : RtpHeader} (hparse : RtpHeader.parse plainRtp = some hdr) :
    Outside (linkTargets pts o plainRtp P hdr) [.onRtpPacket pts o plainRtp P] := by
  have hslow : Outside (locked .exclusive (createTargets o P hdr.ssrc (hdr.payloadType ∈ pts))
      fun targets => ⟨.onRtpPacket pts o plainRtp P, targets⟩) [.onRtpPacket pts o plainRtp P] :=
    outside_locked (performs_onRtpPacket hparse)
  have hlook : Inside .shared (look fun r => r.lookupTargets P hdr.ssrc) :=
    inside_look fun _ => rfl
  refine ⟨Unseen.bind (wp_critical hlook.respects fun s => ⟨fun e he => ?_, fun _ => rfl, rfl⟩)
    fun found => ?_, (balanced_critical (fun _ h => h.elim) hlook.balanced _).bind fun found => ?_,
    Emits.bind (emits_critical hlook.silent _ _ _) fun found es hes => ?_⟩
  · obtain ⟨targets, hfound, rfl⟩ := Option.mem_map.1 he
    have hknown : s.router.linkTargets o P hdr.ssrc (hdr.payloadType ∈ pts) =
        (s.router, targets, []) := by
      unfold Router.linkTargets
      rw [show s.router.lookupTargets P hdr.ssrc = some targets from hfound]
    refine ⟨?_, ?_⟩
    · exact ((answer_links _ _).trans ((answer_onRtpPacket hparse _).trans
        (congrArg (fun x => x.2.1) hknown))).symm
    · exact (after_links _ _).trans ((after_onRtpPacket hparse _).trans
        (congrArg (fun x => x.1.links) hknown))
  · cases found with
    | none => exact hslow.unseen
    | some targets => exact (hidden_ret _).unseen
  · cases found with
    | none => exact hslow.balanced
    | some targets => exact balanced_ret _
  · subst hes
    cases found with
    | none => exact hslow.emits
    | some targets => exact rfl

theorem outside_onRtpPacket (pts : Finset UInt8) (o : SrtpOracle) (plainRtp : Bytes) (P : PeerRef) :
    Outside (onRtpPacket pts o plainRtp P)
      (if (RtpHeader.parse plainRtp).isSome then [.onRtpPacket pts o plainRtp P] else []) := by
  unfold onRtpPacket
  cases hparse : RtpHeader.parse plainRtp with
  | none => exact outside_pure _
  | some hdr =>
    refine (outside_linkTargets pts o P hparse).bind fun targets => ?_
    exact (hides_forEach (hides_forwardOne o plainRtp) targets).outside

theorem outside_translate (o : SrtpOracle) (i : Nat) (q : Router.Request) :
    Outside (translate o i q) [.findConsumerByOutSsrc q.outSsrc] := by
  refine (outside_locked (performs_findConsumerByOutSsrc q.outSsrc)).bind fun found =>
    Hides.outside ?_
  cases found with
  | none => exact hides_pure _
  | some c =>
    refine (hides_read c _).bind fun published => ?_
    cases published with
    | false => exact hides_pure _
    | true =>
      refine (hides_read c _).bind fun publisher => ?_
      cases publisher with
      | none => exact hides_crash
      | some P =>
        refine (hides_look _).bind fun keyed => ?_
        cases keyed with
        | false => exact hides_pure _
        | true =>
          refine (hides_read c _).bind fun publisher =>
            (hides_collect c q.reading).bind fun plain => ?_
          cases publisher with
          | none => exact hides_crash
          | some P' => exact hides_sendRtcp P' o i plain

/-- Every call keeps the rules. -/
theorem outside_prog (call : RouterCall) : Outside call.prog call.queries := by
  cases call with
  | addConsumer S P v d => exact (outside_addConsumer S P v d).bind fun _ => outside_pure _
  | removePeer p => exact outside_locked (performs_removePeer p)
  | bindConsumerByMid S publisherPeerId v mid =>
    exact (outside_locked (performs_bindConsumerByMid S publisherPeerId v mid)).bind fun _ =>
      outside_pure _
  | getAllBoundSsrcs S =>
    exact (outside_locked (performs_getAllBoundSsrcs S)).bind fun _ => outside_pure _
  | getAllVideoProducers =>
    exact (outside_locked performs_getAllVideoProducers).bind fun _ => outside_pure _
  | onRtpPacket pts o plainRtp P => exact outside_onRtpPacket pts o plainRtp P
  | onRtcpPacket o rtcp =>
    have hloop := outside_forEach (fun x : Nat × Router.Request => outside_translate o x.1 x.2)
      (Router.requests rtcp)
    rwa [← List.map_eq_flatMap] at hloop
  | setTransport p remoteEp dtls srtp => exact (hides_setTransport p remoteEp dtls srtp).outside

/-! ## Runs -/

/-- A run of the links is one of the router. -/
theorem sequential_links {r t : Router} (ht : t = r.links) (events : List RouterEvent) :
    (Meets spec.apply spec.legal t events ↔
      Meets Router.sequential.apply Router.sequential.legal r events) ∧
      exec spec.apply t events = (exec Router.sequential.apply r events).links := by
  subst ht
  induction events generalizing r with
  | nil => exact ⟨Iff.rfl, rfl⟩
  | cons e events ih =>
    have hstep : spec.apply r.links e = (Router.sequential.apply r e).links := after_links r e.1
    obtain ⟨hmeets, hexec⟩ := ih (r := Router.sequential.apply r e)
    rw [Runs.meets_cons, Runs.meets_cons, Runs.exec_cons, Runs.exec_cons, hstep, hmeets, hexec]
    exact ⟨and_congr_left' (by
      change e.2 = r.links.answer e.1 ↔ e.2 = r.answer e.1
      rw [answer_links]), rfl⟩

end RouterProg

namespace RouterCall

open RouterProg

variable {ι : Type} (r : Router) (gone : Finset ConsumerRef) (calls : ι → List RouterCall)

theorem outside_pool (i : ι) :
    Outside ((pool r gone calls).prog i) ((calls i).flatMap queries) :=
  outside_forEach outside_prog (calls i)

theorem ordered_pool : (pool r gone calls).Ordered rank := fun i => by
  have hnone : (fun m => ∃ mode, (i, mode) ∈ (pool r gone calls).held m) = fun _ => False :=
    funext fun m => propext ⟨(fun ⟨_, h⟩ => by cases h), False.elim⟩
  rw [hnone]
  exact Ordered.mono (outside_pool r gone calls i).balanced
    fun held hheld m => by subst hheld; exact id

variable [DecidableEq ι] (sched : List ι)

theorem sections_run :
    let c := exec Pool.step (pool r gone calls) sched
    Meets Router.sequential.apply Router.sequential.legal r (c.notes.map Prod.snd) ∧
      ((∀ i, (i, .exclusive) ∉ c.held .router) → c.shared.router.links =
        (exec Router.sequential.apply r (c.notes.map Prod.snd)).links) := by
  intro c
  obtain ⟨hlegal, hlinks⟩ := atomic_exec (c := pool r gone calls) rfl rfl
    (fun i => (outside_pool r gone calls i).unseen) sched
  obtain ⟨hmeets, hexec⟩ := sequential_links (r := r) rfl (c.notes.map Prod.snd)
  exact ⟨hmeets.1 hlegal, fun hfree => (hlinks hfree).trans hexec⟩

/-- A thread has asked the queries of its calls up to some point. -/
theorem noted_so_far (i : ι) :
    ((exec Pool.step (pool r gone calls) sched).noted i).map Sigma.fst <+:
      (calls i).flatMap queries := by
  have : Nonempty RouterMemory := ⟨⟨r, [], gone⟩⟩
  obtain ⟨_, es, hes⟩ := (Pool.emits_exec (c := pool r gone calls)
    (P := fun i es => es.map Sigma.fst = (calls i).flatMap queries) rfl
    (fun i => (outside_pool r gone calls i).emits) sched i).exists
  rw [List.map_append] at hes
  exact ⟨es.map Sigma.fst, hes⟩

theorem noted_finished {i : ι} (hi : (exec Pool.step (pool r gone calls) sched).Finished i) :
    ((exec Pool.step (pool r gone calls) sched).noted i).map Sigma.fst =
      (calls i).flatMap queries := by
  have hnotes := Pool.emits_exec (c := pool r gone calls)
    (P := fun i es => es.map Sigma.fst = (calls i).flatMap queries) rfl
    (fun i => (outside_pool r gone calls i).emits) sched i
  rw [show (exec Pool.step (pool r gone calls) sched).prog i = .ret () from hi] at hnotes
  exact (congrArg _ (List.append_nil _).symm).trans hnotes

/-- **The sections of the router are atomic.** Threads make calls, and their steps interleave in any
way, up to an access to a destroyed consumer or through a null pointer, with which the run ends.
What the sections find is what they find in a run of one after the other, in which each thread asks
what its calls ask, in their order; and while nobody writes, that run has made the links that the
threads have made. -/
theorem calls_atomic (r : Router) (gone : Finset ConsumerRef) (calls : ι → List RouterCall)
    (sched : List ι) :
    let c := exec Pool.step (pool r gone calls) sched
    let events := c.notes.map Prod.snd
    Meets Router.sequential.apply Router.sequential.legal r events ∧
      (∀ i, (c.noted i).map Sigma.fst <+: (calls i).flatMap queries ∧
        (c.Finished i → (c.noted i).map Sigma.fst = (calls i).flatMap queries)) ∧
      ((∀ i, (i, .exclusive) ∉ c.held .router) →
        c.shared.router.links = (exec Router.sequential.apply r events).links) :=
  ⟨(sections_run r gone calls sched).1,
    fun i => ⟨noted_so_far r gone calls sched i, noted_finished r gone calls sched⟩,
    (sections_run r gone calls sched).2⟩

/-! ## The link invariant -/

theorem noZeroPacket_noted {calls : ι → List RouterCall}
    (hcalls : ∀ i, ∀ call ∈ calls i, ∀ q ∈ call.queries, ∀ op ∈ q.op, op.NoZeroPacket) :
    ∀ e ∈ (exec Pool.step (pool r gone calls) sched).notes.map Prod.snd, ∀ op ∈ e.1.op,
      op.NoZeroPacket := by
  intro e he
  obtain ⟨⟨i, e⟩, hmem, rfl⟩ := List.mem_map.1 he
  have hnoted : e.1 ∈ ((exec Pool.step (pool r gone calls) sched).noted i).map Sigma.fst :=
    List.mem_map_of_mem (List.mem_map.2 ⟨(i, e), List.mem_filter.2 ⟨hmem, decide_eq_true rfl⟩, rfl⟩)
  obtain ⟨call, hcall, hq⟩ := List.mem_flatMap.1 ((noted_so_far r gone calls sched i).mem hnoted)
  exact hcalls i call hcall e.1 hq

/-- **The link invariant holds among threads**: while nobody writes, whatever has been done. -/
theorem link_invariant_threads (ids : PeerRef → String) (calls : ι → List RouterCall)
    (sched : List ι)
    (hcalls : ∀ i, ∀ call ∈ calls i, ∀ q ∈ call.queries, ∀ op ∈ q.op, op.NoZeroPacket)
    (hfree : ∀ i, (i, .exclusive) ∉
      (exec Pool.step (pool (Router.start ids) ∅ calls) sched).held .router) :
    (exec Pool.step (pool (Router.start ids) ∅ calls) sched).shared.router.LinkInvariant := by
  have hstep : ∀ (r : Router) (e : RouterEvent), r.Linked → (∀ op ∈ e.1.op, op.NoZeroPacket) →
      (Router.sequential.apply r e).Linked := fun r e hr he => by
    change (e.1.op.elim r r.step).Linked
    cases hop : e.1.op with
    | none => exact hr
    | some op => exact hr.step (he op hop)
  have hlinked := Runs.exec_inv (I := Router.Linked)
    (G := fun _ (e : RouterEvent) => ∀ op ∈ e.1.op, op.NoZeroPacket) hstep (Router.linked_start ids)
    (Runs.meets_of_forall (noZeroPacket_noted (Router.start ids) ∅ sched hcalls))
  exact Router.LinkInvariant.of_links hlinked.linkInvariant
    ((sections_run (Router.start ids) ∅ calls sched).2 hfree)

/-- Peer 1 subscribes to the audio of 2, which sends a packet, while 2 leaves. -/
def crossCalls : Bool → List RouterCall
  | true =>
    [.addConsumer 1 2 false default,
      .onRtpPacket ∅ ⟨fun _ _ b => some b, fun _ _ b => some b⟩
        [0x80, 111, 0, 1, 0, 0, 0, 0, 0, 0, 0, 7] 2]
  | false => [.removePeer 2]

theorem link_invariant_threads_cross : (exec Pool.step (pool (Router.start toString) ∅ crossCalls)
    (upTo (· % 2 == 0) 94)).shared.router.LinkInvariant :=
  link_invariant_threads toString crossCalls _ (by decide) (by decide +kernel)

/-! ## No thread waits for ever -/

/-- **All calls return** in a schedule in which each thread has turns again and again, if the run
does not end at an access to a destroyed consumer or through a null pointer. Then no lock is held,
each thread has asked what its calls ask, and the links are those of a run of one section after the
other. -/
theorem calls_return [Finite ι] (r : Router) (gone : Finset ConsumerRef)
    (calls : ι → List RouterCall) (sched : ℕ → ι) (hfair : ∀ i n, ∃ k, n ≤ k ∧ sched k = i) :
    ∃ n, let c := exec Pool.step (pool r gone calls) (upTo sched n)
      c.crashed = true ∨
        (∀ i, c.Finished i ∧ (c.noted i).map Sigma.fst = (calls i).flatMap queries) ∧
          (∀ m, c.held m = []) ∧ c.shared.router.links =
            (exec Router.sequential.apply r (c.notes.map Prod.snd)).links := by
  obtain ⟨n, hcrashed | hn⟩ := Pool.all_finish (ordered_pool r gone calls) sched hfair
  · exact ⟨n, .inl hcrashed⟩
  have hordered := Runs.exec_inv' (I := Pool.Ordered rank) (fun _ i h => h.step i) (upTo sched n)
    (ordered_pool r gone calls)
  have hheld : ∀ i m mode,
      (i, mode) ∉ (exec Pool.step (pool r gone calls) (upTo sched n)).held m :=
    fun i m mode hmem => by
      have hi := hordered i
      rw [show (exec Pool.step (pool r gone calls) (upTo sched n)).prog i = .ret () from hn i] at hi
      exact hi m ⟨mode, hmem⟩
  exact ⟨n, .inr ⟨fun i => ⟨hn i, noted_finished r gone calls (upTo sched n) (hn i)⟩,
    fun m => List.eq_nil_iff_forall_not_mem.2 fun x => hheld x.1 m x.2,
    (sections_run r gone calls (upTo sched n)).2 fun i => hheld i _ _⟩⟩

theorem calls_return_cross :
    ∃ n, let c := exec Pool.step (pool (Router.start toString) ∅ crossCalls) (upTo (· % 2 == 0) n)
      c.crashed = true ∨
        (∀ i, c.Finished i ∧ (c.noted i).map Sigma.fst = (crossCalls i).flatMap queries) ∧
          (∀ m, c.held m = []) ∧ c.shared.router.links = (exec Router.sequential.apply
            (Router.start toString) (c.notes.map Prod.snd)).links :=
  calls_return (Router.start toString) ∅ crossCalls (· % 2 == 0) fun i n =>
    match i with
    | true => ⟨2 * n, by omega, by simp⟩
    | false => ⟨2 * n + 1, by omega, by simp⟩

end RouterCall

end Namecon
