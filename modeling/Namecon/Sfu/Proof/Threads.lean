import Mathlib.Data.Finset.Lattice.Lemmas
import Namecon.Sfu.Threads
import Namecon.Sfu.Proof.Exact
import Namecon.Sfu.Proof.RemovePeer

/-!
# The programs on their own

On its own, each program of `Sfu/Threads.lean` does what the function of the router does:
`run_prog`.
-/

namespace Namecon

open Function (update)
open ListFacts (updateFirst)
open Locks Locks.Prog

namespace RouterProg

variable {α β : Type} (r : Router) (sent : List Datagram) (gone : Finset ConsumerRef)

@[simp] theorem run_seq (p : RouterProg α) (f : α → RouterProg β) (s : RouterMemory) :
    (p >>= f).run s = (f (p.run s).2).run (p.run s).1 := run_bind p f s

@[simp] theorem run_pure (a : α) (s : RouterMemory) : (pure a : RouterProg α).run s = (s, a) := rfl

@[simp] theorem run_look (f : Router → α) (s : RouterMemory) :
    (look f).run s = (s, f s.router) := rfl

@[simp] theorem run_lookAt (c : ConsumerRef) (f : Router → α) (s : RouterMemory) :
    (lookAt c f).run s = (s, f s.router) := rfl

@[simp] theorem run_read (c : ConsumerRef) (f : Consumer → α) (s : RouterMemory) :
    (read c f).run s = (s, f (s.router.heap c)) := rfl

@[simp] theorem run_modify (f : Router → Router) (s : RouterMemory) :
    (modify f).run s = (⟨f s.router, s.sent, s.destroyed⟩, ()) := rfl

@[simp] theorem run_consumer (c : ConsumerRef) (f : Consumer → Consumer) (s : RouterMemory) :
    (consumer c f).run s = (⟨s.router.modifyConsumer c f, s.sent, s.destroyed⟩, ()) := rfl

@[simp] theorem run_peer (p : PeerRef) (f : Peer → Peer) (s : RouterMemory) :
    (peer p f).run s = (⟨s.router.modifyPeer p f, s.sent, s.destroyed⟩, ()) := rfl

@[simp] theorem run_sendTo (f : Router → List Datagram) (s : RouterMemory) :
    (sendTo f).run s = (⟨s.router, s.sent ++ f s.router, s.destroyed⟩, ()) := rfl

@[simp] theorem run_locked (mode : Mode) (body : RouterProg α) (event : α → RouterEvent)
    (s : RouterMemory) : (locked mode body event).run s = body.run s := run_critical _ _ _ _ _

/-! ## `addConsumer` -/

@[simp] theorem run_registerPeer (p : PeerRef) :
    (registerPeer p).run ⟨r, sent, gone⟩ = (⟨r.registerPeer p, sent, gone⟩, ()) := by
  unfold registerPeer Router.registerPeer
  rw [run_seq, run_look]
  dsimp only
  split <;> rfl

theorem run_newConsumer (k : Consumer) : (newConsumer k).run ⟨r, sent, gone⟩ =
    (⟨r.allocate k, sent, gone⟩, r.nextConsumer) := rfl

theorem run_linkNew (P : PeerRef) (raw : ConsumerRef) (v : Bool) :
    (linkNew P raw v).run ⟨r, sent, gone⟩ = (⟨r.linkNew P raw v, sent, gone⟩, ()) := by
  unfold linkNew Router.linkNew
  rw [run_seq, run_look]
  dsimp only
  cases (r.peers P).producers.find? (Router.linksTo v) <;> rfl

theorem run_addConsumerBody (S P : PeerRef) (v : Bool) (d : Router.SsrcDraw) :
    (addConsumerBody S P v (Router.allocateSsrc d)).run ⟨r, sent, gone⟩ =
      (⟨(r.addConsumer S P v d).1, sent, gone⟩, r.nextConsumer) := by
  unfold addConsumerBody
  rw [run_seq, run_newConsumer, run_seq, run_registerPeer, run_seq, run_registerPeer, run_seq,
    run_modify, run_seq, run_linkNew]
  rfl

theorem run_addConsumer (S P : PeerRef) (v : Bool) (d : Router.SsrcDraw) :
    (addConsumer S P v d).run ⟨r, sent, gone⟩ =
      (⟨(r.addConsumer S P v d).1, sent, gone⟩, (r.addConsumer S P v d).2) := by
  have hssrc : ((r.addConsumer S P v d).1.heap r.nextConsumer).rewrittenSsrc =
      (r.addConsumer S P v d).2 := by
    rw [Router.addConsumer_heap_new]
    rfl
  unfold addConsumer
  rw [run_seq, run_withLock, run_pure, run_seq, run_locked, run_addConsumerBody, run_seq, run_read,
    run_read]
  exact Prod.ext rfl hssrc

/-! ## `removePeer` -/

theorem run_eraseOut (c : ConsumerRef) : (eraseOut c).run ⟨r, sent, gone⟩ =
    (⟨{ r with outSsrcToConsumer := update r.outSsrcToConsumer (r.heap c).rewrittenSsrc none },
      sent, gone⟩, ()) := rfl

theorem run_retire (c : ConsumerRef) :
    (retire c).run ⟨r, sent, gone⟩ = (⟨r.retire c, sent, gone⟩, ()) := by
  unfold retire Router.retire
  rw [run_seq, run_consumer, run_seq, run_consumer, run_eraseOut]
  simp [Router.modifyConsumer]

theorem run_unlink (c : ConsumerRef) :
    (unlink c).run ⟨r, sent, gone⟩ = (⟨r.unlink c, sent, gone⟩, ()) := by
  unfold unlink Router.unlink
  rw [run_seq, run_read]
  dsimp only
  cases (r.heap c).publisher with
  | none => rfl
  | some P =>
    dsimp only
    rw [run_seq, run_read, run_seq, run_look]
    dsimp only
    split
    · rfl
    · rename_i hnone
      have hsame := ListFacts.updateFirst_of_none (f := Router.eraseConsumer c)
        (Option.not_isSome_iff_eq_none.1 hnone)
      simp [Router.modifyPeer, hsame]

theorem run_unsubscribe (c : ConsumerRef) :
    (unsubscribe c).run ⟨r, sent, gone⟩ = (⟨r.unsubscribe c, sent, gone⟩, ()) := by
  unfold unsubscribe Router.unsubscribe
  have hout : (r.unlink c).outSsrcToConsumer = r.outSsrcToConsumer := by
    unfold Router.unlink
    split <;> rfl
  rw [run_seq, run_unlink, run_eraseOut]
  simp [hout, Router.unlink_heap]

/-- A loop whose rounds are operations of the router. -/
theorem run_each {f : β → RouterProg Unit} {g : Router → β → Router}
    (h : ∀ r sent gone x, (f x).run ⟨r, sent, gone⟩ = (⟨g r x, sent, gone⟩, ())) (xs : List β) :
    (forEach xs f).run ⟨r, sent, gone⟩ = (⟨xs.foldl g r, sent, gone⟩, ()) := by
  unfold forEach
  induction xs generalizing r with
  | nil => rfl
  | cons x xs ih => rw [run_fold_cons, h, ih, List.foldl_cons]

theorem run_clearConsumers (p : PeerRef) (s : RouterMemory) : (clearConsumers p).run s =
    (⟨s.router.modifyPeer p fun x => { x with consumers := [] }, s.sent,
      s.destroyed ∪ (s.router.peers p).consumers.toFinset⟩, ()) := rfl

theorem run_removePeerBody (p : PeerRef) : (removePeerBody p).run ⟨r, sent, gone⟩ =
    (⟨r.removePeer p, sent, gone ∪ (r.peers p).consumers.toFinset⟩, ()) := by
  unfold removePeerBody
  have hretire : ∀ r sent gone (x : Producer), (forEach x.consumers retire).run ⟨r, sent, gone⟩ =
      (⟨x.consumers.foldl Router.retire r, sent, gone⟩, ()) :=
    fun r sent gone x => run_each r sent gone run_retire x.consumers
  rw [run_seq, run_look, run_seq, run_each r sent gone hretire, ← List.foldl_flatMap, run_seq,
    run_peer, run_seq, run_look, run_seq, run_each _ _ _ run_unsubscribe, run_seq,
    run_clearConsumers, run_seq, run_modify, run_withLock, run_modify]
  have hgone : ((r.afterUnsubscribe p).peers p).consumers = (r.peers p).consumers :=
    Router.afterUnsubscribe_consumers
  rw [← hgone]
  rfl

theorem run_removePeer (p : PeerRef) :
    (removePeer p).run ⟨r, sent, gone⟩ =
      (⟨r.removePeer p, sent, gone ∪ (r.peers p).consumers.toFinset⟩, ()) :=
  (run_locked _ _ _ _).trans (run_removePeerBody r sent gone p)

/-! ## `onRtpPacket` -/

theorem run_sendRtcp {P : PeerRef} {ctx : SrtpContext} (hctx : (r.peers P).srtp = some ctx)
    (o : SrtpOracle) (i : Nat) (plain : Bytes) : (sendRtcp P o i plain).run ⟨r, sent, gone⟩ =
      (⟨r, sent ++ (r.peers P).sendRtcp o i plain, gone⟩, ()) := by
  unfold sendRtcp Peer.sendRtcp
  rw [run_seq, run_look]
  dsimp only
  rw [hctx]
  dsimp only
  cases o.protectRtcp i ctx plain with
  | none => simp
  | some data => rfl

theorem run_requestPli (o : SrtpOracle) (P : PeerRef) (ssrc : UInt32) (v : Bool) :
    (requestPli o P ssrc v).run ⟨r, sent, gone⟩ =
      (⟨r, sent ++ if v then (r.peers P).sendRtcp o 0 (pliPacket ssrc) else [], gone⟩, ()) := by
  unfold requestPli
  cases v with
  | false => simp
  | true =>
    rw [if_pos rfl, if_pos rfl, run_seq, run_look]
    dsimp only
    cases hctx : (r.peers P).srtp with
    | none => simp [Peer.sendRtcp, hctx]
    | some ctx =>
      rw [Option.isSome_some, if_pos rfl]
      exact run_sendRtcp r sent gone hctx o 0 _

section
variable (o : SrtpOracle) (P : PeerRef) (ssrc : UInt32) (v : Bool)

/-- The router while the new producer of `P` has the consumers `l`. -/
def withProducer (r : Router) (l : List ConsumerRef) : Router :=
  r.modifyPeer P fun x => { x with
    producers := x.producers ++
      [{ publisher := P, originalSsrc := ssrc, isVideo := v, consumers := l }] }

variable {r P ssrc v}

theorem updateFirst_new (hnew : r.findProducer P ssrc = none) (l : List ConsumerRef)
    (c : ConsumerRef) :
    updateFirst (·.originalSsrc == ssrc) (Router.pushConsumer c) ((r.peers P).producers ++
      [{ publisher := P, originalSsrc := ssrc, isVideo := v, consumers := l }]) =
    (r.peers P).producers ++
      [{ publisher := P, originalSsrc := ssrc, isVideo := v, consumers := l ++ [c] }] := by
  unfold Router.findProducer at hnew
  generalize (r.peers P).producers = ps at hnew ⊢
  induction ps with
  | nil => exact ListFacts.updateFirst_cons_of_pos (by simp)
  | cons p ps ih =>
    rw [List.find?_cons] at hnew
    cases hp : p.originalSsrc == ssrc with
    | true => rw [hp] at hnew; cases hnew
    | false =>
      rw [hp] at hnew
      rw [List.cons_append, ListFacts.updateFirst_cons_of_neg (by simpa using hp), ih hnew]
      rfl

theorem run_linkWaiting (hnew : r.findProducer P ssrc = none) (l : List ConsumerRef)
    (c : ConsumerRef) :
    (linkWaiting P ssrc v c).run ⟨withProducer P ssrc v r l, sent, gone⟩ =
      (⟨withProducer P ssrc v (Router.linkWaiting P ssrc v [c] r).1
        (l ++ (Router.linkWaiting P ssrc v [c] r).2), sent, gone⟩, ()) := by
  unfold linkWaiting Router.linkWaiting
  rw [run_seq, run_read]
  change (if decide (Router.Waits P v (r.heap c)) = true then _ else _ : RouterProg Unit).run _ = _
  by_cases hwaits : Router.Waits P v (r.heap c)
  · rw [if_pos (decide_eq_true hwaits), if_pos hwaits, run_seq, run_consumer, run_peer]
    have hupdate := updateFirst_new (v := v) hnew l c
    simp [withProducer, Router.modifyPeer, Router.modifyConsumer, Router.linkWaiting, hupdate]
  · rw [if_neg (by simpa using hwaits), if_neg hwaits]
    simp [Router.linkWaiting]

theorem linkWaiting_append (l l' : List ConsumerRef) (r : Router) :
    Router.linkWaiting P ssrc v (l ++ l') r =
      ((Router.linkWaiting P ssrc v l' (Router.linkWaiting P ssrc v l r).1).1,
        (Router.linkWaiting P ssrc v l r).2 ++
          (Router.linkWaiting P ssrc v l' (Router.linkWaiting P ssrc v l r).1).2) := by
  induction l generalizing r with
  | nil => rfl
  | cons c l ih =>
    by_cases hwaits : Router.Waits P v (r.heap c) <;>
      simp [Router.linkWaiting, hwaits, ih]

theorem findProducer_linkWaiting (hnew : r.findProducer P ssrc = none) (cs : List ConsumerRef) :
    (Router.linkWaiting P ssrc v cs r).1.findProducer P ssrc = none := by
  unfold Router.findProducer
  rw [(Router.linkWaiting_rest cs r).1]
  exact hnew

theorem run_linkAll (hnew : r.findProducer P ssrc = none) (l cs : List ConsumerRef) :
    (forEach cs (linkWaiting P ssrc v)).run ⟨withProducer P ssrc v r l, sent, gone⟩ =
      (⟨withProducer P ssrc v (Router.linkWaiting P ssrc v cs r).1
        (l ++ (Router.linkWaiting P ssrc v cs r).2), sent, gone⟩, ()) := by
  unfold forEach
  induction cs generalizing r l with
  | nil => simp [Router.linkWaiting]
  | cons c cs ih =>
    rw [run_fold_cons, run_linkWaiting sent gone hnew, ih (findProducer_linkWaiting hnew [c]),
      show c :: cs = [c] ++ cs from rfl, linkWaiting_append, List.append_assoc]

theorem run_linkPeers (hnew : r.findProducer P ssrc = none) (l : List ConsumerRef)
    (qs : List PeerRef) :
    (forEach qs fun sub => do
      let consumers ← look fun r => (r.peers sub).consumers
      forEach consumers (linkWaiting P ssrc v)).run ⟨withProducer P ssrc v r l, sent, gone⟩ =
    (⟨withProducer P ssrc v
        (Router.linkWaiting P ssrc v (qs.flatMap fun sub => (r.peers sub).consumers) r).1
      (l ++ (Router.linkWaiting P ssrc v (qs.flatMap fun sub => (r.peers sub).consumers) r).2),
      sent, gone⟩, ()) := by
  unfold forEach
  induction qs generalizing r l with
  | nil => simp [Router.linkWaiting]
  | cons q qs ih =>
    have hconsumers : ((withProducer P ssrc v r l).peers q).consumers = (r.peers q).consumers := by
      unfold withProducer
      by_cases hq : q = P
      · subst hq; rw [Router.modifyPeer_self]
      · rw [Router.modifyPeer_ne _ _ _ hq]
    have hpeers := (Router.linkWaiting_rest (P := P) (s := ssrc) (v := v) (r.peers q).consumers r).1
    rw [run_fold_cons, run_seq, run_look]
    dsimp only
    have hall := run_linkAll (v := v) sent gone hnew l (r.peers q).consumers
    unfold forEach at hall
    rw [hconsumers, hall, ih (findProducer_linkWaiting hnew _), hpeers, List.flatMap_cons,
      linkWaiting_append, List.append_assoc]

theorem run_createProducer (hnew : r.findProducer P ssrc = none) :
    (createProducer o P ssrc v).run ⟨r, sent, gone⟩ =
      (⟨(r.createProducer o P ssrc v).1, sent ++ (r.createProducer o P ssrc v).2.2, gone⟩,
        (r.createProducer o P ssrc v).2.1.consumers) := by
  let bound : Router := { r with table := update r.table ssrc (some P) }
  have hbound : bound.findProducer P ssrc = none := hnew
  have hlinked := run_linkPeers (v := v)
    (sent ++ if v then (r.peers P).sendRtcp o 0 (pliPacket ssrc) else []) gone hbound []
    bound.allPeers
  rw [List.nil_append] at hlinked
  have hfound : (withProducer P ssrc v (Router.linkWaiting P ssrc v r.allConsumers bound).1
      (Router.linkWaiting P ssrc v r.allConsumers bound).2).findProducer P ssrc =
        some ⟨P, ssrc, v, (Router.linkWaiting P ssrc v r.allConsumers bound).2⟩ := by
    have hlast := findProducer_linkWaiting (v := v) hbound r.allConsumers
    unfold Router.findProducer at hlast ⊢
    unfold withProducer
    rw [Router.modifyPeer_self, List.find?_append, hlast]
    simp
  have hpli : ((withProducer P ssrc v bound []).peers P).sendRtcp o 0 (pliPacket ssrc) =
      (r.peers P).sendRtcp o 0 (pliPacket ssrc) := by
    unfold withProducer
    rw [Router.modifyPeer_self]
    rfl
  unfold createProducer
  rw [run_seq, run_peer, run_seq, run_withLock, run_modify]
  change Prog.run _ (RouterMemory.mk (withProducer P ssrc v bound []) sent gone) = _
  rw [run_seq, run_requestPli, hpli, run_seq, run_look, run_seq]
  change Prog.run _ (Prog.run (forEach bound.allPeers _) _).1 = _
  rw [hlinked, run_look]
  exact Prod.ext rfl (congrArg (fun p : Option Producer => (p.map (·.consumers)).getD []) hfound)

theorem run_createTargets (r : Router) :
    (createTargets o P ssrc v).run ⟨r, sent, gone⟩ =
      (⟨(r.linkTargets o P ssrc v).1, sent ++ (r.linkTargets o P ssrc v).2.2, gone⟩,
        (r.linkTargets o P ssrc v).2.1) := by
  unfold createTargets Router.linkTargets Router.lookupTargets Router.createTargets
    Router.findOrCreateProducer
  rw [run_seq, run_look]
  dsimp only
  cases hfound : r.findProducer P ssrc with
  | some p => simp
  | none => exact run_createProducer sent gone o hfound

end

/-! ## The other sections -/

theorem run_bindConsumerByMidBody (S : PeerRef) (publisherPeerId : String) (v : Bool)
    (mid : String) : (bindConsumerByMidBody S publisherPeerId v mid).run ⟨r, sent, gone⟩ =
      (⟨(r.bindConsumerByMid S publisherPeerId v mid).1, sent, gone⟩,
        (r.bindConsumerByMid S publisherPeerId v mid).2) := by
  unfold bindConsumerByMidBody Router.bindConsumerByMid
  rw [run_seq, run_look, run_seq, run_find _ (fun c => r.bindsTo publisherPeerId v (r.heap c)) _ _
    fun _ => rfl]
  dsimp only
  cases (r.peers S).consumers.find? fun c => r.bindsTo publisherPeerId v (r.heap c) with
  | none => rfl
  | some c =>
    dsimp only
    rw [run_seq, run_consumer, run_read]
    simp

theorem run_getAllBoundSsrcsBody (S : PeerRef) :
    (getAllBoundSsrcsBody S).run ⟨r, sent, gone⟩ = (⟨r, sent, gone⟩, r.getAllBoundSsrcs S) := by
  unfold getAllBoundSsrcsBody Router.getAllBoundSsrcs
  rw [run_seq, run_look]
  refine run_fold _ _ _ _ _ fun result c => ?_
  rw [run_seq, run_read]
  dsimp only
  split <;> rfl

theorem run_getAllVideoProducersBody :
    getAllVideoProducersBody.run ⟨r, sent, gone⟩ = (⟨r, sent, gone⟩, r.getAllVideoProducers) := by
  unfold getAllVideoProducersBody Router.getAllVideoProducers
  rw [run_seq, run_look, List.flatMap_eq_foldl]
  exact run_fold _ _ _ _ _ fun _ _ => rfl

/-! ## Forwarding -/

theorem modifyConsumer_id (c : ConsumerRef) : r.modifyConsumer c (fun _ => r.heap c) = r := by
  simp [Router.modifyConsumer]

theorem run_rewriteRtpHeader (buf : Bytes) (c : ConsumerRef) :
    (rewriteRtpHeader buf c).run ⟨r, sent, gone⟩ =
      (⟨r.modifyConsumer c fun _ => (Router.rewriteRtpHeader buf (r.heap c)).2, sent, gone⟩,
        (Router.rewriteRtpHeader buf (r.heap c)).1) := by
  unfold rewriteRtpHeader Router.rewriteRtpHeader
  cases RtpHeader.parse buf with
  | none =>
    exact Prod.ext (congrArg (RouterMemory.mk · sent gone) (modifyConsumer_id r c).symm) rfl
  | some hdr =>
    dsimp only
    rw [run_seq, run_read, run_seq, run_read]
    dsimp only
    by_cases hinit : (r.heap c).seqInitialized = true
    · rw [if_pos hinit, if_pos hinit]
      simp only [run_seq, run_read, run_consumer, run_pure, Router.modifyConsumer_modifyConsumer]
      rfl
    · rw [if_neg hinit, if_neg hinit]
      simp only [run_seq, run_consumer, run_pure, Router.modifyConsumer_modifyConsumer]
      rfl

theorem rewriteRtpHeader_subscriber (buf : Bytes) (k : Consumer) :
    (Router.rewriteRtpHeader buf k).2.subscriber = k.subscriber := by
  unfold Router.rewriteRtpHeader
  split
  · rfl
  · dsimp only
    split <;> rfl

theorem run_countSent (len : Nat) (c : ConsumerRef) : (countSent len c).run ⟨r, sent, gone⟩ =
    (⟨r.modifyConsumer c (Router.countSent len), sent, gone⟩, ()) := by
  unfold countSent
  rw [run_seq, run_read, run_seq, run_consumer, run_seq, run_read, run_consumer]
  simp [Router.modifyConsumer, Router.countSent]

theorem run_protectAndSend {S : PeerRef} {ctx : SrtpContext} {c : ConsumerRef}
    (hsub : (r.heap c).subscriber = some S) (hctx : (r.peers S).srtp = some ctx) (o : SrtpOracle)
    (buf out : Bytes) : (protectAndSend o buf out c).run ⟨r, sent, gone⟩ =
      match o.protect c ctx out with
      | none => (⟨r, sent, gone⟩, ())
      | some data => (⟨r.modifyConsumer c (Router.countSent buf.length),
          sent ++ [⟨(r.peers S).remoteEp, .rtp, out, data⟩], gone⟩, ()) := by
  unfold protectAndSend
  rw [run_seq, run_read]
  dsimp only
  rw [hsub]
  dsimp only
  rw [run_seq, run_look]
  dsimp only
  rw [hctx]
  dsimp only
  cases o.protect c ctx out with
  | none => rfl
  | some data =>
    dsimp only
    rw [run_seq, run_read]
    dsimp only
    rw [hsub]
    dsimp only
    rw [run_seq, run_sendTo, run_countSent]

theorem run_forwardOne (o : SrtpOracle) (buf : Bytes) (c : ConsumerRef) :
    (forwardOne o buf c).run ⟨r, sent, gone⟩ =
      (⟨(r.forwardOne o buf c).1, sent ++ (r.forwardOne o buf c).2, gone⟩, ()) := by
  unfold forwardOne Router.forwardOne
  rw [run_seq, run_read]
  dsimp only
  cases (r.heap c).active with
  | false => simp
  | true =>
    rw [if_pos rfl, run_seq, run_read]
    dsimp only
    cases hsub : (r.heap c).subscriber with
    | none => simp
    | some S =>
      rw [Option.isSome_some, if_pos rfl, run_seq, run_read]
      dsimp only
      rw [hsub]
      dsimp only
      rw [run_seq, run_look]
      dsimp only
      cases hctx : (r.peers S).srtp with
      | none => simp
      | some ctx =>
        rw [Option.isSome_some, if_pos rfl, run_seq, run_read]
        dsimp only
        cases (r.heap c).recvMid.isEmpty with
        | true => simp
        | false =>
          have hsub' : ((r.modifyConsumer c fun _ =>
              (Router.rewriteRtpHeader buf (r.heap c)).2).heap c).subscriber = some S := by
            rw [Router.modifyConsumer_self, rewriteRtpHeader_subscriber]
            exact hsub
          rw [if_neg Bool.false_ne_true, run_seq, run_rewriteRtpHeader,
            run_protectAndSend _ _ _ hsub' hctx]
          dsimp only
          cases o.protect c ctx (Router.rewriteRtpHeader buf (r.heap c)).1 with
          | none => simp
          | some data => rfl

theorem run_forward (o : SrtpOracle) (buf : Bytes) (cs : List ConsumerRef) :
    (forEach cs (forwardOne o buf)).run ⟨r, sent, gone⟩ =
      (⟨(Router.forward o buf cs r).1, sent ++ (Router.forward o buf cs r).2, gone⟩, ()) := by
  unfold forEach
  induction cs generalizing r sent with
  | nil => simp [Router.forward]
  | cons c cs ih =>
    rw [run_fold_cons, run_forwardOne, ih, List.append_assoc]
    rfl

theorem run_linkTargets (pts : Finset UInt8) (o : SrtpOracle) (buf : Bytes) (P : PeerRef)
    (hdr : RtpHeader) : (linkTargets pts o buf P hdr).run ⟨r, sent, gone⟩ =
      (⟨(r.linkTargets o P hdr.ssrc (hdr.payloadType ∈ pts)).1,
        sent ++ (r.linkTargets o P hdr.ssrc (hdr.payloadType ∈ pts)).2.2, gone⟩,
        (r.linkTargets o P hdr.ssrc (hdr.payloadType ∈ pts)).2.1) := by
  unfold linkTargets
  rw [run_seq, run_critical, run_look]
  dsimp only
  cases hfound : r.lookupTargets P hdr.ssrc with
  | none =>
    dsimp only
    rw [run_locked, run_createTargets]
  | some targets =>
    unfold Router.linkTargets
    rw [hfound]
    simp

theorem run_onRtpPacket (pts : Finset UInt8) (o : SrtpOracle) (buf : Bytes) (P : PeerRef) :
    (onRtpPacket pts o buf P).run ⟨r, sent, gone⟩ =
      (⟨(r.onRtpPacket pts o buf P).1, sent ++ (r.onRtpPacket pts o buf P).2, gone⟩, ()) := by
  unfold onRtpPacket Router.onRtpPacket
  cases RtpHeader.parse buf with
  | none => simp
  | some hdr =>
    dsimp only
    rw [run_seq, run_linkTargets, run_forward, List.append_assoc]

theorem run_collect (c : ConsumerRef) (reading : Router.Reading) (s : RouterMemory) :
    (collect c reading).run s = (s, reading.build (s.router.heap c)) := by
  induction reading with
  | built plain => rfl
  | seqDelta next ih =>
    rw [collect, run_seq, run_read]
    exact ih _
  | publisherSsrc next ih =>
    rw [collect, run_seq, run_read]
    exact ih _

theorem run_translate (o : SrtpOracle) (i : Nat) (q : Router.Request) :
    (translate o i q).run ⟨r, sent, gone⟩ = (⟨r, sent ++ r.translate o i q, gone⟩, ()) := by
  unfold translate Router.translate findConsumerByOutSsrc
  rw [run_seq, run_locked, run_look]
  dsimp only
  cases r.findConsumerByOutSsrc q.outSsrc with
  | none => simp
  | some c =>
    dsimp only
    rw [run_seq, run_read]
    dsimp only
    cases hpub : (r.heap c).publisher with
    | none => simp
    | some P =>
      rw [Option.isSome_some, if_pos rfl, run_seq, run_read]
      dsimp only
      rw [hpub]
      dsimp only
      rw [run_seq, run_look]
      dsimp only
      cases hctx : (r.peers P).srtp with
      | none => simp [Peer.sendRtcp, hctx]
      | some ctx =>
        rw [Option.isSome_some, if_pos rfl, run_seq, run_read, run_seq, run_collect]
        dsimp only
        rw [hpub]
        exact run_sendRtcp r sent gone hctx o i _

theorem run_onRtcpPacket (o : SrtpOracle) (rtcp : Bytes) :
    (onRtcpPacket o rtcp).run ⟨r, sent, gone⟩ = (⟨r, sent ++ r.onRtcpPacket o rtcp, gone⟩, ()) := by
  unfold onRtcpPacket
  rw [Router.onRtcpPacket_eq]
  unfold forEach
  induction Router.requests rtcp generalizing sent with
  | nil => simp
  | cons x xs ih => rw [run_fold_cons, run_translate, ih, List.append_assoc, List.flatMap_cons]

theorem run_setTransport (p : PeerRef) (remoteEp : Endpoint) (dtls : Option DtlsContext)
    (srtp : Option SrtpContext) : (setTransport p remoteEp dtls srtp).run ⟨r, sent, gone⟩ =
      (⟨r.setTransport p remoteEp dtls srtp, sent, gone⟩, ()) := by
  unfold setTransport Router.setTransport
  rw [run_seq, run_peer, run_seq, run_peer, run_peer, Router.modifyPeer_modifyPeer,
    Router.modifyPeer_modifyPeer]

/-- A call whose result is not looked at. -/
theorem run_discard {p : RouterProg α} {s s' : RouterMemory} {a : α} (h : p.run s = (s', a)) :
    ((p >>= fun _ => pure ()).run s).1 = s' := by
  rw [run_seq, h]
  rfl

end RouterProg

namespace RouterCall

open RouterProg

/-- **A call that nobody disturbs** does to the router what the function does, sends what the
function sends and destroys the consumers of the peer it removes. -/
theorem run_prog (call : RouterCall) (r : Router) (sent : List Datagram)
    (gone : Finset ConsumerRef) : (call.prog.run ⟨r, sent, gone⟩).1 =
      ⟨(call.perform r).1, sent ++ (call.perform r).2, gone ∪ call.destroys r⟩ := by
  have hquiet : sent ++ [] = sent := List.append_nil sent
  have hnone : gone ∪ ∅ = gone := Finset.union_empty gone
  cases call with
  | addConsumer S P v d =>
    rw [perform, destroys, hquiet, hnone]
    exact run_discard (run_addConsumer r sent gone S P v d)
  | removePeer p =>
    rw [perform, hquiet]
    exact congrArg Prod.fst (run_removePeer r sent gone p)
  | bindConsumerByMid S publisherPeerId v mid =>
    rw [perform, destroys, hquiet, hnone]
    exact run_discard ((run_locked _ _ _ _).trans (run_bindConsumerByMidBody r sent gone _ _ _ _))
  | getAllBoundSsrcs S =>
    rw [perform, destroys, hquiet, hnone]
    exact run_discard ((run_locked _ _ _ _).trans (run_getAllBoundSsrcsBody r sent gone S))
  | getAllVideoProducers =>
    rw [perform, destroys, hquiet, hnone]
    exact run_discard ((run_locked _ _ _ _).trans (run_getAllVideoProducersBody r sent gone))
  | onRtpPacket pts o buf P =>
    rw [destroys, hnone]
    exact congrArg Prod.fst (run_onRtpPacket r sent gone pts o buf P)
  | onRtcpPacket o rtcp =>
    rw [destroys, hnone]
    exact congrArg Prod.fst (run_onRtcpPacket r sent gone o rtcp)
  | setTransport p remoteEp dtls srtp =>
    rw [perform, destroys, hquiet, hnone]
    exact congrArg Prod.fst (run_setTransport r sent gone p remoteEp dtls srtp)

end RouterCall

end Namecon
