import Namecon.Grpc.Proof.Sound
import Namecon.Signal.Meeting

/-!
# How many consumers a subscription has

`SetupConsumers` asks for a consumer for every ordered pair of the room on every join, and
`addConsumer` never looks for one that is there: a join adds one to the count of every pair, so the
counts are 1 exactly as long as nobody joins a room in which two others are.
-/

namespace Namecon

open ListFacts Router

namespace System

open Manager (drawPeerId)

variable {s : System} {roomId : String}

/-! ## The calls of `SetupConsumers` -/

/-- The calls for one pair. -/
theorem mem_pairCalls {sub pub : String} {c : String × String × Bool} :
    (c ∈ if sub = pub then [] else [(sub, pub, true), (sub, pub, false)]) ↔
      sub ≠ pub ∧ c.1 = sub ∧ c.2.1 = pub := by
  obtain ⟨sub', pub', v⟩ := c
  split
  · rename_i h; simp [h]
  · rename_i h; cases v <;> simp [h]

theorem mem_setupCalls {peers : List String} {sub pub : String} {v : Bool} :
    (sub, pub, v) ∈ setupCalls peers ↔ sub ∈ peers ∧ pub ∈ peers ∧ sub ≠ pub := by
  simp only [setupCalls, List.mem_flatMap, mem_pairCalls]
  constructor
  · intro h
    obtain ⟨a, ha, b, hb, hne, rfl, rfl⟩ := h
    exact ⟨ha, hb, hne⟩
  · intro ⟨hs, hp, hne⟩
    exact ⟨sub, hs, pub, hp, hne, rfl, rfl⟩

theorem nodup_setupCalls {peers : List String} (h : peers.Nodup) : (setupCalls peers).Nodup := by
  rw [setupCalls, List.nodup_flatMap]
  refine ⟨fun sub _ => ?_, h.imp fun {a b} hab c ha hb => ?_⟩
  · rw [List.nodup_flatMap]
    refine ⟨fun pub _ => ?_, h.imp fun {a b} hab c ha hb => ?_⟩
    · split <;> simp
    · -- calls for different publishers
      exact hab ((mem_pairCalls.1 ha).2.2.symm.trans (mem_pairCalls.1 hb).2.2)
  · -- calls for different subscribers
    obtain ⟨_, -, ha⟩ := List.mem_flatMap.1 ha
    obtain ⟨_, -, hb⟩ := List.mem_flatMap.1 hb
    exact hab ((mem_pairCalls.1 ha).2.1.symm.trans (mem_pairCalls.1 hb).2.1)

theorem count_setupCalls {peers : List String} (h : peers.Nodup) {sub pub : String} (v : Bool)
    (hs : sub ∈ peers) (hp : pub ∈ peers) (hne : sub ≠ pub) :
    (setupCalls peers).count (sub, pub, v) = 1 :=
  List.count_eq_one_of_mem (nodup_setupCalls h) (mem_setupCalls.2 ⟨hs, hp, hne⟩)

theorem addConsumers_spec (draws : Nat → SsrcDraw) (calls : List (String × String × Bool)) (i : Nat)
    {m : MediaServer} (h : m.Sound)
    (hreg : ∀ c ∈ calls, (∃ S, m.peers c.1 = some S) ∧ ∃ P, m.peers c.2.1 = some P) :
    (addConsumers draws i calls m).1.Sound ∧ (addConsumers draws i calls m).1.peers = m.peers ∧
      ∀ sub pub v S P, m.peers sub = some S → m.peers pub = some P →
        (addConsumers draws i calls m).1.router.subscriptions S P v =
          m.router.subscriptions S P v + calls.count (sub, pub, v) := by
  induction calls generalizing i m with
  | nil => exact ⟨h, rfl, fun _ _ _ _ _ _ _ => rfl⟩
  | cons c calls ih =>
    obtain ⟨sub, pub, v⟩ := c
    obtain ⟨⟨S, hS⟩, P, hP⟩ := hreg _ (.head _)
    dsimp only at hS hP
    have hm := MediaServer.addConsumer_found hS hP v (draws i)
    have hm' := h.router_addConsumer (MediaServer.registered_lt h.pool hS)
      (MediaServer.registered_lt h.pool hP) v (draws i)
    obtain ⟨hsound, hpeers, hcount⟩ := ih (i + 1) hm' fun c hc => hreg c (.tail _ hc)
    simp only [addConsumers, hm]
    refine ⟨hsound, hpeers, fun sub' pub' v' S' P' hS' hP' => ?_⟩
    -- a call counts for the pair it names, since an id names one peer and a peer has one id
    have hpair : (S, P, v) = (S', P', v') ↔ (sub, pub, v) = (sub', pub', v') := by
      constructor
      · intro he
        obtain ⟨rfl, rfl, rfl⟩ : S = S' ∧ P = P' ∧ v = v' := by simpa using he
        rw [h.peers_inj hS hS', h.peers_inj hP hP']
      · intro he
        obtain ⟨rfl, rfl, rfl⟩ : sub = sub' ∧ pub = pub' ∧ v = v' := by simpa using he
        rw [Option.some.inj (hS.symm.trans hS'), Option.some.inj (hP.symm.trans hP')]
    rw [hcount sub' pub' v' S' P' hS' hP', subscriptions_addConsumer h.wf, List.count_cons]
    simp only [hpair, beq_iff_eq]
    omega

/-! ## The room -/

/-- The room and the registry of the media server agree: its members are registered. -/
structure Tracked (roomId : String) (s : System) : Prop where
  sound : s.media.Sound
  keys : (s.present roomId).Nodup
  ids : ∀ e ∈ s.participants roomId, e.2.id = e.1
  registered : ∀ id ∈ s.present roomId, ∃ p, s.media.peers id = some p

/-- What the room does not see keeps it tracked. -/
theorem Tracked.of_media {s' : System} (h : s.Tracked roomId) (hm : s'.manager = s.manager)
    (hs : s'.media.Sound) (hp : s'.media.peers = s.media.peers) : s'.Tracked roomId := by
  have hpart : s'.participants roomId = s.participants roomId := by
    unfold participants; rw [hm]
  refine ⟨hs, ?_, ?_, ?_⟩
  · unfold present; rw [hpart]; exact h.keys
  · rw [hpart]; exact h.ids
  · unfold present; rw [hpart, hp]; exact h.registered

theorem setupConsumers_none (h : s.manager.rooms roomId = none)
    (range : MapRange String Participant) (draws : Nat → SsrcDraw) :
    s.setupConsumers range draws roomId = (s, .error ("room not found: " ++ roomId)) := by
  simp only [setupConsumers, Manager.getRoom, h]

theorem setupConsumers_some {room : RoomRef} (h : s.manager.rooms roomId = some room)
    (range : MapRange String Participant) (draws : Nat → SsrcDraw) :
    s.setupConsumers range draws roomId =
      let out := addConsumers draws 0
        (setupCalls ((range.walk (s.manager.heap room).participants).map (·.2.id))) s.media
      ({ s with media := out.1 }, out.2) := by
  simp only [setupConsumers, Manager.getRoom, h]

theorem Tracked.setupConsumers (h : s.Tracked roomId) (range : MapRange String Participant)
    (draws : Nat → SsrcDraw) :
    (s.setupConsumers range draws roomId).1.Tracked roomId ∧
      (s.setupConsumers range draws roomId).1.present roomId = s.present roomId ∧
      (s.setupConsumers range draws roomId).1.media.peers = s.media.peers ∧
      ∀ sub ∈ s.present roomId, ∀ pub ∈ s.present roomId, sub ≠ pub → ∀ v S P,
        s.media.peers sub = some S → s.media.peers pub = some P →
          (s.setupConsumers range draws roomId).1.media.router.subscriptions S P v =
            s.media.router.subscriptions S P v + 1 := by
  cases hr : s.manager.rooms roomId with
  | none =>
    have hpart := participants_none hr
    rw [setupConsumers_none hr]
    refine ⟨h, rfl, rfl, fun sub hsub => ?_⟩
    rw [present, hpart] at hsub
    cases hsub
  | some room =>
    have hpart := participants_some hr
    -- the members, in the order the map is walked
    let members := (range.walk (s.manager.heap room).participants).map (·.2.id)
    have hperm : members.Perm (s.present roomId) := by
      rw [present, hpart]
      have hids : (s.manager.heap room).participants.map (·.2.id) =
          (s.manager.heap room).participants.map Prod.fst :=
        List.map_congr_left fun e he => h.ids e (hpart ▸ he)
      exact ((range.perm _).map _).trans (.of_eq hids)
    have hreg : ∀ c ∈ setupCalls members,
        (∃ S, s.media.peers c.1 = some S) ∧ ∃ P, s.media.peers c.2.1 = some P := by
      intro ⟨sub, pub, v⟩ hc
      obtain ⟨hsub, hpub, -⟩ := mem_setupCalls.1 hc
      exact ⟨h.registered _ (hperm.mem_iff.1 hsub), h.registered _ (hperm.mem_iff.1 hpub)⟩
    obtain ⟨hsound, hpeers, hcount⟩ := addConsumers_spec draws _ 0 h.sound hreg
    rw [setupConsumers_some hr]
    refine ⟨h.of_media rfl hsound hpeers, rfl, hpeers, ?_⟩
    intro sub hsub pub hpub hne v S P hS hP
    rw [hcount sub pub v S P hS hP, count_setupCalls (hperm.nodup_iff.2 h.keys) v
      (hperm.mem_iff.2 hsub) (hperm.mem_iff.2 hpub) hne]

theorem Tracked.addParticipant (h : s.Tracked roomId) {room : RoomRef}
    (hr : s.manager.rooms roomId = some room) (info : ServerInfo) (username : String)
    (n : Fin 99999) : (s.addParticipant info roomId username n).1.Tracked roomId ∧
      (s.addParticipant info roomId username n).1.participants roomId =
        setKey (s.participants roomId) (drawPeerId n) (Participant.ofPeer (drawPeerId n) username
          roomId (s.media.addPeer info (drawPeerId n)).2) := by
  have hpart : (s.addParticipant info roomId username n).1.participants roomId =
      setKey (s.participants roomId) (drawPeerId n) (Participant.ofPeer (drawPeerId n) username
        roomId (s.media.addPeer info (drawPeerId n)).2) := by
    rw [addParticipant_some hr, participants_some hr]
    refine (participants_some (by exact hr)).trans ?_
    simp only [Manager.setParticipant, Function.update_self]
  refine ⟨⟨?_, ?_, ?_, ?_⟩, hpart⟩
  · rw [addParticipant_some hr]
    exact h.sound.addPeer info _
  · rw [present, hpart]
    exact nodup_setKey h.keys
  · intro e he
    rw [hpart] at he
    rcases mem_setKey.1 he with ⟨he, -⟩ | rfl
    · exact h.ids e he
    · rfl
  · intro id hid
    rw [addParticipant_some hr, MediaServer.addPeer_peers]
    by_cases hne : id = drawPeerId n
    · rw [hne, Function.update_self]
      exact ⟨_, rfl⟩
    · rw [Function.update_of_ne hne]
      rw [present, hpart] at hid
      obtain ⟨e, he, rfl⟩ := List.mem_map.1 hid
      rcases mem_setKey.1 he with ⟨he, -⟩ | rfl
      · exact h.registered _ (List.mem_map_of_mem he)
      · exact absurd rfl hne

theorem Tracked.removeParticipant (h : s.Tracked roomId) (id : String) :
    (s.removeParticipant roomId id).1.Tracked roomId ∧
      (s.removeParticipant roomId id).1.participants roomId =
        eraseKey (s.participants roomId) id := by
  cases hr : s.manager.rooms roomId with
  | none =>
    have hpart := participants_none hr
    simp only [System.removeParticipant, Manager.getRoom, hr, hpart]
    exact ⟨h, rfl⟩
  | some room =>
    have hpart : (s.removeParticipant roomId id).1.participants roomId =
        eraseKey (s.participants roomId) id := by
      rw [participants_some hr]
      simp only [System.removeParticipant, Manager.getRoom, hr]
      split
      · -- the last member: the room goes
        rename_i hempty
        rw [participants_none (by simp [Manager.deleteRoom])]
        simp only [Manager.deleteParticipant, Function.update_self, List.isEmpty_iff] at hempty
        exact hempty.symm
      · rw [participants_some (by exact hr)]
        simp [Manager.deleteParticipant]
    have hmem : ∀ e, e ∈ eraseKey (s.participants roomId) id →
        e ∈ s.participants roomId ∧ e.1 ≠ id := fun _ => mem_eraseKey.1
    refine ⟨⟨?_, ?_, ?_, ?_⟩, hpart⟩
    · rw [removeParticipant_some hr]
      exact h.sound.removePeer id
    · rw [present, hpart]
      exact nodup_eraseKey h.keys
    · intro e he
      rw [hpart] at he
      exact h.ids e (hmem e he).1
    · intro id' hid'
      rw [present, hpart] at hid'
      obtain ⟨e, he, rfl⟩ := List.mem_map.1 hid'
      obtain ⟨he, hne⟩ := hmem e he
      rw [removeParticipant_some hr, MediaServer.removePeer_peers_ne hne]
      exact h.registered _ (List.mem_map_of_mem he)

/-! ## The steps -/

/-- Every subscription of the room has one consumer. -/
def OnePerSubscription (roomId : String) (s : System) : Prop :=
  ∀ sub ∈ s.present roomId, ∀ pub ∈ s.present roomId, sub ≠ pub → ∀ v, ∃ S P,
    s.media.peers sub = some S ∧ s.media.peers pub = some P ∧
      s.media.router.subscriptions S P v = 1

/-- At most one member besides the one who joins. -/
def JoinsOneAtMost (roomId : String) (s : System) : MeetingOp → Prop
  | .join _ _ n _ _ => ∀ a ∈ s.present roomId, ∀ b ∈ s.present roomId,
      a ≠ drawPeerId n → b ≠ drawPeerId n → a = b
  | _ => True

theorem Tracked.step (h : s.Tracked roomId) (op : MeetingOp) :
    (s.step roomId op).Tracked roomId := by
  cases op with
  | join username info n range draws =>
    cases hr : s.manager.rooms roomId with
    | none =>
      simp only [System.step, System.join, addParticipant_none hr]
      exact h
    | some room =>
      have hadded := (h.addParticipant hr info username n).1
      simp only [System.step, System.join, addParticipant_some hr] at hadded ⊢
      exact (hadded.setupConsumers range draws).1
  | leave peerId => exact (h.removeParticipant peerId).1
  | offer g peerId sdp recvMids =>
    exact h.of_media rfl (h.sound.sendOffer g peerId sdp recvMids) rfl
  | packet data ep env =>
    exact h.of_media rfl (h.sound.onPacket data ep env) (MediaServer.onPacket_peers _ _ _ _)

/-- What neither the room nor the consumers see keeps the counts. -/
theorem onePerSubscription_frame {s' : System} (h : s.OnePerSubscription roomId)
    (hm : s'.manager = s.manager) (hp : s'.media.peers = s.media.peers)
    (hs : SameSubscribers s.media.router s'.media.router) : s'.OnePerSubscription roomId := by
  have hpres : s'.present roomId = s.present roomId := by
    unfold present participants; rw [hm]
  intro sub hsub pub hpub hne v
  rw [hpres] at hsub hpub
  obtain ⟨S, P, hS, hP, h1⟩ := h sub hsub pub hpub hne v
  exact ⟨S, P, hp ▸ hS, hp ▸ hP, hs.subscriptions.trans h1⟩

theorem onePerSubscription_leave (ht : s.Tracked roomId) (h : s.OnePerSubscription roomId)
    (peerId : String) : (s.step roomId (.leave peerId)).OnePerSubscription roomId := by
  have hpart := (ht.removeParticipant peerId).2
  cases hr : s.manager.rooms roomId with
  | none =>
    intro sub hsub
    rw [present, System.step, hpart, participants_none hr] at hsub
    cases hsub
  | some room =>
    intro sub hsub pub hpub hne v
    rw [present, System.step, hpart] at hsub hpub
    obtain ⟨e, he, rfl⟩ := List.mem_map.1 hsub
    obtain ⟨f, hf, rfl⟩ := List.mem_map.1 hpub
    obtain ⟨he, hne1⟩ := mem_eraseKey.1 he
    obtain ⟨hf, hne2⟩ := mem_eraseKey.1 hf
    obtain ⟨S, P, hS, hP, h1⟩ := h _ (List.mem_map_of_mem he) _ (List.mem_map_of_mem hf) hne v
    simp only [System.step, removeParticipant_some hr]
    refine ⟨S, P, ?_, ?_, ?_⟩
    · rw [MediaServer.removePeer_peers_ne hne1, hS]
    · rw [MediaServer.removePeer_peers_ne hne2, hP]
    · rw [ht.sound.subscriptions_removePeer hS hP hne1 hne2, h1]

section
variable {room : RoomRef} (hr : s.manager.rooms roomId = some room) (username : String)
  (info : ServerInfo) (n : Fin 99999) (range : MapRange String Participant) (draws : Nat → SsrcDraw)
include hr

theorem step_join : s.step roomId (.join username info n range draws) =
    ((s.addParticipant info roomId username n).1.setupConsumers range draws roomId).1 := by
  simp only [System.step, join, addParticipant_some hr]

theorem mem_present_join (ht : s.Tracked roomId) (id : String) :
    id ∈ (s.step roomId (.join username info n range draws)).present roomId ↔
      (id ∈ s.present roomId ∧ id ≠ drawPeerId n) ∨ id = drawPeerId n := by
  obtain ⟨hadded, hpart⟩ := ht.addParticipant hr info username n
  rw [step_join hr, (hadded.setupConsumers range draws).2.1, present, hpart]
  simp only [present, List.mem_map, mem_setKey]
  constructor
  · intro h
    obtain ⟨e, ⟨he, hne⟩ | rfl, rfl⟩ := h
    · exact .inl ⟨⟨e, he, rfl⟩, hne⟩
    · exact .inr rfl
  · intro h
    rcases h with ⟨⟨e, he, rfl⟩, hne⟩ | rfl
    · exact ⟨e, .inl ⟨he, hne⟩, rfl⟩
    · exact ⟨_, .inr rfl, rfl⟩

theorem peers_join (ht : s.Tracked roomId) :
    (s.step roomId (.join username info n range draws)).media.peers =
      Function.update s.media.peers (drawPeerId n) (some s.media.nextPeer) := by
  have hadded := (ht.addParticipant hr info username n).1
  rw [step_join hr, (hadded.setupConsumers range draws).2.2.1, addParticipant_some hr]
  rfl

/-- A join adds one to every count; those of the new peer were 0. -/
theorem subscriptions_join (ht : s.Tracked roomId) {sub pub : String} {S P : PeerRef} (v : Bool)
    (hsub : sub ∈ (s.step roomId (.join username info n range draws)).present roomId)
    (hpub : pub ∈ (s.step roomId (.join username info n range draws)).present roomId)
    (hne : sub ≠ pub)
    (hS : (s.step roomId (.join username info n range draws)).media.peers sub = some S)
    (hP : (s.step roomId (.join username info n range draws)).media.peers pub = some P) :
    (s.step roomId (.join username info n range draws)).media.router.subscriptions S P v =
      (if sub = drawPeerId n ∨ pub = drawPeerId n then 0
        else s.media.router.subscriptions S P v) + 1 := by
  obtain ⟨hadded, -⟩ := ht.addParticipant hr info username n
  obtain ⟨-, hpres, hpeers, hcount⟩ := hadded.setupConsumers range draws
  have hP' := hP
  have hS' := hS
  rw [step_join hr] at hsub hpub hS hP ⊢
  rw [hpres] at hsub hpub
  rw [hpeers] at hS hP
  rw [hcount sub hsub pub hpub hne v S P hS hP, addParticipant_some hr,
    (ht.sound.sameLinks_addPeer info _).sameSubscribers.subscriptions]
  rw [peers_join hr _ _ _ _ _ ht] at hS' hP'
  split
  · -- the joiner's peer is the next one
    rename_i hj
    rw [ht.sound.subscriptions_next]
    rcases hj with rfl | rfl
    · rw [Function.update_self] at hS'
      exact .inl (Option.some.inj hS').symm
    · rw [Function.update_self] at hP'
      exact .inr (Option.some.inj hP').symm
  · rfl

end

theorem onePerSubscription_join (ht : s.Tracked roomId) (h : s.OnePerSubscription roomId)
    (username : String) (info : ServerInfo) (n : Fin 99999) (range : MapRange String Participant)
    (draws : Nat → SsrcDraw) :
    (s.step roomId (.join username info n range draws)).OnePerSubscription roomId ↔
      s.JoinsOneAtMost roomId (.join username info n range draws) := by
  have ht' := ht.step (.join username info n range draws)
  cases hr : s.manager.rooms roomId with
  | none =>
    simp only [System.step, join, addParticipant_none hr]
    refine iff_of_true h fun a ha => ?_
    rw [present, participants_none hr] at ha
    cases ha
  | some room =>
    have hmem := mem_present_join hr username info n range draws ht
    have hpeers := peers_join hr username info n range draws ht
    constructor
    · -- a pair of earlier members counts one more than before
      intro h' a ha b hb haj hbj
      by_contra hab
      obtain ⟨S, P, hS, hP, h1⟩ := h a ha b hb hab true
      obtain ⟨S', P', hS', hP', h1'⟩ :=
        h' a ((hmem a).2 (.inl ⟨ha, haj⟩)) b ((hmem b).2 (.inl ⟨hb, hbj⟩)) hab true
      have hcount := subscriptions_join hr username info n range draws ht true
        ((hmem a).2 (.inl ⟨ha, haj⟩)) ((hmem b).2 (.inl ⟨hb, hbj⟩)) hab hS' hP'
      rw [if_neg (not_or.2 ⟨haj, hbj⟩)] at hcount
      rw [hpeers, Function.update_of_ne haj, hS] at hS'
      rw [hpeers, Function.update_of_ne hbj, hP] at hP'
      obtain rfl := Option.some.inj hS'
      obtain rfl := Option.some.inj hP'
      omega
    · intro hone sub hsub pub hpub hne v
      obtain ⟨S, hS⟩ := ht'.registered sub hsub
      obtain ⟨P, hP⟩ := ht'.registered pub hpub
      refine ⟨S, P, hS, hP, ?_⟩
      rw [subscriptions_join hr username info n range draws ht v hsub hpub hne hS hP]
      split
      · rfl
      · rename_i hj
        obtain ⟨hsj, hpj⟩ := not_or.1 hj
        rcases (hmem sub).1 hsub with ⟨hsub, -⟩ | he
        · rcases (hmem pub).1 hpub with ⟨hpub, -⟩ | he
          · exact absurd (hone sub hsub pub hpub hsj hpj) hne
          · exact absurd he hpj
        · exact absurd he hsj

/-- **One consumer per subscription, exactly while two meet.** -/
theorem always_onePerSubscription_iff (name : String) (k : Fin 900000) (ops : List MeetingOp) :
    Runs.Always (System.step (Manager.drawRoomId k)) (OnePerSubscription (Manager.drawRoomId k))
        (opened name k) ops ↔
      Runs.Meets (System.step (Manager.drawRoomId k)) (JoinsOneAtMost (Manager.drawRoomId k))
        (opened name k) ops := by
  have hpart : (opened name k).participants (Manager.drawRoomId k) = [] := by
    rw [participants_some (show (opened name k).manager.rooms (Manager.drawRoomId k) = some 0 from
      Function.update_self _ _ _)]
    rfl
  have hstart : (opened name k).Tracked (Manager.drawRoomId k) := by
    refine ⟨MediaServer.sound_start, ?_, fun e he => ?_, fun id hid => ?_⟩
    · rw [present, hpart]; exact .nil
    · rw [hpart] at he; cases he
    · rw [present, hpart] at hid; cases hid
  refine Runs.always_iff_meets (I := Tracked (Manager.drawRoomId k)) (fun _ op h => h.step op)
    (fun s op ht h => ?_) hstart fun sub hsub => ?_
  · cases op with
    | join username info n range draws =>
      exact onePerSubscription_join ht h username info n range draws
    | leave peerId => exact iff_of_true (onePerSubscription_leave ht h peerId) trivial
    | offer g peerId sdp recvMids =>
      exact iff_of_true (onePerSubscription_frame h rfl rfl
        (MediaServer.sameLinks_sendOffer _ _ _ _ _).sameSubscribers) trivial
    | packet data ep env =>
      exact iff_of_true (onePerSubscription_frame h rfl (MediaServer.onPacket_peers _ _ _ _)
        (ht.sound.sameSubscribers_onPacket data ep env)) trivial
  · rw [present, hpart] at hsub
    cases hsub

/-- A join that draws `n`. -/
def joinOf (n : Nat) : MeetingOp :=
  .join "" {} (Manager.intn n) (.kept _ _) fun _ => default

/-- Three join: the third makes the pairs of the first two anew. -/
def threeJoins : List MeetingOp := [joinOf 1, joinOf 2, joinOf 3]

set_option maxRecDepth 2000 in
theorem threeJoins_doubled : ¬ Runs.Always (System.step (Manager.drawRoomId 0))
    (OnePerSubscription (Manager.drawRoomId 0)) (opened "room" 0) threeJoins := by
  intro h
  obtain ⟨S, P, hS, hP, h1⟩ := h.last "peer_1" (by decide) "peer_2" (by decide) (by decide) true
  obtain rfl := Option.some.inj ((by decide : _ = some (0 : PeerRef)).symm.trans hS)
  obtain rfl := Option.some.inj ((by decide : _ = some (1 : PeerRef)).symm.trans hP)
  revert h1
  decide

end System

end Namecon
