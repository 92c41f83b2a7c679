import Namecon.Grpc.Proof.Between
import Namecon.Grpc.Proof.Copies
import Namecon.Signal.Proof.Readiness
import Namecon.Signal.Proof.Stages
import Namecon.Signal.Proof.Subscriptions

/-!
# Media stays in the room

`SetupConsumers` asks for media between the participants it finds in one room, and it is the only
one that asks (`pending_step`). However handlers interleave, and whoever has left in the meantime, a
client gets media only from somebody it has been in a room with (`media_stays_in_room`).
-/

namespace Namecon

open Runs (exec)

namespace Hub

variable {h : Hub} {op : HubOp} {done : List HubOp} {c : ClientRef} {room : RoomRef}
  {todo : List (String × String × Bool)}

/-! ## Who has met whom -/

/-- The ids of the participants of a room. -/
def ids (h : Hub) (room : RoomRef) : List String :=
  (h.system.manager.heap room).participants.map (·.2.id)

/-- Different ids that were participants of one room at some moment of the run. -/
def Met (done : List HubOp) (a b : String) : Prop :=
  a ≠ b ∧ ∃ before after, done = before ++ after ∧
    ∃ room, a ∈ (exec Hub.step {} before).ids room ∧ b ∈ (exec Hub.step {} before).ids room

theorem Met.snoc {a b : String} (h : Met done a b) (op : HubOp) : Met (done ++ [op]) a b := by
  obtain ⟨hne, before, after, rfl, hroom⟩ := h
  exact ⟨hne, before, after ++ [op], List.append_assoc .., hroom⟩

/-! ## The calls of `SetupConsumers` -/

/-- The calls a goroutine still has to make are some it had before, or those for a room as it is
now. -/
theorem pending_step (hs : h.Staged) (hpc : ((h.step op).client c).pc = .addConsumer room todo) :
    (∃ todo', (h.client c).pc = .addConsumer room todo' ∧ ∀ call ∈ todo, call ∈ todo') ∨
      ∀ call ∈ todo, call.1 ∈ h.ids room ∧ call.2.1 ∈ h.ids room ∧ call.1 ≠ call.2.1 := by
  have hturn := h.turns op c
  generalize hx : (h.step op).client c = x' at hturn hpc
  cases hturn with
  | same => exact .inl ⟨todo, hpc, fun _ hcall => hcall⟩
  | born => cases hpc
  | wrote => exact .inl ⟨todo, hpc, fun _ hcall => hcall⟩
  | told => exact .inl ⟨todo, (Client.push_pc _ _).symm.trans hpc, fun _ hcall => hcall⟩
  | tells => cases hpc
  | unregisters => cases hpc
  | acted ha =>
    cases ha with
    | @collect env room' _ hat =>
      right
      simp only [step, advance, hat, goto, modifyClient_self] at hx
      obtain ⟨rfl, rfl⟩ := ReadPump.addConsumer.inj ((congrArg Client.pc hx).trans hpc)
      rintro ⟨sub, pub, v⟩ hcall
      obtain ⟨hsub, hpub, hne⟩ := System.mem_setupCalls.1 hcall
      have hmem : ∀ id, id ∈ (env.participants.walk
          (h.system.manager.heap room').participants).map (·.2.id) → id ∈ h.ids room' :=
        fun id hid => ((env.participants.perm _).map _).mem_iff.1 hid
      exact ⟨hmem _ hsub, hmem _ hpub, hne⟩
    | @addConsumer env room' todo' _ _ hat =>
      left
      cases todo' with
      | nil =>
        simp only [step, advance, hat, goto, modifyClient_self] at hx
        cases (congrArg Client.pc hx).trans hpc
      | cons call todo' =>
        simp only [step, advance, hat, goto, modifyClient_self] at hx
        have hnext := (congrArg Client.pc hx).trans hpc
        dsimp only at hnext
        split at hnext
        · obtain ⟨rfl, rfl⟩ := ReadPump.addConsumer.inj hnext
          exact ⟨_, hat, fun _ hcall => .tail _ hcall⟩
        · cases hnext
    | leave =>
      rcases (h.client c).handleLeave_cases false with he | he <;>
        (rw [he] at hpc; cases hpc)
    | hangUp =>
      rcases (h.client c).handleLeave_cases true with he | he <;>
        (rw [he] at hpc; cases hpc)
    | panic =>
      rcases (h.client c).handleLeave_cases true with he | he <;>
        (rw [he] at hpc; cases hpc)
    | setupConsumers _ hnext => rcases hnext with rfl | ⟨_, rfl⟩ <;> cases hpc
    | sendPanic hat =>
      obtain ⟨-, -, ⟨_, -, rfl⟩ | ⟨last, -, rfl⟩⟩ := hs.broadcast hat
      · rcases (h.client c).handleLeave_cases true with he | he <;>
          (simp only [ReadPump.panic, he] at hpc; cases hpc)
      · cases last <;> cases hpc
    | sent hat =>
      obtain ⟨-, -, ⟨_, -, rfl⟩ | ⟨_, -, rfl⟩⟩ := hs.broadcast hat <;> cases hpc
    | delete =>
      dsimp only at hpc
      split at hpc <;> cases hpc
    | @closeSend _ last => cases last <;> cases hpc
    | _ => cases hpc

/-- What a step asks of the media server is a call of `SetupConsumers`, if it is for media. -/
theorem rpc_asks {R : String → String → Prop}
    (hcalls : ∀ c room todo, (h.client c).pc = .addConsumer room todo →
      ∀ call ∈ todo, R call.1 call.2.1) (op : HubOp) : ∀ o ∈ h.rpc op, o.Asks R := by
  intro o ho
  cases op with
  | advance c env =>
    simp only [rpc] at ho
    split at ho
    · cases ho; trivial
    · rename_i hpc
      cases ho
      exact hcalls c _ _ hpc _ (.head _)
    · cases ho; trivial
    · cases ho
  | message c g frame =>
    cases frame with
    | offer sdp recvMids =>
      simp only [rpc] at ho
      split at ho
      · cases ho; trivial
      · cases ho
    | _ => cases ho
  | packet data ep env => cases ho; trivial
  | _ => cases ho

/-! ## Runs -/

/-- After the run `done`: the pending calls and the consumers are for those who have met. -/
structure Isolated (done : List HubOp) (h : Hub) : Prop where
  staged : h.Staged
  sound : h.system.media.Sound
  calls : ∀ c room todo, (h.client c).pc = .addConsumer room todo →
    ∀ call ∈ todo, Met done call.1 call.2.1
  between : h.system.media.Between (Met done)

theorem isolated_step (h : Isolated done (exec Hub.step {} done)) (op : HubOp) :
    Isolated (done ++ [op]) ((exec Hub.step {} done).step op) := by
  have hmono : ∀ a b, Met done a b → Met (done ++ [op]) a b := fun _ _ hmet => hmet.snoc op
  refine ⟨h.staged.step op, ?_, fun c room todo hpc call hcall => ?_, ?_⟩
  · rw [media_step]
    cases (exec Hub.step {} done).rpc op with
    | none => exact h.sound
    | some o => exact h.sound.step o
  · rcases pending_step h.staged hpc with ⟨todo', hpc', hsub⟩ | hnow
    · exact hmono _ _ (h.calls c room todo' hpc' call (hsub call hcall))
    · obtain ⟨hsub, hpub, hne⟩ := hnow call hcall
      exact ⟨hne, done, [op], rfl, room, hsub, hpub⟩
  · have hasks := rpc_asks h.calls op
    rw [media_step]
    cases ho : (exec Hub.step {} done).rpc op with
    | none => exact h.between.mono hmono
    | some o => exact (h.between.step h.sound (hasks o ho)).mono hmono

theorem isolated_exec (ops : List HubOp) : Isolated ops (exec Hub.step {} ops) := by
  induction ops using List.reverseRecOn with
  | nil =>
    exact ⟨staged_start, MediaServer.sound_start, (fun _ _ _ hpc => by cases hpc),
      MediaServer.between_start⟩
  | append_singleton ops op ih =>
    rw [Runs.exec_append]
    exact isolated_step ih op

/-- **Media stays in the room.** In whatever order joins, leaves and packets interleave, each RTP
datagram that a datagram makes the server send goes to a peer whose id was, at some moment, in one
room with the id of the peer it is from. -/
theorem media_stays_in_room (ops : List HubOp) (data : Bytes) (ep : Endpoint) (env : PacketEnv)
    (hice : ∀ d ∈ env.ice, d.channel = .stun) (d : Datagram)
    (hd : d ∈ ((exec Hub.step {} ops).system.media.onPacket data ep env).2)
    (hrtp : d.channel = .rtp) :
    let bound := (exec Hub.step {} ops).system.media.getOrCreatePeer ep env.pick
    ∃ S, d.target = (bound.1.router.peers S).remoteEp ∧
      Met ops (bound.1.router.peers S).peerId (bound.1.router.peers bound.2).peerId := by
  have h := isolated_exec ops
  exact h.between.mem_onPacket h.sound hice hd hrtp

/-- Two clients join; the first asks for the video of the second, and both complete a handshake. -/
def talk : List HubOp :=
  [Logged.roomMade, .serveWS, .serveWS] ++ Logged.joinOps 0 1 15 ++ Logged.joinOps 1 2 17 ++
    [.message 0 (fun _ _ _ => (some "", {96})) (.offer "" [⟨"0", "peer_2", true⟩]),
      .packet [22] ⟨1, 1⟩ MediaServer.plainEnv, .packet [22] ⟨2, 2⟩ MediaServer.plainEnv]

/-- A packet of the second, as the first gets it. -/
def mediaForFirst : Datagram :=
  ⟨⟨1, 1⟩, .rtp, [0x80, 96, 0, 1, 0, 0, 0, 0, 0x40, 0, 0, 0],
    [0x80, 96, 0, 1, 0, 0, 0, 0, 0x40, 0, 0, 0]⟩

theorem media_stays_in_room_talk :
    let media := (exec Hub.step {} talk).system.media
    mediaForFirst ∈ (media.onPacket MediaServer.mediaOfA ⟨2, 2⟩ MediaServer.plainEnv).2 ∧
      let bound := media.getOrCreatePeer ⟨2, 2⟩ MediaServer.plainEnv.pick
      ∃ S, mediaForFirst.target = (bound.1.router.peers S).remoteEp ∧
        Met talk (bound.1.router.peers S).peerId (bound.1.router.peers bound.2).peerId := by
  have hsent : mediaForFirst ∈ ((exec Hub.step {} talk).system.media.onPacket MediaServer.mediaOfA
      ⟨2, 2⟩ MediaServer.plainEnv).2 := by decide
  exact ⟨hsent, media_stays_in_room talk MediaServer.mediaOfA ⟨2, 2⟩ MediaServer.plainEnv
    (by simp [MediaServer.plainEnv]) mediaForFirst hsent rfl⟩

end Hub

end Namecon
