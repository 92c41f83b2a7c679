import Namecon.Grpc.Proof.Sound
import Namecon.Signal.Hub

/-!
# What a step of the hub can do

`Hub.Moves h op h'` lists the steps of the hub, one constructor for each: what it requires, and the
hub after it. The steps of the goroutine of one client are listed by `Hub.Act`, which says what
becomes of the client and of the system behind the hub; `Hub.Turns` lists what any step makes of one
client. `Hub.moves`, `Hub.turns`: every step is in the lists; the invariants of the hub are proved
by cases on them.
-/

namespace Namecon

open Function (update)
open ListFacts (setKey eraseKey)

/-- A message that ends the handling of an offer or reports an error. -/
def Message.IsReply : Message → Prop
  | .error _ | .answer _ => True
  | _ => False

/-- The message `handleJoin` sends to the joiner. -/
def Participant.joined (p : Participant) (existing : List (String × String)) : Message :=
  .joined p.id p.sfuIp p.sfuPort p.iceUfrag p.icePwd p.dtlsFingerprint existing

namespace Hub

/-- A step of the goroutine of `c`, whose client is `x`: the client and the system after it. -/
inductive Act (h : Hub) (c : ClientRef) (x : Client) : HubOp → Client → System → Prop
  -- frames
  | answer {g frame msg m} (hpc : x.pc = .readMessage) (hmsg : msg.IsReply)
      (hm : m.peers = h.system.media.peers) :
    Act h c x (.message c g frame) { x with pc := .reply msg } { h.system with media := m }
  | join {g roomId username room} (hpc : x.pc = .readMessage)
      (hroom : h.system.manager.rooms roomId = some room) :
    Act h c x (.message c g (.join roomId username))
      { x with pc := .addPeer roomId username room } h.system
  | leave {g} (hpc : x.pc = .readMessage) :
    Act h c x (.message c g .leave) { x with pc := x.handleLeave false } h.system
  | hangUp (hpc : x.pc = .readMessage) :
    Act h c x (.hangUp c) { x with pc := x.handleLeave true } h.system
  -- `handleJoin`
  | addPeer {env roomId username room} (hpc : x.pc = .addPeer roomId username room) :
    Act h c x (.advance c env)
      { x with
        pc := .insert room (Participant.ofPeer (Manager.drawPeerId env.n) username roomId
          (h.system.media.addPeer env.info (Manager.drawPeerId env.n)).2) }
      { h.system with
        media := (h.system.media.addPeer env.info (Manager.drawPeerId env.n)).1 }
  | insert {env room p} (hpc : x.pc = .insert room p) (hfree : h.roomHeld room = false) :
    Act h c x (.advance c env) { x with pc := .setPeerID p }
      { h.system with manager := h.system.manager.setParticipant room p.id p }
  | setPeerID {env p} (hpc : x.pc = .setPeerID p) :
    Act h c x (.advance c env) { x with peerID := p.id, pc := .setRoomID p } h.system
  | setRoomID {env p} (hpc : x.pc = .setRoomID p) :
    Act h c x (.advance c env) { x with roomID := p.roomId, pc := .setUsername p } h.system
  | setUsername {env p} (hpc : x.pc = .setUsername p) :
    Act h c x (.advance c env) { x with username := p.name, pc := .scan p } h.system
  | scan {env p} (hpc : x.pc = .scan p) :
    Act h c x (.advance c env)
      { x with pc := .joined p (h.existingPeers c p.roomId env.clients) } h.system
  | joined {env p existing} (hpc : x.pc = .joined p existing) (hopen : x.closed = false) :
    Act h c x (.advance c env) { x.push (p.joined existing) with pc := .renegotiate p } h.system
  | renegotiate {env p} (hpc : x.pc = .renegotiate p) :
    Act h c x (.advance c env)
      { x with
        pc := .broadcast p.roomId (.renegotiate p.id p.name)
          ((env.clients.walk h.clients).map Prod.fst) (.setupConsumers p.roomId) } h.system
  | setupConsumers {env roomId pc} (hpc : x.pc = .setupConsumers roomId)
      (hnext : pc = .readMessage ∨ ∃ room, pc = .collect room) :
    Act h c x (.advance c env) { x with pc } h.system
  | collect {env room todo} (hpc : x.pc = .collect room) :
    Act h c x (.advance c env) { x with pc := .addConsumer room todo } h.system
  | addConsumer {env room todo m pc} (hpc : x.pc = .addConsumer room todo)
      (hm : m.peers = h.system.media.peers)
      (hnext : pc = .readMessage ∨ ∃ todo', pc = .addConsumer room todo') :
    Act h c x (.advance c env) { x with pc } { h.system with media := m }
  -- `sendToClient` that ends a handler, and the panic of one
  | reply {env msg} (hpc : x.pc = .reply msg) (hopen : x.closed = false) :
    Act h c x (.advance c env) { x.push msg with pc := .readMessage } h.system
  | panic {env} (hpc : (∃ p existing, x.pc = .joined p existing) ∨ ∃ msg, x.pc = .reply msg)
      (hclosed : x.closed = true) :
    Act h c x (.advance c env) { x with pc := x.handleLeave true } h.system
  -- `broadcastToRoom`
  | skip {env roomId msg t todo next} (hpc : x.pc = .broadcast roomId msg (t :: todo) next)
      (hskip : ¬ ((h.client t).roomID = roomId ∧ t ≠ c)) :
    Act h c x (.advance c env) { x with pc := .broadcast roomId msg todo next } h.system
  | sendPanic {env roomId msg t todo next}
      (hpc : x.pc = .broadcast roomId msg (t :: todo) next) (hroom : (h.client t).roomID = roomId)
      (hne : t ≠ c) (hclosed : (h.client t).closed = true) :
    Act h c x (.advance c env) { x with pc := next.panic x } h.system
  | sent {env roomId msg next} (hpc : x.pc = .broadcast roomId msg [] next) :
    Act h c x (.advance c env) { x with pc := next } h.system
  -- `handleLeave`
  | noRoom {env last} (hpc : x.pc = .getRoom last)
      (hroom : h.system.manager.rooms x.roomID = none) :
    Act h c x (.advance c env) { x with pc := .peerLeft last } h.system
  | getRoom {env last room} (hpc : x.pc = .getRoom last)
      (hroom : h.system.manager.rooms x.roomID = some room) :
    Act h c x (.advance c env) { x with pc := .delete room last } h.system
  | delete {env room last} (hpc : x.pc = .delete room last) :
    Act h c x (.advance c env)
      { x with
        pc := if ((h.system.manager.deleteParticipant room x.peerID).heap room).participants.isEmpty
          then .deleteRoom last else .removePeer last }
      { h.system with manager := h.system.manager.deleteParticipant room x.peerID }
  | deleteRoom {env last} (hpc : x.pc = .deleteRoom last) :
    Act h c x (.advance c env) { x with pc := .removePeer last }
      { h.system with manager := h.system.manager.deleteRoom x.roomID }
  | removePeer {env last} (hpc : x.pc = .removePeer last) :
    Act h c x (.advance c env) { x with pc := .peerLeft last }
      { h.system with media := h.system.media.removePeer x.peerID }
  | peerLeft {env last} (hpc : x.pc = .peerLeft last) :
    Act h c x (.advance c env)
      { x with
        pc := .broadcast x.roomID (.peerLeft x.peerID) ((env.clients.walk h.clients).map Prod.fst)
          (.unregister last) } h.system
  | closeSend {env last} (hpc : x.pc = .closeSend last) :
    Act h c x (.advance c env) { x with closed := true, pc := .afterLeave last } h.system

/-- The goroutine waits for a frame or for a lock. -/
def Waits (h : Hub) : ReadPump → Prop
  | .readMessage | .ended => True
  | .insert room _ | .delete room _ => h.roomHeld room = true
  | .unregister _ => h.hubHeld = true
  | _ => False

/-- What a step can do: nothing while it waits, a change to one of the services, a new connection,
a message into another mailbox, or an `Act` of one goroutine. -/
inductive Moves (h : Hub) : HubOp → Hub → Prop
  /-- The step waits, or has nothing to do. -/
  | stay {op} (hwait : ∀ c env, op = .advance c env → h.Waits (h.client c).pc) : Moves h op h
  | createRoom {name k s}
      (hs : s = { h.system with manager := (h.system.manager.createRoom name k).1 }) :
    Moves h (.createRoom name k) { h with system := s }
  | packet {data ep env} (m : MediaServer) (hm : m.peers = h.system.media.peers) :
    Moves h (.packet data ep env) (h.setMedia m)
  | serveWS (hfree : h.hubHeld = false) :
    Moves h .serveWS
      { h with
        clients := setKey h.clients h.nextClient true
        client := update h.client h.nextClient { pc := .readMessage }
        nextClient := h.nextClient + 1 }
  | write {c msg rest} (hsend : (h.client c).send = msg :: rest) :
    Moves h (.writeMessage c)
      { h with
        client := update h.client c
          { h.client c with send := rest, written := (h.client c).written ++ [msg] } }
  | act {op c x s} (ha : Act h c (h.client c) op x s) :
    Moves h op { h with system := s, client := update h.client c x }
  /-- `broadcastToRoom` sends to one client. -/
  | visit {c env roomId msg t todo next}
      (hpc : (h.client c).pc = .broadcast roomId msg (t :: todo) next)
      (hroom : (h.client t).roomID = roomId) (hne : t ≠ c) (hopen : (h.client t).closed = false) :
    Moves h (.advance c env)
      { h with
        client := update (update h.client t ((h.client t).push msg)) c
          { h.client c with pc := .broadcast roomId msg todo next } }
  | unregister {c env last} (hpc : (h.client c).pc = .unregister last)
      (hfree : h.hubHeld = false) :
    Moves h (.advance c env) ({ h with clients := eraseKey h.clients c }.goto c (.closeSend last))

variable {h : Hub}

theorem moves_goto {op : HubOp} {c : ClientRef} {pc : ReadPump}
    (ha : Act h c (h.client c) op { h.client c with pc } h.system) : Moves h op (h.goto c pc) :=
  .act ha

theorem moves_sendToClient {c : ClientRef} {env : HubEnv} {msg : Message} {next : ReadPump}
    (hopen : (h.client c).closed = false →
      Act h c (h.client c) (.advance c env) { (h.client c).push msg with pc := next } h.system)
    (hpanic : next.panic (h.client c) = (h.client c).handleLeave true)
    (hpc : (∃ p existing, (h.client c).pc = .joined p existing) ∨
      ∃ msg, (h.client c).pc = .reply msg) :
    Moves h (.advance c env) (h.sendToClient c msg next) := by
  unfold sendToClient
  split
  · rename_i hclosed
    rw [hpanic]
    exact moves_goto (.panic hpc hclosed)
  · rename_i hclosed
    exact .act (hopen (by simpa using hclosed))

theorem moves_message (c : ClientRef) (g : GenerateAnswer) (frame : Frame)
    (hpc : (h.client c).pc = .readMessage) :
    Moves h (.message c g frame) (h.handleMessage c g frame) := by
  cases frame with
  | invalid => exact .act (.answer hpc trivial rfl)
  | join roomId username =>
    simp only [handleMessage, Manager.getRoom]
    cases hr : h.system.manager.rooms roomId with
    | none => exact .act (.answer hpc trivial rfl)
    | some room => exact moves_goto (.join hpc hr)
  | offer sdp recvMids =>
    refine .act (.answer hpc ?_ rfl)
    split <;> trivial
  | leave => exact moves_goto (.leave hpc)
  | unknown => exact .stay fun _ _ he => by cases he

theorem moves_wait (c : ClientRef) (env : HubEnv) (hwait : h.Waits (h.client c).pc) :
    Moves h (.advance c env) h :=
  .stay fun _ _ he => by cases he; exact hwait

theorem moves_advance (c : ClientRef) (env : HubEnv) :
    Moves h (.advance c env) (h.advance c env) := by
  cases hpc : (h.client c).pc with
  | readMessage => simp only [advance, hpc]; exact moves_wait c env (by rw [hpc]; trivial)
  | ended => simp only [advance, hpc]; exact moves_wait c env (by rw [hpc]; trivial)
  | addPeer roomId username room => simp only [advance, hpc]; exact .act (.addPeer hpc)
  | insert room p =>
    simp only [advance, hpc]
    split
    · rename_i hheld
      exact moves_wait c env (by rw [hpc]; exact hheld)
    · rename_i hfree
      exact .act (.insert hpc (by simpa using hfree))
  | setPeerID p => simp only [advance, hpc]; exact .act (.setPeerID hpc)
  | setRoomID p => simp only [advance, hpc]; exact .act (.setRoomID hpc)
  | setUsername p => simp only [advance, hpc]; exact .act (.setUsername hpc)
  | scan p => simp only [advance, hpc]; exact moves_goto (.scan hpc)
  | joined p existing =>
    simp only [advance, hpc]
    exact moves_sendToClient (fun hopen => .joined hpc hopen) rfl (.inl ⟨p, existing, hpc⟩)
  | reply msg =>
    simp only [advance, hpc]
    exact moves_sendToClient (fun hopen => .reply hpc hopen) rfl (.inr ⟨msg, hpc⟩)
  | renegotiate p => simp only [advance, hpc]; exact moves_goto (.renegotiate hpc)
  | broadcast roomId msg todo next =>
    cases todo with
    | nil => simp only [advance, hpc]; exact moves_goto (.sent hpc)
    | cons t todo =>
      simp only [advance, hpc, broadcastOne]
      split
      · rename_i hroom
        split
        · rename_i hclosed
          exact moves_goto (.sendPanic hpc hroom.1 hroom.2 hclosed)
        · rename_i hclosed
          simp only [goto, modifyClient, Function.update_of_ne (Ne.symm hroom.2)]
          exact .visit hpc hroom.1 hroom.2 (by simpa using hclosed)
      · rename_i hskip
        exact moves_goto (.skip hpc hskip)
  | setupConsumers roomId =>
    simp only [advance, hpc]
    split
    · exact moves_goto (.setupConsumers hpc (.inl rfl))
    · exact moves_goto (.setupConsumers hpc (.inr ⟨_, rfl⟩))
  | collect room => simp only [advance, hpc]; exact moves_goto (.collect hpc)
  | addConsumer room todo =>
    cases todo with
    | nil =>
      simp only [advance, hpc]
      exact .act (.addConsumer (m := h.system.media) hpc rfl (.inl rfl))
    | cons call todo =>
      simp only [advance, hpc]
      refine .act (.addConsumer hpc (MediaServer.samePool_addConsumer ..).peers ?_)
      split
      · exact .inr ⟨todo, rfl⟩
      · exact .inl rfl
  | getRoom last =>
    simp only [advance, hpc, Manager.getRoom]
    cases hr : h.system.manager.rooms (h.client c).roomID with
    | none => exact moves_goto (.noRoom hpc hr)
    | some room => exact moves_goto (.getRoom hpc hr)
  | delete room last =>
    simp only [advance, hpc]
    split
    · rename_i hheld
      exact moves_wait c env (by rw [hpc]; exact hheld)
    · exact .act (.delete hpc)
  | deleteRoom last => simp only [advance, hpc]; exact .act (.deleteRoom hpc)
  | removePeer last => simp only [advance, hpc]; exact .act (.removePeer hpc)
  | peerLeft last => simp only [advance, hpc]; exact moves_goto (.peerLeft hpc)
  | unregister last =>
    simp only [advance, hpc]
    split
    · rename_i hheld
      exact moves_wait c env (by rw [hpc]; exact hheld)
    · rename_i hfree
      exact .unregister hpc (by simpa using hfree)
  | closeSend last => simp only [advance, hpc]; exact .act (.closeSend hpc)

/-- Every step of the hub is one of the list. -/
theorem moves (h : Hub) (op : HubOp) : Moves h op (h.step op) := by
  cases op with
  | createRoom name k => exact .createRoom rfl
  | serveWS =>
    simp only [step, serveWS]
    split
    · exact .stay fun _ _ he => by cases he
    · rename_i hfree
      exact .serveWS (by simpa using hfree)
  | message c g frame =>
    simp only [step]
    split
    · rename_i hpc
      exact moves_message c g frame hpc
    · exact .stay fun _ _ he => by cases he
  | hangUp c =>
    simp only [step]
    split
    · rename_i hpc
      exact moves_goto (.hangUp hpc)
    · exact .stay fun _ _ he => by cases he
  | advance c env => exact moves_advance c env
  | writeMessage c =>
    simp only [step, writeMessage]
    split
    · exact .stay fun _ _ he => by cases he
    · rename_i hsend
      exact .write hsend
  | packet data ep env => exact .packet _ (MediaServer.onPacket_peers ..)

/-- What a step makes of the client `t`. -/
inductive Turns (h : Hub) (op : HubOp) (t : ClientRef) : Client → Prop
  | same : Turns h op t (h.client t)
  | born (ht : t = h.nextClient) : Turns h op t { pc := .readMessage }
  | wrote {msg rest} (hsend : (h.client t).send = msg :: rest) :
    Turns h op t { h.client t with send := rest, written := (h.client t).written ++ [msg] }
  | acted {x s} (ha : Act h t (h.client t) op x s) : Turns h op t x
  /-- A broadcast of another client visits it. -/
  | told {c env roomId msg todo next} (hop : op = .advance c env)
      (hpc : (h.client c).pc = .broadcast roomId msg (t :: todo) next)
      (hroom : (h.client t).roomID = roomId) (hne : t ≠ c) (hopen : (h.client t).closed = false) :
    Turns h op t ((h.client t).push msg)
  | tells {env roomId msg u todo next} (hop : op = .advance t env)
      (hpc : (h.client t).pc = .broadcast roomId msg (u :: todo) next) :
    Turns h op t { h.client t with pc := .broadcast roomId msg todo next }
  | unregisters {last} (hpc : (h.client t).pc = .unregister last) :
    Turns h op t { h.client t with pc := .closeSend last }

theorem turns (h : Hub) (op : HubOp) (t : ClientRef) : Turns h op t ((h.step op).client t) := by
  have hmoves := h.moves op
  generalize h.step op = h' at hmoves
  cases hmoves with
  | stay => exact .same
  | createRoom => exact .same
  | packet => exact .same
  | serveWS =>
    by_cases ht : t = h.nextClient
    · subst ht
      simp only [Function.update_self]
      exact .born rfl
    · simp only [Function.update_of_ne ht]
      exact .same
  | @write c msg rest hsend =>
    by_cases ht : t = c
    · subst ht
      simp only [Function.update_self]
      exact .wrote hsend
    · simp only [Function.update_of_ne ht]
      exact .same
  | @act _ c x s ha =>
    by_cases ht : t = c
    · subst ht
      simp only [Function.update_self]
      exact .acted ha
    · simp only [Function.update_of_ne ht]
      exact .same
  | @visit c env roomId msg u todo next hpc hroom hne hopen =>
    by_cases ht : t = c
    · subst ht
      simp only [Function.update_self]
      exact .tells rfl hpc
    · simp only [Function.update_of_ne ht]
      by_cases hu : t = u
      · subst hu
        simp only [Function.update_self]
        exact .told rfl hpc hroom hne hopen
      · simp only [Function.update_of_ne hu]
        exact .same
  | @unregister c env last hpc hfree =>
    by_cases ht : t = c
    · subst ht
      simp only [goto, modifyClient_self]
      exact .unregisters hpc
    · simp only [goto, modifyClient_ne ht]
      exact .same

theorem step_visit {c t : ClientRef} {env : HubEnv} {roomId : String} {msg : Message}
    {todo : List ClientRef} {next : ReadPump}
    (hpc : (h.client c).pc = .broadcast roomId msg (t :: todo) next)
    (hroom : (h.client t).roomID = roomId) (hne : t ≠ c) (hopen : (h.client t).closed = false) :
    (h.step (.advance c env)).client t = (h.client t).push msg := by
  have hvisit : (h.client t).roomID = roomId ∧ t ≠ c := ⟨hroom, hne⟩
  simp only [Hub.step, advance, hpc, broadcastOne, if_pos hvisit, hopen, goto, modifyClient]
  exact (Function.update_of_ne hne _ _).trans (Function.update_self _ _ _)

end Hub

end Namecon
