import BitprimNetwork.Proxy.ReadCycle
import BitprimNetwork.Protocols.Handshake
import BitprimNetwork.Sessions.Registration

/-!
# A session's channel, frame by frame

Once a channel has started, `session::handle_starting` attaches the version protocol, and the
channel starts its read cycle. From then on the cycle reads the peer's frames one after another,
and `message_subscriber::load` hands each decoded message to its subscribers. Version and verack
messages (with blocks and transactions) are *invoked*: their handlers run before `load` returns,
so before the next frame is read. Every other message is *relayed*: its handlers run at some
later point.

The version protocol's handlers run inside the read cycle, and so does everything that follows
when its join calls the session's handler: `session::handle_handshake`, `handshake_complete`,
`handle_start`, and the session's `handle_channel_start`, which attaches the protocols of an
established channel (ping, reject from bip61, and address or seed). Each of them subscribes to
its messages in its `start`. Nothing on that path dispatches to another thread.

`SessionChannel` is the state of the channel's subscribers: the version protocol, the start
sequence of `Registration`, the subscriptions of the attached protocols, and the relayed messages
whose handlers have not run. `ChannelRun` puts it behind the proxy of the read cycle and records
the version each frame is read at. Its events are the peer's frames, the later run of a relayed
message's handlers (in any order), the expiry of the handshake timer, and a stop from elsewhere.

For every run (`frames_after_version`):
* every frame read after the peer's version was accepted is decoded at
  `min(peer.value, protocol_maximum)`, the peer staying the same;
* the frame during which the start sequence succeeds is a version or verack frame, and once it
  has been handled the attached protocols' subscriptions all stand. Those that renew stand as
  long as the channel runs, so no message of theirs is dropped.
-/

namespace Network

open Async

/-- `version::level::bip31`: from this version a ping carries a nonce that its pong returns. -/
def levelBip31 : ℕ := 60001

/-- `version::level::bip61`: from this version peers send reject messages. -/
def levelBip61 : ℕ := 70002

/-- The sessions that register channels and attach protocols to them. -/
inductive SessionType where
  | inbound
  | outbound
  | manual
  | seed
  deriving DecidableEq, Repr

/-- How each session runs the start sequence: the inbound and outbound sessions override a step,
the manual and seed sessions keep `session`'s. -/
def SessionType.kind : SessionType → SessionKind
  | .inbound => .inbound
  | .outbound => .outbound
  | .manual | .seed => .base

/-- A message subscription of a protocol attached to an established channel. -/
structure Subscription where
  /-- The message type subscribed to. -/
  type : MessageType
  /-- The handler returns `true`, renewing the subscription for the next message. -/
  renews : Bool
  deriving DecidableEq, Repr

/-! ## The protocols attached after the handshake -/

section Attach

variable (version capacity : ℕ)

/-- `protocol_ping_31402::start`, or `protocol_ping_60001::start` from bip31: a renewing ping
subscription and, from bip31, the one-shot pong subscription of the ping that the simulated
first heartbeat sends. -/
def pingSubscriptions : List Subscription :=
  if levelBip31 ≤ version then [⟨.ping, true⟩, ⟨.pong, false⟩] else [⟨.ping, true⟩]

/-- `protocol_reject_70002::start`, attached from bip61. -/
def rejectSubscriptions : List Subscription :=
  if levelBip61 ≤ version then [⟨.reject, true⟩] else []

/-- `protocol_address_31402::start`: without a host pool it neither asks for addresses nor
handles them; otherwise it renews its address subscription and answers one `get_address`. -/
def addressSubscriptions : List Subscription :=
  if capacity = 0 then [] else [⟨.address, true⟩, ⟨.getAddress, false⟩]

/-- `protocol_seed_31402::start`: without a host pool the seeding completes with `not_found`
and stops the channel; otherwise it awaits one address message. -/
def seedStart : List Subscription × Option Code :=
  if capacity = 0 then ([], some .notFound) else ([⟨.address, false⟩], none)

/-- The session's `attach_protocols` on a channel at negotiated version `version`: the
subscriptions its protocols make, and the code a protocol stops the channel with, if any. -/
def attachProtocols : SessionType → List Subscription × Option Code
  | .seed =>
    (pingSubscriptions version ++ rejectSubscriptions version ++ (seedStart capacity).1,
      (seedStart capacity).2)
  | .inbound | .outbound | .manual =>
    (pingSubscriptions version ++ rejectSubscriptions version ++ addressSubscriptions capacity,
      none)

end Attach

/-- A decoded message as the channel's subscribers read it: the version protocol reads version
and reject messages field by field, and every other message is opaque here. -/
inductive PeerMessage where
  | version (m : VersionMessage)
  | reject (r : RejectMessage)
  | other
  deriving DecidableEq, Repr

/-- A channel of a session, as the session registers it. -/
structure ChannelSetup where
  /-- The network settings. -/
  settings : Settings
  /-- The protocol levels of bitprim-core. -/
  levels : Levels
  /-- The services the session's version protocol declares. -/
  ownServices : ℕ
  /-- The services it requires of the peer. -/
  minimumServices : ℕ
  /-- The session that registers the channel. -/
  session : SessionType
  /-- The channel. -/
  channel : Channel
  /-- `host_pool_capacity`. -/
  hostPoolCapacity : ℕ
  /-- The channel collections of `p2p` when the channel registers. -/
  network : P2p

/-- `attach_handshake_protocols`: the channel starts at `protocol_maximum`, and from bip61 on
the version protocol is `protocol_version_70002`. -/
def ChannelSetup.versionParams (C : ChannelSetup) : VersionParams :=
  ⟨C.ownServices, C.minimumServices, decide (levelBip61 ≤ C.settings.protocolMaximum)⟩

/-- The subscribers of a session's channel. -/
structure SessionChannel where
  /-- The version protocol. -/
  handshake : VersionProtocol
  /-- The channel's start sequence. -/
  registration : Registration
  /-- The subscriptions of the protocols attached after the handshake. -/
  subscriptions : List Subscription
  /-- Relayed messages whose handlers have not run yet. -/
  queued : List (MessageType × PeerMessage)
  /-- Relayed messages that no handler took. -/
  dropped : List (MessageType × PeerMessage)

namespace SessionChannel

variable (C : ChannelSetup)

/-- The version protocol calls its handler with `ec`. `session::handle_handshake` passes the
failure on, or the code of `handshake_complete`, and `handle_start` ends the start sequence with
it: a failure stops the channel, and a success reaches the session's `handle_channel_start`,
which attaches the protocols at the version the channel has negotiated. A sequence that has
ended already is not called again. -/
def handshakeDone (st : SessionChannel) (ec : Code) : SessionChannel × Option Code :=
  if st.registration.stage = .handshaking then
    let code :=
      (handleHandshake (Registration.complete C.session.kind C.channel st.handshake.peer)
        st.registration.network ec).1
    let st := { st with
      registration :=
        st.registration.step C.session.kind C.channel (.handshake ec st.handshake.peer) }
    if code.isError then (st, some code)
    else
      let a := attachProtocols st.handshake.negotiated C.hostPoolCapacity C.session
      ({ st with subscriptions := st.subscriptions ++ a.1 }, a.2)
  else (st, none)

/-- An event reaches the version protocol. If its join calls the session's handler, the
session's continuation runs before the protocol's handler returns; the code is the one the
channel is stopped with, if any. -/
def handshakeEvent (st : SessionChannel) (e : VersionEvent) : SessionChannel × Option Code :=
  let q := VersionProtocol.step C.settings C.levels C.versionParams st.handshake e
  match q.completions.drop st.handshake.completions.length with
  | ec :: _ => handshakeDone C { st with handshake := q } ec
  | [] => ({ st with handshake := q }, none)

/-- The invoked handlers of `message_subscriber::load`: the version protocol's version handler,
which sets the channel's negotiated version when it accepts the peer, and its verack handler.
No protocol of the library subscribes to blocks or transactions. -/
def invoke (st : SessionChannel) (type : MessageType) (msg : PeerMessage) :
    SessionChannel × Effect :=
  if type = .verack then
    let r := handshakeEvent C st .verack
    (r.1, ⟨none, r.2⟩)
  else if type = .version then
    match msg with
    | .version m =>
      let r := handshakeEvent C st (.version m)
      (r.1, ⟨if VersionProtocol.acceptsVersion C.settings C.levels C.versionParams st.handshake m
          then some (min m.value C.settings.protocolMaximum) else none, r.2⟩)
    | _ => (st, ⟨none, none⟩)
  else (st, ⟨none, none⟩)

/-- A relayed message waits for its handlers. -/
def relay (st : SessionChannel) (type : MessageType) (msg : PeerMessage) : SessionChannel :=
  { st with queued := st.queued ++ [(type, msg)] }

/-- The channel's subscribers, as the read cycle sees them. -/
def subscribers : Subscribers SessionChannel PeerMessage where
  invoke st _ type msg := invoke C st type msg
  relay := relay

/-- Some handler takes a relayed message of type `type`: an attached protocol's, or the version
protocol's reject handler. -/
def takes (st : SessionChannel) (type : MessageType) : Bool :=
  st.subscriptions.any (·.type == type) || (type == .reject && st.handshake.rejectSubscribed)

/-- The attached protocols' handlers of the `i`-th waiting message have run: it leaves the
queue, the one-shot subscriptions of its type end, and it is dropped if no handler took it. -/
def handleRelayed (st : SessionChannel) (i : ℕ) (type : MessageType) (msg : PeerMessage) :
    SessionChannel :=
  { st with
    queued := st.queued.eraseIdx i
    subscriptions := st.subscriptions.filter fun sub ↦ sub.type != type || sub.renews
    dropped := if takes st type then st.dropped else st.dropped ++ [(type, msg)] }

/-- The handlers of the `i`-th waiting relayed message run; a reject also reaches the version
protocol. -/
def deliver (st : SessionChannel) (i : ℕ) : SessionChannel × Option Code :=
  match st.queued[i]? with
  | none => (st, none)
  | some (type, msg) =>
    match msg with
    | .reject r =>
      if type = .reject then handshakeEvent C (handleRelayed st i type msg) (.reject r)
      else (handleRelayed st i type msg, none)
    | _ => (handleRelayed st i type msg, none)

/-! ## What each handler does -/

variable {C}

@[simp] theorem handshakeDone_handshake (st : SessionChannel) (ec : Code) :
    (handshakeDone C st ec).1.handshake = st.handshake := by
  unfold handshakeDone
  dsimp only
  split_ifs <;> rfl

@[simp] theorem handshakeDone_queued (st : SessionChannel) (ec : Code) :
    (handshakeDone C st ec).1.queued = st.queued := by
  unfold handshakeDone
  dsimp only
  split_ifs <;> rfl

@[simp] theorem handshakeDone_dropped (st : SessionChannel) (ec : Code) :
    (handshakeDone C st ec).1.dropped = st.dropped := by
  unfold handshakeDone
  dsimp only
  split_ifs <;> rfl

theorem handshakeDone_of_ne {st : SessionChannel} (h : st.registration.stage ≠ .handshaking)
    (ec : Code) : handshakeDone C st ec = (st, none) := by
  rw [handshakeDone, if_neg h]

/-- The handshake's end moves the start sequence only from waiting for it to ended. -/
theorem handshakeDone_registration (st : SessionChannel) (ec : Code) :
    (handshakeDone C st ec).1.registration = st.registration ∨
      (st.registration.stage = .handshaking ∧
        (handshakeDone C st ec).1.registration.stage = .ended) := by
  by_cases h : st.registration.stage = .handshaking
  · right
    refine ⟨h, ?_⟩
    have hend := (Registration.step_handshake_of_handshaking C.session.kind C.channel h ec
      st.handshake.peer).2
    unfold handshakeDone
    dsimp only
    split_ifs <;> exact hend
  · left
    rw [handshakeDone_of_ne h]

/-- **The session's continuation on success.** When the handshake's end takes a start sequence
that has run no handler to success, the handshake succeeded and the protocols attached at the
channel's negotiated version have subscribed. -/
theorem handshakeDone_success {st : SessionChannel} (h0 : st.registration.started = [])
    {ec : Code} (hs : (handshakeDone C st ec).1.registration.started = [.success]) :
    ec = .success ∧
      (handshakeDone C st ec).1.subscriptions =
        st.subscriptions ++
          (attachProtocols st.handshake.negotiated C.hostPoolCapacity C.session).1 ∧
      (handshakeDone C st ec).2 =
        (attachProtocols st.handshake.negotiated C.hostPoolCapacity C.session).2 := by
  unfold handshakeDone at hs ⊢
  dsimp only at hs ⊢
  split_ifs at hs ⊢ with hstage herr
  · -- `handle_started` got the failure, not success.
    rw [(Registration.step_handshake_of_handshaking _ _ hstage _ _).1, h0] at hs
    simp only [List.nil_append, List.cons.injEq, and_true] at hs
    rw [hs] at herr
    exact absurd herr (by decide)
  · exact ⟨handleHandshake_eq_success (by simpa using herr), rfl, rfl⟩
  · rw [h0] at hs
    exact absurd hs nofun

@[simp] theorem handshakeEvent_handshake (st : SessionChannel) (e : VersionEvent) :
    (handshakeEvent C st e).1.handshake =
      VersionProtocol.step C.settings C.levels C.versionParams st.handshake e := by
  simp only [handshakeEvent]
  split <;> simp

@[simp] theorem handshakeEvent_queued (st : SessionChannel) (e : VersionEvent) :
    (handshakeEvent C st e).1.queued = st.queued := by
  simp only [handshakeEvent]
  split <;> simp

@[simp] theorem handshakeEvent_dropped (st : SessionChannel) (e : VersionEvent) :
    (handshakeEvent C st e).1.dropped = st.dropped := by
  simp only [handshakeEvent]
  split <;> simp

theorem handshakeEvent_registration (st : SessionChannel) (e : VersionEvent) :
    (handshakeEvent C st e).1.registration = st.registration ∨
      (st.registration.stage = .handshaking ∧
        (handshakeEvent C st e).1.registration.stage = .ended) := by
  simp only [handshakeEvent]
  split
  · exact handshakeDone_registration _ _
  · exact .inl rfl

/-- A start sequence that has ended is not touched by what reaches the version protocol. -/
theorem handshakeEvent_of_ne {st : SessionChannel} (h : st.registration.stage ≠ .handshaking)
    (e : VersionEvent) :
    handshakeEvent C st e =
      ({ st with handshake :=
          VersionProtocol.step C.settings C.levels C.versionParams st.handshake e }, none) := by
  simp only [handshakeEvent]
  split
  · refine handshakeDone_of_ne ?_ _
    exact h
  · rfl

theorem handshakeEvent_success {st : SessionChannel} (h0 : st.registration.started = [])
    {e : VersionEvent} (hs : (handshakeEvent C st e).1.registration.started = [.success]) :
    .success ∈ (VersionProtocol.step C.settings C.levels C.versionParams st.handshake e).completions ∧
      (handshakeEvent C st e).1.subscriptions = st.subscriptions ++
        (attachProtocols (VersionProtocol.step C.settings C.levels C.versionParams st.handshake
          e).negotiated C.hostPoolCapacity C.session).1 ∧
      (handshakeEvent C st e).2 =
        (attachProtocols (VersionProtocol.step C.settings C.levels C.versionParams st.handshake
          e).negotiated C.hostPoolCapacity C.session).2 := by
  simp only [handshakeEvent] at hs ⊢
  split at hs
  next ec rest hdrop =>
    obtain ⟨hec, hsub, heff⟩ := handshakeDone_success (by exact h0) hs
    refine ⟨?_, hsub, heff⟩
    -- The join's call is among the protocol's completions.
    rw [← hec]
    exact List.mem_of_mem_drop (hdrop ▸ List.mem_cons_self)
  next hdrop =>
    rw [h0] at hs
    exact absurd hs nofun

/-- **The invoked handlers.** A decoded message reaches the version protocol as a verack or a
version event, the latter setting the channel's version when the peer is accepted, or reaches no
handler. -/
theorem invoke_cases (st : SessionChannel) (type : MessageType) (msg : PeerMessage) :
    invoke C st type msg = (st, ⟨none, none⟩) ∨
      (type = .verack ∧ invoke C st type msg =
        ((handshakeEvent C st .verack).1, ⟨none, (handshakeEvent C st .verack).2⟩)) ∨
      ∃ m, type = .version ∧ invoke C st type msg =
        ((handshakeEvent C st (.version m)).1,
          ⟨if VersionProtocol.acceptsVersion C.settings C.levels C.versionParams st.handshake m
            then some (min m.value C.settings.protocolMaximum) else none,
            (handshakeEvent C st (.version m)).2⟩) := by
  unfold invoke
  split_ifs with hverack hversion
  · exact .inr (.inl ⟨hverack, rfl⟩)
  · cases msg with
    | version m => exact .inr (.inr ⟨m, hversion, rfl⟩)
    | reject r => exact .inl rfl
    | other => exact .inl rfl
  · exact .inl rfl

/-- The version the invoked handlers leave the channel at is the one the protocol records. -/
theorem invoke_negotiated (st : SessionChannel) (type : MessageType) (msg : PeerMessage) :
    (invoke C st type msg).2.setVersion.getD st.handshake.negotiated =
      (invoke C st type msg).1.handshake.negotiated := by
  rcases invoke_cases st type msg with h | ⟨-, h⟩ | ⟨m, -, h⟩ <;> rw [h]
  · rfl
  · rw [handshakeEvent_handshake,
      (VersionProtocol.step_of_ne_version _ _ _ (e := .verack) (fun _ ↦ nofun) _).1]
    rfl
  · rw [handshakeEvent_handshake, (VersionProtocol.step_version _ _ _ _ m).1]
    split_ifs <;> rfl

theorem invoke_handshake (st : SessionChannel) (type : MessageType) (msg : PeerMessage) :
    (invoke C st type msg).1.handshake = st.handshake ∨
      ∃ e, (invoke C st type msg).1.handshake =
        VersionProtocol.step C.settings C.levels C.versionParams st.handshake e := by
  rcases invoke_cases st type msg with h | ⟨-, h⟩ | ⟨m, -, h⟩ <;> rw [h]
  · exact .inl rfl
  · exact .inr ⟨.verack, handshakeEvent_handshake _ _⟩
  · exact .inr ⟨.version m, handshakeEvent_handshake _ _⟩

@[simp] theorem handleRelayed_handshake (st : SessionChannel) (i : ℕ) (type : MessageType)
    (msg : PeerMessage) : (handleRelayed st i type msg).handshake = st.handshake := rfl

@[simp] theorem handleRelayed_registration (st : SessionChannel) (i : ℕ) (type : MessageType)
    (msg : PeerMessage) : (handleRelayed st i type msg).registration = st.registration := rfl

/-- A waiting message leaves every renewing subscription standing. -/
theorem mem_handleRelayed {st : SessionChannel} {sub : Subscription} (h : sub ∈ st.subscriptions)
    (hr : sub.renews) (i : ℕ) (type : MessageType) (msg : PeerMessage) :
    sub ∈ (handleRelayed st i type msg).subscriptions := by
  simp [handleRelayed, h, hr]

/-- **The relayed handlers.** They run the attached protocols' handlers of one waiting message
and, for a reject, the version protocol's. -/
theorem deliver_cases (st : SessionChannel) (i : ℕ) :
    (st.queued[i]? = none ∧ deliver C st i = (st, none)) ∨
      ∃ type msg, st.queued[i]? = some (type, msg) ∧
        (deliver C st i = (handleRelayed st i type msg, none) ∨
          ∃ r, deliver C st i = handshakeEvent C (handleRelayed st i type msg) (.reject r)) := by
  unfold deliver
  split
  · next hi => exact .inl ⟨hi, rfl⟩
  · next type msg hi =>
    refine .inr ⟨type, msg, hi, ?_⟩
    split
    · split_ifs
      · exact .inr ⟨_, rfl⟩
      · exact .inl rfl
    · exact .inl rfl

/-- A message that some handler takes is not dropped. -/
theorem deliver_dropped {st : SessionChannel} {i : ℕ} {type : MessageType} {msg : PeerMessage}
    (hi : st.queued[i]? = some (type, msg)) (ht : takes st type) :
    (deliver C st i).1.dropped = st.dropped := by
  have hd : (handleRelayed st i type msg).dropped = st.dropped := by
    simp [handleRelayed, ht]
  rcases deliver_cases (C := C) st i with ⟨hi', -⟩ | ⟨type', msg', hi', h | ⟨r, h⟩⟩
  · rw [hi] at hi'
    exact absurd hi' nofun
  all_goals
    rw [hi, Option.some.injEq, Prod.mk.injEq] at hi'
    obtain ⟨rfl, rfl⟩ := hi'
    rw [h]
  · exact hd
  · rw [handshakeEvent_dropped, hd]

@[simp] theorem subscribers_invoke (st : SessionChannel) (v : ℕ) (type : MessageType)
    (msg : PeerMessage) : (subscribers C).invoke st v type msg = invoke C st type msg := rfl

@[simp] theorem subscribers_relay (st : SessionChannel) (type : MessageType) (msg : PeerMessage) :
    (subscribers C).relay st type msg = relay st type msg := rfl

@[simp] theorem relay_registration (st : SessionChannel) (type : MessageType)
    (msg : PeerMessage) : (relay st type msg).registration = st.registration := rfl

theorem takes_of_mem {st : SessionChannel} {sub : Subscription} (h : sub ∈ st.subscriptions) :
    takes st sub.type := by
  simp only [takes, Bool.or_eq_true, List.any_eq_true, beq_iff_eq]
  exact .inl ⟨sub, h, rfl⟩

theorem deliver_handshake (st : SessionChannel) (i : ℕ) :
    (deliver C st i).1.handshake = st.handshake ∨
      ∃ r, (deliver C st i).1.handshake =
        VersionProtocol.step C.settings C.levels C.versionParams st.handshake (.reject r) := by
  rcases deliver_cases (C := C) st i with ⟨-, h⟩ | ⟨type, msg, -, h | ⟨r, h⟩⟩ <;> rw [h]
  · exact .inl rfl
  · exact .inl rfl
  · exact .inr ⟨r, handshakeEvent_handshake _ _⟩

theorem deliver_negotiated (st : SessionChannel) (i : ℕ) :
    (deliver C st i).1.handshake.negotiated = st.handshake.negotiated := by
  rcases deliver_handshake (C := C) st i with h | ⟨r, h⟩ <;> rw [h]
  exact (VersionProtocol.step_of_ne_version _ _ _ (e := .reject r) (fun _ ↦ nofun) _).1

theorem invoke_registration (st : SessionChannel) (type : MessageType) (msg : PeerMessage) :
    (invoke C st type msg).1.registration = st.registration ∨
      (st.registration.stage = .handshaking ∧
        (invoke C st type msg).1.registration.stage = .ended) := by
  rcases invoke_cases st type msg with h | ⟨-, h⟩ | ⟨m, -, h⟩ <;> rw [h]
  · exact .inl rfl
  · exact handshakeEvent_registration _ _
  · exact handshakeEvent_registration _ _

theorem deliver_registration (st : SessionChannel) (i : ℕ) :
    (deliver C st i).1.registration = st.registration ∨
      (st.registration.stage = .handshaking ∧ (deliver C st i).1.registration.stage = .ended) := by
  rcases deliver_cases (C := C) st i with ⟨-, h⟩ | ⟨type, msg, -, h | ⟨r, h⟩⟩ <;> rw [h]
  · exact .inl rfl
  · exact .inl rfl
  · exact handshakeEvent_registration _ _

/-- After the start sequence has ended, the invoked handlers change no subscription. -/
theorem invoke_subscriptions_of_ne {st : SessionChannel}
    (h : st.registration.stage ≠ .handshaking) (type : MessageType) (msg : PeerMessage) :
    (invoke C st type msg).1.subscriptions = st.subscriptions := by
  rcases invoke_cases st type msg with he | ⟨-, he⟩ | ⟨m, -, he⟩ <;> rw [he]
  · rw [handshakeEvent_of_ne h]
  · rw [handshakeEvent_of_ne h]

/-- After the start sequence has ended, the relayed handlers end no renewing subscription. -/
theorem mem_deliver_of_ne {st : SessionChannel} (h : st.registration.stage ≠ .handshaking)
    {sub : Subscription} (hsub : sub ∈ st.subscriptions) (hr : sub.renews) (i : ℕ) :
    sub ∈ (deliver C st i).1.subscriptions := by
  rcases deliver_cases (C := C) st i with ⟨-, he⟩ | ⟨type, msg, -, he | ⟨r, he⟩⟩ <;> rw [he]
  · exact hsub
  · exact mem_handleRelayed hsub hr i type msg
  · rw [handshakeEvent_of_ne (by exact h)]
    exact mem_handleRelayed hsub hr i type msg

/-! ## The attachment, once the start sequence succeeds -/

section Attached

variable {st : SessionChannel}
  (hreach : ∃ es, st.handshake = run (VersionProtocol.step C.settings C.levels C.versionParams)
    (VersionProtocol.start C.settings C.versionParams) es)
  (hfix : VersionProtocol.PeerFixed C.settings st.handshake)
  (h0 : st.registration.started = [])
include hreach hfix h0

/-- An event that takes the version protocol's handler, and with it the start sequence, to
success has the peer's version accepted, and attaches the protocols at `min(peer.value,
protocol_maximum)`. -/
theorem handshakeEvent_attach {e : VersionEvent}
    (hs : (handshakeEvent C st e).1.registration.started = [.success]) :
    ∃ m, (handshakeEvent C st e).1.handshake.peer = some m ∧
      ∀ sub ∈ (attachProtocols (min m.value C.settings.protocolMaximum) C.hostPoolCapacity
        C.session).1, sub ∈ (handshakeEvent C st e).1.subscriptions := by
  obtain ⟨hsucc, hsub, -⟩ := handshakeEvent_success h0 hs
  obtain ⟨es, hes⟩ := hreach
  have hrun : VersionProtocol.step C.settings C.levels C.versionParams st.handshake e =
      run (VersionProtocol.step C.settings C.levels C.versionParams)
        (VersionProtocol.start C.settings C.versionParams) (es ++ [e]) := by
    rw [hes, run_concat]
  rw [hrun] at hsucc
  obtain ⟨m, hm⟩ := Handshake.peer_of_success C.settings C.levels C.versionParams hsucc
  rw [← hrun] at hm
  -- The protocol's record fixes the negotiated version the attachment reads.
  have hneg : (VersionProtocol.step C.settings C.levels C.versionParams st.handshake e).negotiated =
      min m.value C.settings.protocolMaximum := by
    rw [(VersionProtocol.peerFixed_step C.settings C.levels C.versionParams hfix e).negotiated, hm]
    rfl
  refine ⟨m, by rw [handshakeEvent_handshake]; exact hm, fun sub hsub' ↦ ?_⟩
  rw [hsub, hneg]
  exact List.mem_append_right _ hsub'

/-- Among the invoked handlers, only a version or a verack message can take the start sequence
to success. -/
theorem invoke_attach {type : MessageType} {msg : PeerMessage}
    (hs : (invoke C st type msg).1.registration.started = [.success]) :
    (type = .version ∨ type = .verack) ∧
      ∃ m, (invoke C st type msg).1.handshake.peer = some m ∧
        ∀ sub ∈ (attachProtocols (min m.value C.settings.protocolMaximum) C.hostPoolCapacity
          C.session).1, sub ∈ (invoke C st type msg).1.subscriptions := by
  rcases invoke_cases st type msg with h | ⟨hv, h⟩ | ⟨m, hv, h⟩ <;> rw [h] at hs ⊢
  · rw [h0] at hs
    exact absurd hs nofun
  · exact ⟨.inr hv, handshakeEvent_attach hreach hfix h0 hs⟩
  · exact ⟨.inl hv, handshakeEvent_attach hreach hfix h0 hs⟩

theorem deliver_attach {i : ℕ} (hs : (deliver C st i).1.registration.started = [.success]) :
    ∃ m, (deliver C st i).1.handshake.peer = some m ∧
      ∀ sub ∈ (attachProtocols (min m.value C.settings.protocolMaximum) C.hostPoolCapacity
        C.session).1, sub ∈ (deliver C st i).1.subscriptions := by
  rcases deliver_cases (C := C) st i with ⟨-, h⟩ | ⟨type, msg, -, h | ⟨r, h⟩⟩ <;> rw [h] at hs ⊢
  · rw [h0] at hs
    exact absurd hs nofun
  · rw [handleRelayed_registration, h0] at hs
    exact absurd hs nofun
  · -- The attached handlers of the reject have run; the version protocol's comes next.
    exact @handshakeEvent_attach C (handleRelayed st i type msg) hreach hfix h0 _ hs

end Attached

/-! ## The codes the handlers stop the channel with -/

/-- A protocol stops the channel at its attachment only when the seeding cannot start. -/
theorem attachProtocols_stop {version capacity : ℕ} {t : SessionType} {ec : Code}
    (h : (attachProtocols version capacity t).2 = some ec) : ec = .notFound := by
  cases t with
  | seed =>
    unfold attachProtocols seedStart at h
    split_ifs at h
    cases h
    rfl
  | inbound => cases h
  | outbound => cases h
  | manual => cases h

theorem handshakeDone_stop {st : SessionChannel} {ec x : Code} (h : (handshakeDone C st ec).2 = some x) :
    x.isError := by
  unfold handshakeDone at h
  dsimp only at h
  split_ifs at h with hstage hcode
  · -- `handle_start` stops the channel with the failed start code.
    cases h
    exact hcode
  · rw [attachProtocols_stop h]
    rfl

theorem handshakeEvent_stop {st : SessionChannel} {e : VersionEvent} {x : Code}
    (h : (handshakeEvent C st e).2 = some x) : x.isError := by
  unfold handshakeEvent at h
  dsimp only at h
  split at h
  · exact handshakeDone_stop h
  · cases h

theorem deliver_stop {st : SessionChannel} {i : ℕ} {x : Code} (h : (deliver C st i).2 = some x) :
    x.isError := by
  rcases deliver_cases (C := C) st i with ⟨-, hd⟩ | ⟨type, msg, -, hd | ⟨r, hd⟩⟩ <;> rw [hd] at h
  · cases h
  · cases h
  · exact handshakeEvent_stop h

/-- The version protocol's invoked handlers stop the channel only with failures. -/
theorem subscribers_stopsOnFailure : (subscribers C).StopsOnFailure := by
  intro st v type msg x h
  rw [subscribers_invoke] at h
  rcases invoke_cases (C := C) st type msg with hi | ⟨-, hi⟩ | ⟨m, -, hi⟩ <;> rw [hi] at h
  · cases h
  · exact handshakeEvent_stop h
  · exact handshakeEvent_stop h

end SessionChannel

/-- A frame the read cycle read: its type, the version its payload is decoded at, and the peer
version the channel had accepted by then. -/
structure FrameRead where
  /-- The message type of the heading. -/
  type : MessageType
  /-- The channel's negotiated version when the frame was read. -/
  version : ℕ
  /-- The channel's peer version when the frame was read. -/
  peer : Option VersionMessage
  deriving DecidableEq, Repr

/-- A session's channel from the start of its read cycle. -/
structure ChannelRun where
  /-- The proxy, with the subscribers behind it. -/
  proxy : Proxy SessionChannel PeerMessage
  /-- The frames read, in order. -/
  reads : List FrameRead

/-- What happens to a channel. -/
inductive ChannelEvent where
  /-- The read cycle reads a frame of the peer that has fully arrived. -/
  | frame (head : Heading) (payload : List UInt8)
  /-- The handlers of the `i`-th waiting relayed message run. -/
  | deliver (i : ℕ)
  /-- The handshake timer expires. -/
  | timer
  /-- Something outside the read cycle stops the channel with `ec`. -/
  | stop (ec : Code)

namespace ChannelRun

variable (w : Wire PeerMessage) (cfg : ProxySettings) (C : ChannelSetup)

/-- The channel has started and the session has attached its version protocol; the read cycle
starts at `protocol_maximum`. -/
def start : ChannelRun where
  proxy :=
    { stopped := false
      version := C.settings.protocolMaximum
      stops := []
      delivered := []
      subscribers :=
        { handshake := VersionProtocol.start C.settings C.versionParams
          registration :=
            (Registration.register C.session.kind C.channel false C.network).step
              C.session.kind C.channel (.channelStart .success)
          subscriptions := []
          queued := []
          dropped := [] } }
  reads := []

/-- Apply what handlers run outside the read cycle asked of the channel. -/
def handled (sys : ChannelRun) (r : SessionChannel × Option Code) : ChannelRun :=
  { sys with proxy := { sys.proxy with subscribers := r.1 }.apply ⟨none, r.2⟩ }

/-- One event. A stopped channel reads nothing more, and its message handlers have all been
called with `channel_stopped` by `proxy::stop`. -/
def step (sys : ChannelRun) : ChannelEvent → ChannelRun
  | .frame head payload =>
    if sys.proxy.stopped then sys
    else
      { proxy := readFrame w cfg (SessionChannel.subscribers C) sys.proxy head payload
        reads := sys.reads ++
          [⟨head.type, sys.proxy.version, sys.proxy.subscribers.handshake.peer⟩] }
  | .deliver i =>
    if sys.proxy.stopped then sys
    else handled sys (SessionChannel.deliver C sys.proxy.subscribers i)
  | .timer => handled sys (SessionChannel.handshakeEvent C sys.proxy.subscribers .timer)
  | .stop ec => { sys with proxy := sys.proxy.stop ec }

/-- The channel after the events `es`. -/
def ofEvents (es : List ChannelEvent) : ChannelRun := run (step w cfg C) (start C) es

/-! ## What one event does to the channel -/

variable {w cfg C}

theorem ofEvents_concat (es : List ChannelEvent) (ev : ChannelEvent) :
    ofEvents w cfg C (es ++ [ev]) = step w cfg C (ofEvents w cfg C es) ev :=
  run_concat _ _ _ _

theorem stopped_step {sys : ChannelRun} (h : sys.proxy.stopped = true) (ev : ChannelEvent) :
    (step w cfg C sys ev).proxy.stopped = true := by
  cases ev with
  | frame head payload => simp [step, h]
  | deliver i => simp [step, h]
  | timer => simp [step, handled, Proxy.apply_stopped, h]
  | stop ec => rfl

theorem running_of_step {sys : ChannelRun} {ev : ChannelEvent}
    (h : (step w cfg C sys ev).proxy.stopped = false) : sys.proxy.stopped = false := by
  cases hs : sys.proxy.stopped
  · rfl
  · rw [stopped_step hs] at h
    exact absurd h nofun

/-- **One event, for the version protocol.** It takes at most one step of its own. -/
theorem handshake_step (sys : ChannelRun) (ev : ChannelEvent) :
    (step w cfg C sys ev).proxy.subscribers.handshake = sys.proxy.subscribers.handshake ∨
      ∃ e, (step w cfg C sys ev).proxy.subscribers.handshake =
        VersionProtocol.step C.settings C.levels C.versionParams sys.proxy.subscribers.handshake e := by
  cases ev with
  | frame head payload =>
    simp only [step]
    split_ifs
    · exact .inl rfl
    · rcases readFrame_subscribersStep w cfg (SessionChannel.subscribers C) sys.proxy head payload
        with ⟨hs, -⟩ | ⟨m, -, hs, -⟩ | ⟨m, -, hs, -, -⟩ <;> rw [hs]
      · exact .inl rfl
      · exact .inl rfl
      · exact SessionChannel.invoke_handshake _ _ _
  | deliver i =>
    simp only [step]
    split_ifs
    · exact .inl rfl
    · simp only [handled, Proxy.apply_subscribers]
      rcases SessionChannel.deliver_handshake (C := C) sys.proxy.subscribers i with h | ⟨r, h⟩
      · exact .inl h
      · exact .inr ⟨.reject r, h⟩
  | timer =>
    simp only [step, handled, Proxy.apply_subscribers]
    exact .inr ⟨.timer, SessionChannel.handshakeEvent_handshake _ _⟩
  | stop ec => exact .inl rfl

/-- The proxy decodes at the version the protocol records, after every event. -/
theorem version_step {sys : ChannelRun}
    (hv : sys.proxy.version = sys.proxy.subscribers.handshake.negotiated) (ev : ChannelEvent) :
    (step w cfg C sys ev).proxy.version =
      (step w cfg C sys ev).proxy.subscribers.handshake.negotiated := by
  cases ev with
  | frame head payload =>
    simp only [step]
    split_ifs
    · exact hv
    · rcases readFrame_subscribersStep w cfg (SessionChannel.subscribers C) sys.proxy head payload
        with ⟨hs, hver⟩ | ⟨m, -, hs, hver⟩ | ⟨m, -, hs, hver, -⟩ <;> rw [hs, hver]
      · exact hv
      · exact hv
      · -- The invoked handlers set on the proxy the version the protocol records.
        rw [SessionChannel.subscribers_invoke, hv]
        exact SessionChannel.invoke_negotiated _ _ _
  | deliver i =>
    simp only [step]
    split_ifs
    · exact hv
    · simp only [handled, Proxy.apply_subscribers, Proxy.apply_version, Option.getD_none]
      rw [hv, SessionChannel.deliver_negotiated]
  | timer =>
    simp only [step, handled, Proxy.apply_subscribers, Proxy.apply_version, Option.getD_none,
      SessionChannel.handshakeEvent_handshake]
    rw [hv, (VersionProtocol.step_of_ne_version _ _ _ (e := .timer) (fun _ ↦ nofun) _).1]
  | stop ec => exact hv

/-- Only a frame is read, at the channel's version and under its peer. -/
theorem reads_step (sys : ChannelRun) (ev : ChannelEvent) :
    (step w cfg C sys ev).reads = sys.reads ∨
      ∃ type, (step w cfg C sys ev).reads =
        sys.reads ++ [⟨type, sys.proxy.version, sys.proxy.subscribers.handshake.peer⟩] := by
  cases ev with
  | frame head payload =>
    simp only [step]
    split_ifs
    · exact .inl rfl
    · exact .inr ⟨head.type, rfl⟩
  | deliver i =>
    simp only [step]
    split_ifs
    · exact .inl rfl
    · exact .inl rfl
  | timer => exact .inl rfl
  | stop ec => exact .inl rfl

/-- The start sequence moves only from waiting for the handshake to ended. -/
theorem registration_step (sys : ChannelRun) (ev : ChannelEvent) :
    (step w cfg C sys ev).proxy.subscribers.registration = sys.proxy.subscribers.registration ∨
      (sys.proxy.subscribers.registration.stage = .handshaking ∧
        (step w cfg C sys ev).proxy.subscribers.registration.stage = .ended) := by
  cases ev with
  | frame head payload =>
    simp only [step]
    split_ifs
    · exact .inl rfl
    · rcases readFrame_subscribersStep w cfg (SessionChannel.subscribers C) sys.proxy head payload
        with ⟨hs, -⟩ | ⟨m, -, hs, -⟩ | ⟨m, -, hs, -, -⟩ <;> rw [hs]
      · exact .inl rfl
      · exact .inl rfl
      · exact SessionChannel.invoke_registration _ _ _
  | deliver i =>
    simp only [step]
    split_ifs
    · exact .inl rfl
    · simp only [handled, Proxy.apply_subscribers]
      exact SessionChannel.deliver_registration _ _
  | timer =>
    simp only [step, handled, Proxy.apply_subscribers]
    exact SessionChannel.handshakeEvent_registration _ _
  | stop ec => exact .inl rfl

/-- Once the start sequence has ended, no event ends a renewing subscription. -/
theorem mem_step_of_ne {sys : ChannelRun}
    (h : sys.proxy.subscribers.registration.stage ≠ .handshaking) {sub : Subscription}
    (hsub : sub ∈ sys.proxy.subscribers.subscriptions) (hr : sub.renews) (ev : ChannelEvent) :
    sub ∈ (step w cfg C sys ev).proxy.subscribers.subscriptions := by
  cases ev with
  | frame head payload =>
    simp only [step]
    split_ifs
    · exact hsub
    · rcases readFrame_subscribersStep w cfg (SessionChannel.subscribers C) sys.proxy head payload
        with ⟨hs, -⟩ | ⟨m, -, hs, -⟩ | ⟨m, -, hs, -, -⟩ <;> rw [hs]
      · exact hsub
      · exact hsub
      · rw [SessionChannel.subscribers_invoke, SessionChannel.invoke_subscriptions_of_ne h]
        exact hsub
  | deliver i =>
    simp only [step]
    split_ifs
    · exact hsub
    · simp only [handled, Proxy.apply_subscribers]
      exact SessionChannel.mem_deliver_of_ne h hsub hr i
  | timer =>
    simp only [step, handled, Proxy.apply_subscribers]
    rw [SessionChannel.handshakeEvent_of_ne h]
    exact hsub
  | stop ec => exact hsub

/-! ## The invariant of a channel -/

variable (C) in
/-- What every run of a session's channel keeps. -/
structure Inv (sys : ChannelRun) : Prop where
  /-- The version protocol has run from its start on the events that reached it. -/
  reachable : ∃ es, sys.proxy.subscribers.handshake =
    run (VersionProtocol.step C.settings C.levels C.versionParams)
      (VersionProtocol.start C.settings C.versionParams) es
  /-- Its record of the channel holds. -/
  fixed : VersionProtocol.PeerFixed C.settings sys.proxy.subscribers.handshake
  /-- The proxy decodes at the version the protocol set. -/
  version : sys.proxy.version = sys.proxy.subscribers.handshake.negotiated
  /-- Each frame was decoded at the version negotiated with the peer accepted by then. -/
  reads : ∀ r ∈ sys.reads, r.version = negotiatedFor C.settings r.peer
  /-- A peer a frame was read under is still the channel's. -/
  readsPeer : ∀ r ∈ sys.reads, ∀ m, r.peer = some m → sys.proxy.subscribers.handshake.peer = some m
  /-- So it is the peer of every later frame. -/
  readsOrder : sys.reads.Pairwise fun r r' ↦ ∀ m, r.peer = some m → r'.peer = some m
  /-- While the sequence waits for the handshake, no handler has run. -/
  waiting : sys.proxy.subscribers.registration.stage = .handshaking →
    sys.proxy.subscribers.registration.started = []
  /-- After a success, the renewing subscriptions of the attached protocols stand while the
  channel runs. -/
  attached : sys.proxy.subscribers.registration.started = [.success] →
    sys.proxy.stopped = false → ∃ m, sys.proxy.subscribers.handshake.peer = some m ∧
      ∀ sub ∈ (attachProtocols (min m.value C.settings.protocolMaximum) C.hostPoolCapacity
        C.session).1, sub.renews → sub ∈ sys.proxy.subscribers.subscriptions

theorem inv_start : Inv C (start C) := by
  have hfix := VersionProtocol.peerFixed_start C.settings C.versionParams
  rcases Registration.register_channelStart C.session.kind C.channel C.network with
    ⟨-, h0⟩ | ⟨hend, hne⟩
  · refine ⟨⟨[], rfl⟩, hfix, rfl, nofun, nofun, .nil, fun _ ↦ h0, fun hs ↦ ?_⟩
    exact absurd (h0.symm.trans hs) nofun
  · refine ⟨⟨[], rfl⟩, hfix, rfl, nofun, nofun, .nil, fun hs ↦ ?_, fun hs ↦ absurd hs hne⟩
    exact absurd (hend.symm.trans hs) nofun

theorem peer_step_of_some {sys : ChannelRun} (hI : Inv C sys) {m : VersionMessage}
    (h : sys.proxy.subscribers.handshake.peer = some m) (ev : ChannelEvent) :
    (step w cfg C sys ev).proxy.subscribers.handshake.peer = some m := by
  rcases handshake_step sys ev with he | ⟨e, he⟩ <;> rw [he]
  · exact h
  · exact VersionProtocol.step_peer_of_some C.settings C.levels C.versionParams hI.fixed h e

/-- **The frame that completes the start sequence.** A frame that takes a waiting start sequence
to success is a version or verack frame, and when the read cycle is done with it every
subscription of the protocols the session attached stands. -/
theorem frame_attach {sys : ChannelRun} (hI : Inv C sys) (hrun : sys.proxy.stopped = false)
    (h0 : sys.proxy.subscribers.registration.started = []) {head : Heading}
    {payload : List UInt8}
    (hs : (step w cfg C sys (.frame head payload)).proxy.subscribers.registration.started =
      [.success]) :
    (head.type = .version ∨ head.type = .verack) ∧
      ∃ m, (step w cfg C sys (.frame head payload)).proxy.subscribers.handshake.peer = some m ∧
        ∀ sub ∈ (attachProtocols (min m.value C.settings.protocolMaximum) C.hostPoolCapacity
          C.session).1, sub ∈ (step w cfg C sys (.frame head payload)).proxy.subscribers.subscriptions := by
  simp only [step, hrun, Bool.false_eq_true, if_false] at hs ⊢
  rcases readFrame_subscribersStep w cfg (SessionChannel.subscribers C) sys.proxy head payload
    with ⟨hsub, -⟩ | ⟨m, -, hsub, -⟩ | ⟨m, -, hsub, -, -⟩ <;> rw [hsub] at hs ⊢
  · rw [h0] at hs
    exact absurd hs nofun
  · -- A relayed message only waits.
    rw [SessionChannel.subscribers_relay, SessionChannel.relay_registration, h0] at hs
    exact absurd hs nofun
  · rw [SessionChannel.subscribers_invoke] at hs ⊢
    exact SessionChannel.invoke_attach hI.reachable hI.fixed h0 hs

/-- Whatever event takes a waiting start sequence to success attaches the protocols. -/
theorem attach_step {sys : ChannelRun} (hI : Inv C sys) (hrun : sys.proxy.stopped = false)
    (h0 : sys.proxy.subscribers.registration.started = []) {ev : ChannelEvent}
    (hs : (step w cfg C sys ev).proxy.subscribers.registration.started = [.success]) :
    ∃ m, (step w cfg C sys ev).proxy.subscribers.handshake.peer = some m ∧
      ∀ sub ∈ (attachProtocols (min m.value C.settings.protocolMaximum) C.hostPoolCapacity
        C.session).1, sub ∈ (step w cfg C sys ev).proxy.subscribers.subscriptions := by
  cases ev with
  | frame head payload => exact (frame_attach hI hrun h0 hs).2
  | deliver i =>
    simp only [step, hrun, Bool.false_eq_true, if_false, handled, Proxy.apply_subscribers] at hs ⊢
    exact SessionChannel.deliver_attach hI.reachable hI.fixed h0 hs
  | timer =>
    simp only [step, handled, Proxy.apply_subscribers] at hs ⊢
    exact SessionChannel.handshakeEvent_attach hI.reachable hI.fixed h0 hs
  | stop ec =>
    simp only [step, Proxy.stop_subscribers, h0] at hs
    exact absurd hs nofun

/-- **Every event keeps the invariant.** -/
theorem inv_step {sys : ChannelRun} (hI : Inv C sys) (ev : ChannelEvent) :
    Inv C (step w cfg C sys ev) where
  reachable := by
    obtain ⟨es, hes⟩ := hI.reachable
    rcases handshake_step sys ev with he | ⟨e, he⟩
    · exact ⟨es, he.trans hes⟩
    · exact ⟨es ++ [e], by rw [he, hes, run_concat]⟩
  fixed := by
    rcases handshake_step sys ev with he | ⟨e, he⟩ <;> rw [he]
    · exact hI.fixed
    · exact VersionProtocol.peerFixed_step _ _ _ hI.fixed e
  version := version_step hI.version ev
  reads := by
    rcases reads_step sys ev with hr | ⟨type, hr⟩ <;> rw [hr]
    · exact hI.reads
    · intro r hr'
      rcases List.mem_append.mp hr' with hr' | hr'
      · exact hI.reads r hr'
      · -- The new frame is read at the channel's version, which the protocol's record fixes.
        obtain rfl := List.mem_singleton.mp hr'
        exact hI.version.trans hI.fixed.negotiated
  readsPeer := by
    have hold : ∀ r ∈ (step w cfg C sys ev).reads, ∀ m, r.peer = some m →
        sys.proxy.subscribers.handshake.peer = some m := by
      rcases reads_step sys ev with hr | ⟨type, hr⟩ <;> rw [hr]
      · exact hI.readsPeer
      · intro r hr' m hm
        rcases List.mem_append.mp hr' with hr' | hr'
        · exact hI.readsPeer r hr' m hm
        · obtain rfl := List.mem_singleton.mp hr'
          exact hm
    exact fun r hr m hm ↦ peer_step_of_some hI (hold r hr m hm) ev
  readsOrder := by
    rcases reads_step sys ev with hr | ⟨type, hr⟩ <;> rw [hr]
    · exact hI.readsOrder
    · refine List.pairwise_append.mpr ⟨hI.readsOrder, List.pairwise_singleton _ _, ?_⟩
      intro r hr r' hr' m hm
      obtain rfl := List.mem_singleton.mp hr'
      exact hI.readsPeer r hr m hm
  waiting := by
    intro hst
    rcases registration_step sys ev with hreg | ⟨-, hend⟩
    · rw [hreg] at hst ⊢
      exact hI.waiting hst
    · rw [hend] at hst
      exact absurd hst nofun
  attached := by
    intro hs hrun
    have hrun₀ := running_of_step hrun
    by_cases hstage : sys.proxy.subscribers.registration.stage = .handshaking
    · obtain ⟨m, hm, hsub⟩ := attach_step hI hrun₀ (hI.waiting hstage) hs
      exact ⟨m, hm, fun sub h _ ↦ hsub sub h⟩
    · -- The sequence had ended: it is as it was, and so are the renewing subscriptions.
      have hreg : (step w cfg C sys ev).proxy.subscribers.registration =
          sys.proxy.subscribers.registration :=
        (registration_step sys ev).resolve_right (fun h ↦ hstage h.1)
      rw [hreg] at hs
      obtain ⟨m, hm, hsub⟩ := hI.attached hs hrun₀
      exact ⟨m, peer_step_of_some hI hm ev,
        fun sub h hr ↦ mem_step_of_ne hstage (hsub sub h hr) hr ev⟩

theorem inv_ofEvents (es : List ChannelEvent) : Inv C (ofEvents w cfg C es) :=
  run_invariant (step w cfg C) (I := Inv C) (fun _ ev hI ↦ inv_step hI ev) es inv_start

/-- **Frames after the version.** In every run of a session's channel:
* each frame is decoded at the version negotiated with the peer accepted when it was read, so
  every frame after the accepted version frame at `min(peer.value, protocol_maximum)`, under
  the same peer;
* a frame that takes the waiting start sequence to success, on a channel that goes on reading,
  is a version or verack frame, and once it has been handled every subscription of the protocols
  the session attached stands, before the next frame is read;
* from then on, while the channel runs, the renewing subscriptions stand, and a waiting message
  of their types is taken by a handler, never dropped. -/
theorem frames_after_version (w : Wire PeerMessage) (cfg : ProxySettings) (C : ChannelSetup)
    (es : List ChannelEvent) :
    (∀ r ∈ (ofEvents w cfg C es).reads, r.version = negotiatedFor C.settings r.peer) ∧
    (ofEvents w cfg C es).reads.Pairwise (fun r r' ↦ ∀ m, r.peer = some m → r'.peer = some m) ∧
    (∀ head payload, (ofEvents w cfg C es).proxy.subscribers.registration.started = [] →
      (ofEvents w cfg C (es ++ [.frame head payload])).proxy.subscribers.registration.started =
        [.success] →
      (ofEvents w cfg C (es ++ [.frame head payload])).proxy.stopped = false →
      (head.type = .version ∨ head.type = .verack) ∧
        ∃ m, (ofEvents w cfg C (es ++ [.frame head payload])).proxy.subscribers.handshake.peer =
          some m ∧
          ∀ sub ∈ (attachProtocols (min m.value C.settings.protocolMaximum) C.hostPoolCapacity
            C.session).1,
            sub ∈ (ofEvents w cfg C (es ++ [.frame head payload])).proxy.subscribers.subscriptions) ∧
    ((ofEvents w cfg C es).proxy.subscribers.registration.started = [.success] →
      (ofEvents w cfg C es).proxy.stopped = false →
      ∃ m, (ofEvents w cfg C es).proxy.subscribers.handshake.peer = some m ∧
        ∀ sub ∈ (attachProtocols (min m.value C.settings.protocolMaximum) C.hostPoolCapacity
          C.session).1, sub.renews →
          sub ∈ (ofEvents w cfg C es).proxy.subscribers.subscriptions ∧
            ∀ i msg, (ofEvents w cfg C es).proxy.subscribers.queued[i]? = some (sub.type, msg) →
              (ofEvents w cfg C (es ++ [.deliver i])).proxy.subscribers.dropped =
                (ofEvents w cfg C es).proxy.subscribers.dropped) := by
  have hI : Inv C (ofEvents w cfg C es) := inv_ofEvents es
  refine ⟨hI.reads, hI.readsOrder, fun head payload h0 hs hrun ↦ ?_, fun hs hrun ↦ ?_⟩
  · rw [ofEvents_concat] at hs hrun ⊢
    exact frame_attach hI (running_of_step hrun) h0 hs
  · obtain ⟨m, hm, hsub⟩ := hI.attached hs hrun
    refine ⟨m, hm, fun sub hmem hr ↦ ⟨hsub sub hmem hr, fun i msg hi ↦ ?_⟩⟩
    -- The renewing subscription takes the message.
    rw [ofEvents_concat]
    simp only [step, hrun, Bool.false_eq_true, if_false, handled, Proxy.apply_subscribers]
    exact SessionChannel.deliver_dropped hi (SessionChannel.takes_of_mem (hsub sub hmem hr))

/-- A wire for the example below: a version frame decodes to a peer at version 70015 that serves
the network, with nonce 7, and any other frame to an opaque message; each uses its whole
payload. -/
def exampleWire : Wire PeerMessage where
  maximumSize := 24
  maximumSize_pos := Nat.succ_pos 23
  factoryFromData _ := ⟨false, 0, 0, 0, .unknown⟩
  bitcoinChecksum _ := 0
  fromData type _ _ :=
    if type = .version then some (.version ⟨70015, 1, 7⟩, 0) else some (.other, 0)

/-- An outbound channel to 127.0.0.1:8333 at the default protocol levels, with a host pool. -/
def exampleOutbound : ChannelSetup where
  settings := ⟨31402, 70013, 176⟩
  levels := ⟨31402, 70013⟩
  ownServices := 1
  minimumServices := 1
  session := .outbound
  channel := ⟨1, 0x1234, ⟨0x7f000001, 8333⟩⟩
  hostPoolCapacity := 1000
  network := ⟨⟨false, []⟩, ⟨false, []⟩⟩

/-- The proxy settings of a mainnet channel that does not validate checksums. -/
def exampleProxy : ProxySettings := ⟨0xd9b4bef9, 1000, false⟩

/-- A mainnet heading of type `type` announcing an empty payload. -/
def exampleHead (type : MessageType) : Heading := ⟨true, 0xd9b4bef9, 0, 0, type⟩

/-- The peer's version, then its verack, complete the handshake of the outbound channel, which
goes on reading with the ping, pong, reject, address and get_address subscriptions of version
70013 in place; a ping that follows is taken by the ping protocol. -/
theorem frames_after_version_outbound :
    (ofEvents exampleWire exampleProxy exampleOutbound
        [.frame (exampleHead .version) []]).proxy.subscribers.registration.started = [] ∧
      (ofEvents exampleWire exampleProxy exampleOutbound
        ([.frame (exampleHead .version) []] ++ [.frame (exampleHead .verack) []])).proxy.subscribers.registration.started =
        [.success] ∧
      (ofEvents exampleWire exampleProxy exampleOutbound
        ([.frame (exampleHead .version) []] ++ [.frame (exampleHead .verack) []])).proxy.stopped =
        false ∧
      (∀ sub ∈ (attachProtocols 70013 1000 .outbound).1,
        sub ∈ (ofEvents exampleWire exampleProxy exampleOutbound
          ([.frame (exampleHead .version) []] ++ [.frame (exampleHead .verack) []])).proxy.subscribers.subscriptions) ∧
      (ofEvents exampleWire exampleProxy exampleOutbound
        [.frame (exampleHead .version) [], .frame (exampleHead .verack) [],
          .frame (exampleHead .ping) []]).proxy.subscribers.queued[0]? = some (.ping, .other) ∧
      (ofEvents exampleWire exampleProxy exampleOutbound
        ([.frame (exampleHead .version) [], .frame (exampleHead .verack) [],
          .frame (exampleHead .ping) []] ++ [.deliver 0])).proxy.subscribers.dropped =
        (ofEvents exampleWire exampleProxy exampleOutbound
          [.frame (exampleHead .version) [], .frame (exampleHead .verack) [],
            .frame (exampleHead .ping) []]).proxy.subscribers.dropped := by
  refine ⟨by decide, by decide, by decide, ?_, by decide, ?_⟩
  · obtain ⟨-, m, hm, hsub⟩ := (frames_after_version exampleWire exampleProxy exampleOutbound
      [.frame (exampleHead .version) []]).2.2.1 (exampleHead .verack) [] (by decide) (by decide)
      (by decide)
    obtain rfl : m = ⟨70015, 1, 7⟩ := Option.some.inj (hm.symm.trans (by decide))
    exact hsub
  · obtain ⟨m, hm, hsub⟩ := (frames_after_version exampleWire exampleProxy exampleOutbound
      [.frame (exampleHead .version) [], .frame (exampleHead .verack) [],
        .frame (exampleHead .ping) []]).2.2.2 (by decide) (by decide)
    obtain rfl : m = ⟨70015, 1, 7⟩ := Option.some.inj (hm.symm.trans (by decide))
    exact (hsub ⟨.ping, true⟩ (by decide) rfl).2 0 .other (by decide)

/-! ## The codes a channel stops with -/

/-- One event adds to the channel's stops only failures, given that a stop from elsewhere is
one. -/
theorem stops_step {sys : ChannelRun} (hs : ∀ x ∈ sys.proxy.stops, x.isError) {ev : ChannelEvent}
    (hev : ∀ ec, ev = .stop ec → ec.isError) :
    ∀ x ∈ (step w cfg C sys ev).proxy.stops, x.isError := by
  cases ev with
  | frame head payload =>
    simp only [step]
    split_ifs
    · exact hs
    · exact readFrame_stops w cfg SessionChannel.subscribers_stopsOnFailure hs head payload
  | deliver i =>
    simp only [step]
    split_ifs
    · exact hs
    · apply Proxy.stops_apply
      · exact hs
      · intro x h
        exact SessionChannel.deliver_stop h
  | timer =>
    apply Proxy.stops_apply
    · exact hs
    · intro x h
      exact SessionChannel.handshakeEvent_stop h
  | stop ec => exact Proxy.stops_stop hs (hev ec rfl)

/-- **A channel's stops.** In every run whose stops from outside the read cycle are failures,
the read cycle, the version protocol and the start sequence stop the channel only with
failures. -/
theorem stops_ofEvents {es : List ChannelEvent} (hes : ∀ ec, ChannelEvent.stop ec ∈ es → ec.isError) :
    ∀ x ∈ (ofEvents w cfg C es).proxy.stops, x.isError := by
  refine run_invariant_of_mem (step w cfg C) (I := fun sys ↦ ∀ x ∈ sys.proxy.stops, x.isError) es
    ?_ (by simp [start])
  intro sys ev hev hs
  refine stops_step hs ?_
  rintro ec rfl
  exact hes ec hev

end ChannelRun

end Network
