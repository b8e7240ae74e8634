import BitprimNetwork.Protocols.Events

/-!
# The version handshake

`protocol_version_31402::start(handler)` wraps the session's handler in a join of two calls,
`synchronize(handler, 2, on_error)`, which bitprim-core's join is taken to complete on the first
error, passing it on, or with success after two successes. It starts the handshake timer with
that join as its event handler, subscribes to the peer's version and verack messages and sends
its own version. `protocol_version_70002` also subscribes to reject messages, and its
`sufficient_peer` sends a reject before failing an insufficient peer.

Each message handler returns `false`, so each subscription is used once, with two exceptions: a
reject for another command resubscribes, and so does a version reject whose code is neither
obsolete nor duplicate.

The events that reach the protocol, in any order, are the peer's version, verack and reject
messages, the expiry of the handshake timer, and the channel stop (`handle_stopped`). The model
`VersionProtocol.step` handles one of them, exactly as the handlers do; `completions` records
every call of the session's handler.
-/

namespace Network

open Async

/-- The arguments a protocol is constructed with. Every constructor in the library takes the
own version from `protocol_maximum`, the invalid services from `invalid_services` and the
minimum version from `protocol_minimum`; the own and minimum services vary by session. -/
structure VersionParams where
  /-- `own_services_`. -/
  ownServices : ℕ
  /-- `minimum_services_`. -/
  minimumServices : ℕ
  /-- Whether the protocol is `protocol_version_70002` rather than `protocol_version_31402`. -/
  bip61 : Bool

/-- What the version protocol sends to its peer. -/
inductive VersionSent where
  | version
  | verack
  | reject (r : RejectMessage)
  deriving DecidableEq, Repr

/-- The state of a version protocol together with what it sets on its channel. -/
structure VersionProtocol where
  /-- `protocol_events` and the handshake timer. -/
  events : Events
  /-- The join around the session's handler. -/
  join : Join
  /-- Subscribed to the peer's version message. -/
  versionSubscribed : Bool
  /-- Subscribed to the peer's verack message. -/
  verackSubscribed : Bool
  /-- Subscribed to reject messages (70002 only). -/
  rejectSubscribed : Bool
  /-- The channel's negotiated version. -/
  negotiated : ℕ
  /-- The channel's peer version message, once set. -/
  peer : Option VersionMessage
  /-- Messages sent, in order. -/
  sent : List VersionSent
  /-- The codes the session's handler was called with, in order. -/
  completions : List Code

/-- The events that reach a version protocol. -/
inductive VersionEvent where
  /-- The peer's version message. -/
  | version (m : VersionMessage)
  /-- The peer's verack message. -/
  | verack
  /-- A reject message from the peer. -/
  | reject (r : RejectMessage)
  /-- The handshake timer expires. -/
  | timer
  /-- The channel stops (`handle_stopped`). -/
  | stop
  deriving DecidableEq, Repr

section Model

variable (s : Settings) (lv : Levels) (par : VersionParams)

/-- The three configuration checks of `handle_receive_version`, all passed. -/
def configValid : Bool :=
  lv.minimum ≤ s.protocolMinimum ∧ s.protocolMaximum ≤ lv.maximum ∧
    s.protocolMinimum ≤ s.protocolMaximum

/-- `protocol_version_31402::sufficient_peer`. -/
def sufficientPeer (m : VersionMessage) : Bool :=
  m.services &&& s.invalidServices = 0 ∧
    m.services &&& par.minimumServices = par.minimumServices ∧ s.protocolMinimum ≤ m.value

/-- The reject that `protocol_version_70002::sufficient_peer` sends before deferring to the
base check, if any. -/
def versionRejection (m : VersionMessage) : Option RejectMessage :=
  if m.value < s.protocolMinimum then
    some ⟨versionCommand, .obsolete, "insufficient-version"⟩
  else if m.services &&& par.minimumServices ≠ par.minimumServices then
    some ⟨versionCommand, .obsolete, "insufficient-services"⟩
  else none

/-- The fields of `version_factory()` that a peer's handshake reads: the own version and
services, and the channel's nonce. -/
def versionFactory (nonce : ℕ) : VersionMessage := ⟨s.protocolMaximum, par.ownServices, nonce⟩

namespace VersionProtocol

/-- `protocol_version_31402::start` (and 70002's, which adds the reject subscription), on a
channel at its initial version `protocol_maximum`. -/
def start : VersionProtocol where
  events := Events.started
  join := Join.start .onError 2
  versionSubscribed := true
  verackSubscribed := true
  rejectSubscribed := par.bip61
  negotiated := s.protocolMaximum
  peer := none
  sent := [.version]
  completions := []

/-- `set_event(ec)`: through `handle_notify` to the join, which may call the session's handler. -/
def setEvent (p : VersionProtocol) (ec : Code) : VersionProtocol :=
  match p.events.setEvent ec with
  | (events, true) =>
    match p.join.call .success ec with
    | (join, fired) =>
      { p with
        events := events
        join := join
        completions := if fired then p.completions ++ [ec] else p.completions }
  | (events, false) => { p with events := events }

/-- The send that `protocol_version_70002::sufficient_peer` makes before deferring to the base
check; `protocol_version_31402` sends nothing. -/
def sendRejection (p : VersionProtocol) (m : VersionMessage) : VersionProtocol :=
  match par.bip61, versionRejection s par m with
  | true, some r => { p with sent := p.sent ++ [VersionSent.reject r] }
  | _, _ => p

/-- `handle_receive_version(success, message)`; the subscription is not renewed. -/
def handleReceiveVersion (p : VersionProtocol) (m : VersionMessage) : VersionProtocol :=
  let p := { p with versionSubscribed := false }
  if !p.events.running then p
  else if s.protocolMinimum < lv.minimum then p.setEvent .channelStopped
  else if lv.maximum < s.protocolMaximum then p.setEvent .channelStopped
  else if s.protocolMaximum < s.protocolMinimum then p.setEvent .channelStopped
  else
    -- `sufficient_peer` is virtual: the 70002 override sends its reject, then defers to 31402's.
    let p := sendRejection s par p m
    if !sufficientPeer s par m then p.setEvent .channelStopped
    else
      { p with
        negotiated := min m.value s.protocolMaximum
        peer := some m
        sent := p.sent ++ [VersionSent.verack] }.setEvent .success

/-- `handle_receive_verack(success)`; the subscription is not renewed. -/
def handleReceiveVerack (p : VersionProtocol) : VersionProtocol :=
  let p := { p with verackSubscribed := false }
  if !p.events.running then p else p.setEvent .success

/-- `protocol_version_70002::handle_receive_reject(success, reject)`. -/
def handleReceiveReject (p : VersionProtocol) (r : RejectMessage) : VersionProtocol :=
  if !p.events.running then { p with rejectSubscribed := false }
  -- Rejects of other messages are left to the reject protocol.
  else if r.message ≠ versionCommand then p
  else if r.code = .obsolete then { p with rejectSubscribed := false }.setEvent .channelStopped
  else if r.code = .duplicate then { p with rejectSubscribed := false }.setEvent .channelStopped
  else p

/-- `handle_timer` on expiry of the (not perpetual) handshake timer. -/
def handleTimer (p : VersionProtocol) : VersionProtocol :=
  if !p.events.running then p else p.setEvent .channelTimeout

/-- `protocol_events::handle_stopped`. -/
def handleStopped (p : VersionProtocol) : VersionProtocol :=
  p.setEvent .channelStopped

/-- One event. A message reaches a handler only while its subscription stands, and the timer
calls back only while it is armed. -/
def step (p : VersionProtocol) : VersionEvent → VersionProtocol
  | .version m => if p.versionSubscribed then handleReceiveVersion s lv par p m else p
  | .verack => if p.verackSubscribed then handleReceiveVerack p else p
  | .reject r => if p.rejectSubscribed then handleReceiveReject p r else p
  | .timer =>
    if p.events.armed then handleTimer { p with events := { p.events with armed := false } }
    else p
  | .stop => handleStopped p

/-- `handle_receive_version` reaches `set_negotiated_version`: the message finds its
subscription on a running protocol, the configuration is valid and the peer sufficient. -/
def acceptsVersion (p : VersionProtocol) (m : VersionMessage) : Bool :=
  p.versionSubscribed && p.events.running && configValid s lv && sufficientPeer s par m

end VersionProtocol

/-- The negotiated version of a channel whose version protocol has accepted the peer version
`peer`, if any: `min(peer.value, own_version)`, and the initial `protocol_maximum` before. -/
def negotiatedFor : Option VersionMessage → ℕ
  | none => s.protocolMaximum
  | some m => min m.value s.protocolMaximum

end Model

/-! ## What a step can do

Every event changes the join and the handler's record only through one `set_event`, and only
the version handler touches what the protocol sets on its channel. These two facts are what the
handshake proofs use; nothing after this section unfolds a handler. -/

namespace VersionProtocol

variable {s : Settings} {lv : Levels} {par : VersionParams}

@[simp] theorem setEvent_negotiated (p : VersionProtocol) (ec : Code) :
    (p.setEvent ec).negotiated = p.negotiated := by
  unfold setEvent; split <;> rfl

@[simp] theorem setEvent_peer (p : VersionProtocol) (ec : Code) :
    (p.setEvent ec).peer = p.peer := by
  unfold setEvent; split <;> rfl

@[simp] theorem setEvent_versionSubscribed (p : VersionProtocol) (ec : Code) :
    (p.setEvent ec).versionSubscribed = p.versionSubscribed := by
  unfold setEvent; split <;> rfl

@[simp] theorem sendRejection_join (p : VersionProtocol) (m : VersionMessage) :
    (sendRejection s par p m).join = p.join := by
  unfold sendRejection; split <;> rfl

@[simp] theorem sendRejection_completions (p : VersionProtocol) (m : VersionMessage) :
    (sendRejection s par p m).completions = p.completions := by
  unfold sendRejection; split <;> rfl

@[simp] theorem sendRejection_events (p : VersionProtocol) (m : VersionMessage) :
    (sendRejection s par p m).events = p.events := by
  unfold sendRejection; split <;> rfl

@[simp] theorem sendRejection_peer (p : VersionProtocol) (m : VersionMessage) :
    (sendRejection s par p m).peer = p.peer := by
  unfold sendRejection; split <;> rfl

/-- `set_event` on a running protocol: the code reaches the join. -/
theorem setEvent_of_running {p : VersionProtocol} (h : p.events.running) (ec : Code) :
    p.setEvent ec =
      { p with
        events := ⟨!ec.isStop, p.events.armed && ec != .channelStopped⟩
        join := (p.join.call .success ec).1
        completions :=
          if (p.join.call .success ec).2 then p.completions ++ [ec] else p.completions } := by
  unfold setEvent
  rw [Events.setEvent_of_running h]

/-- **`handle_receive_version` on a running protocol.** It drops its subscription and ends in
one `set_event`: success, with the negotiated and peer versions set, when the configuration is
valid and the peer sufficient; `channel_stopped` otherwise. -/
theorem handleReceiveVersion_spec {p : VersionProtocol} (h : p.events.running)
    (m : VersionMessage) :
    ∃ q : VersionProtocol, q.events = p.events ∧ q.join = p.join ∧
      q.completions = p.completions ∧ q.versionSubscribed = false ∧
      q.verackSubscribed = p.verackSubscribed ∧ q.rejectSubscribed = p.rejectSubscribed ∧
      (configValid s lv && sufficientPeer s par m →
        q.negotiated = min m.value s.protocolMaximum ∧ q.peer = some m) ∧
      handleReceiveVersion s lv par p m =
        q.setEvent (if configValid s lv && sufficientPeer s par m then .success else .channelStopped) := by
  have hsend : ∀ q : VersionProtocol, (sendRejection s par q m).verackSubscribed =
      q.verackSubscribed ∧ (sendRejection s par q m).rejectSubscribed = q.rejectSubscribed ∧
      (sendRejection s par q m).versionSubscribed = q.versionSubscribed := by
    intro q
    unfold sendRejection
    split <;> exact ⟨rfl, rfl, rfl⟩
  by_cases hcv : configValid s lv
  · obtain ⟨h₁, h₂, h₃⟩ : s.protocolMinimum ≥ lv.minimum ∧ lv.maximum ≥ s.protocolMaximum ∧
        s.protocolMaximum ≥ s.protocolMinimum := by
      simpa [configValid] using hcv
    have hreach : handleReceiveVersion s lv par p m =
        if !sufficientPeer s par m then
          (sendRejection s par { p with versionSubscribed := false } m).setEvent .channelStopped
        else
          { sendRejection s par { p with versionSubscribed := false } m with
            negotiated := min m.value s.protocolMaximum
            peer := some m
            sent := (sendRejection s par { p with versionSubscribed := false } m).sent ++
              [VersionSent.verack] }.setEvent .success := by
      simp [handleReceiveVersion, h, Nat.not_lt.mpr h₁, Nat.not_lt.mpr h₂, Nat.not_lt.mpr h₃]
    obtain ⟨hv, hr, hvs⟩ := hsend { p with versionSubscribed := false }
    rw [hreach]
    set q := sendRejection s par { p with versionSubscribed := false } m
    cases hsp : sufficientPeer s par m
    · exact ⟨q, by simp [q], by simp [q], by simp [q], hvs, hv, hr, by simp, by simp [hcv]⟩
    · refine ⟨{ q with
          negotiated := min m.value s.protocolMaximum
          peer := some m
          sent := q.sent ++ [VersionSent.verack] },
        by simp [q], by simp [q], by simp [q], hvs, hv, hr, fun _ ↦ ⟨rfl, rfl⟩, by simp [hcv]⟩
  · refine ⟨{ p with versionSubscribed := false }, rfl, rfl, rfl, rfl, rfl, rfl,
      by simp [hcv], ?_⟩
    have hbad : s.protocolMinimum < lv.minimum ∨ lv.maximum < s.protocolMaximum ∨
        s.protocolMaximum < s.protocolMinimum := by
      simp only [configValid, decide_eq_true_eq, not_and_or, Nat.not_le] at hcv
      omega
    simp only [hcv, Bool.false_and, Bool.false_eq_true, if_false]
    rcases hbad with hb | hb | hb
    · simp [handleReceiveVersion, h, hb]
    · simp [handleReceiveVersion, h, hb]
    · simp [handleReceiveVersion, h, hb]

/-- After the join has called the session's handler, `set_event` calls it no more. -/
theorem setEvent_of_cleared {p : VersionProtocol} (h : p.join.cleared) (ec : Code) :
    (p.setEvent ec).join = p.join ∧ (p.setEvent ec).completions = p.completions := by
  unfold setEvent
  split
  · rw [Join.call_of_cleared h]
    simp
  · exact ⟨rfl, rfl⟩

/-- `handle_receive_reject` leaves the protocol as it is, drops its subscription, or drops it
and stops the protocol with `channel_stopped`. -/
theorem handleReceiveReject_cases (p : VersionProtocol) (r : RejectMessage) :
    handleReceiveReject p r = p ∨ handleReceiveReject p r = { p with rejectSubscribed := false } ∨
      handleReceiveReject p r = { p with rejectSubscribed := false }.setEvent .channelStopped := by
  unfold handleReceiveReject
  split_ifs
  · exact .inr (.inl rfl)
  · exact .inl rfl
  · exact .inr (.inr rfl)
  · exact .inr (.inr rfl)
  · exact .inl rfl

section Handlers

variable (s lv par)

@[simp] theorem sendRejection_negotiated (p : VersionProtocol) (m : VersionMessage) :
    (sendRejection s par p m).negotiated = p.negotiated := by
  unfold sendRejection; split <;> rfl

@[simp] theorem sendRejection_versionSubscribed (p : VersionProtocol) (m : VersionMessage) :
    (sendRejection s par p m).versionSubscribed = p.versionSubscribed := by
  unfold sendRejection; split <;> rfl

/-- The configuration checks of `handle_receive_version`, one by one. -/
theorem configValid_iff : configValid s lv = true ↔
    ¬s.protocolMinimum < lv.minimum ∧ ¬lv.maximum < s.protocolMaximum ∧
      ¬s.protocolMaximum < s.protocolMinimum := by
  simp only [configValid, decide_eq_true_eq, Nat.not_lt]

/-- A version message that reaches the handler of a stopped protocol only drops the
subscription. -/
theorem handleReceiveVersion_of_not_running {p : VersionProtocol} (h : p.events.running = false)
    (m : VersionMessage) :
    handleReceiveVersion s lv par p m = { p with versionSubscribed := false } := by
  unfold handleReceiveVersion
  rw [if_pos (by simp [h])]

/-- A version message that reaches the handler of a running protocol. -/
theorem handleReceiveVersion_of_running {p : VersionProtocol} (h : p.events.running)
    (m : VersionMessage) :
    (handleReceiveVersion s lv par p m).negotiated =
        (if configValid s lv && sufficientPeer s par m then min m.value s.protocolMaximum
          else p.negotiated) ∧
      (handleReceiveVersion s lv par p m).peer =
        (if configValid s lv && sufficientPeer s par m then some m else p.peer) ∧
      (handleReceiveVersion s lv par p m).versionSubscribed = false := by
  by_cases hc : configValid s lv
  · obtain ⟨h₁, h₂, h₃⟩ := (configValid_iff s lv).mp hc
    cases hsp : sufficientPeer s par m <;> simp [handleReceiveVersion, h, hc, hsp, h₁, h₂, h₃]
  · simp only [configValid_iff, not_and_or, not_not] at hc
    rcases hc with hb | hb | hb <;> simp [handleReceiveVersion, h, hb, configValid_iff]

/-- **A version message.** It sets the peer and the negotiated version exactly when the handler
accepts it, and leaves no version subscription. -/
theorem step_version (p : VersionProtocol) (m : VersionMessage) :
    (step s lv par p (.version m)).negotiated =
        (if acceptsVersion s lv par p m then min m.value s.protocolMaximum else p.negotiated) ∧
      (step s lv par p (.version m)).peer =
        (if acceptsVersion s lv par p m then some m else p.peer) ∧
      (step s lv par p (.version m)).versionSubscribed = false := by
  by_cases hv : p.versionSubscribed
  · by_cases hr : p.events.running
    · simpa [step, acceptsVersion, hv, hr] using handleReceiveVersion_of_running s lv par hr m
    · simp [step, acceptsVersion, hv, hr, handleReceiveVersion]
  · simp [step, acceptsVersion, hv]

/-- Every other event leaves what the version handler sets alone. -/
theorem step_of_ne_version {e : VersionEvent} (he : ∀ m, e ≠ .version m) (p : VersionProtocol) :
    (step s lv par p e).negotiated = p.negotiated ∧ (step s lv par p e).peer = p.peer ∧
      (step s lv par p e).versionSubscribed = p.versionSubscribed := by
  cases e with
  | version m => exact absurd rfl (he m)
  | verack =>
    simp only [step, handleReceiveVerack]
    split_ifs <;> simp
  | reject r =>
    simp only [step]
    split_ifs
    · rcases handleReceiveReject_cases p r with h | h | h <;> rw [h]
      · exact ⟨rfl, rfl, rfl⟩
      · exact ⟨rfl, rfl, rfl⟩
      · simp
    · exact ⟨rfl, rfl, rfl⟩
  | timer =>
    simp only [step, handleTimer]
    split_ifs <;> simp
  | stop => simp [step, handleStopped]

end Handlers

/-- **Inversion.** A step either leaves the join and the handler's record alone, or is one
`set_event` on a state that still has them. -/
theorem step_cases (p : VersionProtocol) (e : VersionEvent) :
    ((step s lv par p e).join = p.join ∧ (step s lv par p e).completions = p.completions) ∨
      ∃ (q : VersionProtocol) (ec : Code), q.join = p.join ∧ q.completions = p.completions ∧
        step s lv par p e = q.setEvent ec := by
  cases e with
  | version m =>
    by_cases hsub : p.versionSubscribed
    · rw [step, if_pos hsub]
      -- A running protocol ends in one `set_event`; a stopped one only drops the subscription.
      cases hrun : p.events.running
      · rw [handleReceiveVersion_of_not_running s lv par hrun m]
        exact .inl ⟨rfl, rfl⟩
      · obtain ⟨q, -, hj, hc, -, -, -, -, heq⟩ := @handleReceiveVersion_spec s lv par _ hrun m
        exact .inr ⟨q, _, hj, hc, heq⟩
    · rw [step, if_neg hsub]
      exact .inl ⟨rfl, rfl⟩
  | verack =>
    simp only [step, handleReceiveVerack]
    split_ifs <;> first | exact .inl ⟨rfl, rfl⟩ | (refine .inr ⟨_, _, ?_, ?_, rfl⟩ <;> rfl)
  | reject r =>
    simp only [step]
    split_ifs
    · rcases handleReceiveReject_cases p r with h | h | h <;> rw [h]
      · exact .inl ⟨rfl, rfl⟩
      · exact .inl ⟨rfl, rfl⟩
      · exact .inr ⟨{ p with rejectSubscribed := false }, _, rfl, rfl, rfl⟩
    · exact .inl ⟨rfl, rfl⟩
  | timer =>
    simp only [step, handleTimer]
    split_ifs <;> first | exact .inl ⟨rfl, rfl⟩ | (refine .inr ⟨_, _, ?_, ?_, rfl⟩ <;> rfl)
  | stop => exact .inr ⟨p, .channelStopped, rfl, rfl, rfl⟩

/-- Once the session's handler has been called, no step calls it again. -/
theorem step_of_cleared {p : VersionProtocol} (h : p.join.cleared) (e : VersionEvent) :
    (step s lv par p e).join = p.join ∧ (step s lv par p e).completions = p.completions := by
  rcases step_cases p e with hkeep | ⟨q, ec, hj, hc, heq⟩
  · exact hkeep
  · rw [heq, (setEvent_of_cleared (hj ▸ h) ec).1, (setEvent_of_cleared (hj ▸ h) ec).2, hj, hc]
    exact ⟨rfl, rfl⟩

/-- Without its version subscription the protocol no longer changes the channel's negotiated
version or peer version. -/
theorem step_of_not_versionSubscribed {p : VersionProtocol} (h : p.versionSubscribed = false)
    (e : VersionEvent) :
    (step s lv par p e).negotiated = p.negotiated ∧ (step s lv par p e).peer = p.peer ∧
      (step s lv par p e).versionSubscribed = false := by
  by_cases he : ∃ m, e = .version m
  · -- The version handler is not reached.
    obtain ⟨m, rfl⟩ := he
    have hacc : acceptsVersion s lv par p m = false := by simp [acceptsVersion, h]
    obtain ⟨hn, hpeer, hvs⟩ := step_version s lv par p m
    rw [hacc, if_neg Bool.false_ne_true] at hn hpeer
    exact ⟨hn, hpeer, hvs⟩
  · push Not at he
    obtain ⟨hn, hpeer, hvs⟩ := step_of_ne_version s lv par he p
    exact ⟨hn, hpeer, hvs.trans h⟩

/-- Only a version message sets the peer version, and to itself. -/
theorem step_peer (p : VersionProtocol) (e : VersionEvent) :
    (step s lv par p e).peer = p.peer ∨ ∃ m, e = .version m ∧ (step s lv par p e).peer = some m := by
  by_cases he : ∃ m, e = .version m
  · obtain ⟨m, rfl⟩ := he
    rw [(step_version s lv par p m).2.1]
    split_ifs
    · exact .inr ⟨m, rfl, rfl⟩
    · exact .inl rfl
  · push Not at he
    exact .inl (step_of_ne_version s lv par he p).2.1

/-! ## The version the channel decodes at

Only `handle_receive_version` sets the channel's negotiated and peer versions, together, and it
drops its subscription first; so once a peer is accepted the channel's negotiated version is
fixed at `min(peer.value, own_version)`. -/

section Decoding

variable (s lv par)

/-- The protocol's record of its channel: the negotiated version is `negotiatedFor` the accepted
peer, and a protocol that accepted a peer has no version handler left. -/
structure PeerFixed (p : VersionProtocol) : Prop where
  negotiated : p.negotiated = negotiatedFor s p.peer
  unsubscribed : p.peer.isSome → p.versionSubscribed = false

theorem peerFixed_start : PeerFixed s (start s par) := ⟨rfl, by simp [start]⟩

/-- Every step keeps the record. -/
theorem peerFixed_step {p : VersionProtocol} (hp : PeerFixed s p) (e : VersionEvent) :
    PeerFixed s (step s lv par p e) := by
  by_cases he : ∃ m, e = .version m
  · obtain ⟨m, rfl⟩ := he
    obtain ⟨hn, hpeer, hvs⟩ := step_version s lv par p m
    refine ⟨?_, fun _ ↦ hvs⟩
    rw [hn, hpeer]
    split_ifs
    · rfl
    · exact hp.negotiated
  · push Not at he
    obtain ⟨hn, hpeer, hvs⟩ := step_of_ne_version s lv par he p
    exact ⟨by rw [hn, hpeer]; exact hp.negotiated, by rw [hpeer, hvs]; exact hp.unsubscribed⟩

/-- Once accepted, the peer stays. -/
theorem step_peer_of_some {p : VersionProtocol} (hp : PeerFixed s p) {m : VersionMessage}
    (h : p.peer = some m) (e : VersionEvent) : (step s lv par p e).peer = some m := by
  rw [(step_of_not_versionSubscribed (hp.unsubscribed (by simp [h])) e).2.1, h]

end Decoding

end VersionProtocol

end Network
