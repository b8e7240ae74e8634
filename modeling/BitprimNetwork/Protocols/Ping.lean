import Mathlib.Data.List.Basic
import BitprimNetwork.Async.Run
import BitprimNetwork.Protocols.Events

/-!
# The ping protocol at level 60001

`protocol_ping_60001` keeps a channel alive and checks that its peer answers. At each heartbeat it
sends a ping with a fresh nonce and subscribes, once, to the next pong, remembering in `pending_`
that an answer is awaited. A heartbeat that finds the last ping unanswered stops the channel with
`channel_timeout`, and a pong with another nonce stops it with `bad_stream`. Every ping the peer
sends is answered by a pong with its nonce. The first heartbeat is simulated by
`set_event(success)` when the protocol starts.

## The system around the protocol

The handlers run in an order the protocol does not control, so the model keeps what is in flight:

* a message the read cycle loads is *relayed* by its subscriber: the handlers subscribed when the
  relayed call runs are called then, and the calls run in any order;
* `proxy::stop(ec)` relays `channel_stopped` to every message subscriber and `ec` to the stop
  subscribers, whose `handle_stopped` sets the event `channel_stopped`;
* a handler that returns true stays subscribed unless its subscriber has stopped, and a handler
  subscribed to a stopped subscriber is called at once with `channel_stopped`;
* a ping write completes later, with a code;
* the heartbeat deadline calls back once after each start, unless cancelled.

## What holds

`Inv` is kept by every event. At most one pong subscription is outstanding, for the nonce of the
last ping sent, and `pending_` is set whenever one is; while the channel is open, `pending_` is
set exactly when one is (`pending_iff_subscribed`). Once the channel stops, the broadcast removes
the subscription and `pending_` stays set. The protocol stops the channel with `channel_timeout`
only on a heartbeat that finds a ping unanswered and with `bad_stream` only on a pong with another
nonce; a ping delivered while the channel is open is answered with its nonce; and once the
protocol has seen a stop code it sends nothing more. A ping write that fails is the one other
way the protocol stops the channel, with the write's own code (`stops_on_ping_write`); and a ping
that arrives just before the channel stops may never reach its handler, and then goes unanswered
(`ping_unanswered_after_stop`).
-/

namespace Network

open Async

/-- A message of the ping protocol, with its nonce. -/
inductive PingMessage where
  | ping (nonce : ℕ)
  | pong (nonce : ℕ)
  deriving DecidableEq, Repr

/-- The nonce of the last ping among the messages sent. -/
def lastPing (sent : List PingMessage) : Option ℕ :=
  sent.foldl (fun last m ↦ match m with | .ping n => some n | .pong _ => last) none

@[simp] theorem lastPing_ping (sent : List PingMessage) (n : ℕ) :
    lastPing (sent ++ [.ping n]) = some n := by
  simp [lastPing]

@[simp] theorem lastPing_pong (sent : List PingMessage) (n : ℕ) :
    lastPing (sent ++ [.pong n]) = lastPing sent := by
  simp [lastPing]

/-- A handler call relayed by a subscriber, to run later: `relay(ec, message)` of the ping or the
pong subscriber, or the stop subscriber's `relay(ec)`. -/
inductive PingRelay where
  | ping (ec : Code) (nonce : ℕ)
  | pong (ec : Code) (nonce : ℕ)
  | stop (ec : Code)
  deriving DecidableEq, Repr

/-- What `message_subscriber::load` relays for a message read from the peer. -/
def relayOf : PingMessage → PingRelay
  | .ping nonce => .ping .success nonce
  | .pong nonce => .pong .success nonce

/-- A channel running `protocol_ping_60001`. -/
structure Ping where
  /-- The protocol's `handler_` and heartbeat deadline. -/
  events : Events
  /-- `pending_`. -/
  pending : Bool
  /-- `handle_receive_ping` is subscribed to pings. -/
  pingSubscribed : Bool
  /-- The nonces bound to the outstanding `handle_receive_pong` subscriptions. -/
  pongNonces : List ℕ
  /-- The proxy's `stopped_`. -/
  channelStopped : Bool
  /-- The relayed calls that have not run yet. -/
  relayed : List PingRelay
  /-- The ping writes that have not completed yet. -/
  pingWrites : ℕ
  /-- The messages the protocol sent, in order. -/
  sent : List PingMessage
  /-- The codes the protocol called `stop` with, in order. -/
  stops : List Code
  deriving DecidableEq, Repr

/-- What happens to the channel. -/
inductive PingEvent where
  /-- The heartbeat deadline expires; `pseudo_random::next()` would give `nonce`. -/
  | timer (nonce : ℕ)
  /-- The read cycle loads a message from the peer. -/
  | receive (m : PingMessage)
  /-- The `i`-th relayed call runs. -/
  | deliver (i : ℕ)
  /-- The oldest ping write completes with `ec`. -/
  | written (ec : Code)
  /-- Something other than this protocol stops the channel with `ec`. -/
  | stop (ec : Code)
  deriving DecidableEq, Repr

namespace Ping

/-- `proxy::stop(ec)`. A later stop relays to handlers that have all returned false on the first
broadcast, so only the first one is kept. -/
def stopChannel (s : Ping) (ec : Code) : Ping :=
  if s.channelStopped then s
  else
    { s with
      channelStopped := true
      relayed := s.relayed ++ [.ping .channelStopped 0, .pong .channelStopped 0, .stop ec] }

/-- `protocol::stop(ec)`. -/
def stop (s : Ping) (ec : Code) : Ping := { s.stopChannel ec with stops := s.stops ++ [ec] }

/-- The end of `send_ping` that pings: `pending_` is set, the pong subscribed and the ping sent.
A subscription to a stopped channel is refused at once. -/
def sendNew (s : Ping) (nonce : ℕ) : Ping :=
  { s with
    pending := true
    pongNonces := if s.channelStopped then s.pongNonces else s.pongNonces ++ [nonce]
    sent := s.sent ++ [.ping nonce]
    pingWrites := s.pingWrites + 1 }

/-- `protocol_ping_60001::send_ping(ec)`, the protocol's event handler. -/
def sendPing (s : Ping) (ec : Code) (nonce : ℕ) : Ping :=
  if s.events.stoppedBy ec then s
  else if ec.isError ∧ ec ≠ .channelTimeout then s.stop ec
  else if s.pending then s.stop .channelTimeout
  else s.sendNew nonce

/-- `protocol_events::set_event(ec)`, through `protocol_timer::handle_notify`. -/
def setEvent (s : Ping) (ec : Code) (nonce : ℕ) : Ping :=
  if (s.events.setEvent ec).2 then sendPing { s with events := (s.events.setEvent ec).1 } ec nonce
  else s

/-- `protocol_timer::handle_timer`: the deadline has called back; the event `channel_timeout`,
then `reset_timer`. -/
def handleTimer (s : Ping) (nonce : ℕ) : Ping :=
  if s.events.running then
    let s := setEvent { s with events := { s.events with armed := false } } .channelTimeout nonce
    { s with events := s.events.resetTimer }
  else s

/-- `protocol_events::handle_stopped(ec)`. `send_ping` returns on the stop code before it draws
a nonce. -/
def handleStopped (s : Ping) : Ping := setEvent s .channelStopped 0

/-- `protocol_ping_60001::handle_receive_ping(ec, message)`, with whether it stays subscribed. -/
def handleReceivePing (s : Ping) (ec : Code) (nonce : ℕ) : Ping × Bool :=
  if s.events.stoppedBy ec then (s, false)
  else if ec.isError then (s.stop ec, false)
  else ({ s with sent := s.sent ++ [.pong nonce] }, true)

/-- `protocol_ping_60001::handle_receive_pong(ec, message, nonce)`, which never stays
subscribed. -/
def handleReceivePong (s : Ping) (ec : Code) (received nonce : ℕ) : Ping :=
  if s.events.stoppedBy ec then s
  else if ec.isError then s.stop ec
  else if received ≠ nonce then { s with pending := false }.stop .badStream
  else { s with pending := false }

/-- A relayed call runs the handlers subscribed now. -/
def handleRelayed (s : Ping) : PingRelay → Ping
  | .ping ec nonce =>
    if s.pingSubscribed then
      let r := handleReceivePing { s with pingSubscribed := false } ec nonce
      { r.1 with pingSubscribed := r.2 && !r.1.channelStopped }
    else s
  | .pong ec received =>
    s.pongNonces.foldl (fun t nonce ↦ t.handleReceivePong ec received nonce)
      { s with pongNonces := [] }
  | .stop _ => s.handleStopped

/-- `protocol_ping_60001::handle_send_ping(ec)`. -/
def handleSendPing (s : Ping) (ec : Code) : Ping :=
  if s.events.stoppedBy ec then s
  else if ec.isError then s.stop ec
  else s

/-- `proxy::handle_send` for a ping: a failed write stops a running channel, then the handler
runs. -/
def written (s : Ping) (ec : Code) : Ping :=
  (if !s.channelStopped && ec.isError then s.stopChannel ec else s).handleSendPing ec

/-- One event. What the channel does not wait for does not come. -/
def step (s : Ping) : PingEvent → Ping
  | .timer nonce => if s.events.armed then s.handleTimer nonce else s
  | .receive m => if s.channelStopped then s else { s with relayed := s.relayed ++ [relayOf m] }
  | .deliver i =>
    match s.relayed[i]? with
    | some r => handleRelayed { s with relayed := s.relayed.eraseIdx i } r
    | none => s
  | .written ec => if s.pingWrites = 0 then s else written { s with pingWrites := s.pingWrites - 1 } ec
  | .stop ec => s.stopChannel ec

/-- The protocol attached to an open channel, before `start`: its handler set, its deadline
started and its ping handler subscribed. -/
def attached : Ping := ⟨⟨true, true⟩, false, true, [], false, [], 0, [], []⟩

/-- `protocol_ping_31402::start`, which simulates the first heartbeat with `set_event(success)`. -/
def start (nonce : ℕ) : Ping := attached.setEvent .success nonce

/-! ## What each handler does -/

theorem stopChannel_eq (s : Ping) (ec : Code) :
    s.stopChannel ec =
      { s with
        channelStopped := true
        relayed := s.relayed ++
          if s.channelStopped then [] else [.ping .channelStopped 0, .pong .channelStopped 0, .stop ec] } := by
  unfold stopChannel
  cases s
  split_ifs with h <;> simp_all

theorem stop_eq (s : Ping) (ec : Code) :
    s.stop ec =
      { s with
        channelStopped := true
        relayed := s.relayed ++
          if s.channelStopped then [] else [.ping .channelStopped 0, .pong .channelStopped 0, .stop ec]
        stops := s.stops ++ [ec] } := by
  rw [stop, stopChannel_eq]

/-- A heartbeat on a protocol whose deadline was armed: the timeout if the last ping is
unanswered, a new ping otherwise; the deadline is started again either way. -/
theorem handleTimer_of_armed {s : Ping} (h : s.events = ⟨true, true⟩) (nonce : ℕ) :
    s.handleTimer nonce = if s.pending then s.stop .channelTimeout else s.sendNew nonce := by
  obtain ⟨events, pending, pingSubscribed, pongNonces, channelStopped, relayed, pingWrites, sent,
    stops⟩ := s
  dsimp only at h
  subst h
  cases pending <;>
    simp [handleTimer, setEvent, sendPing, Events.setEvent, Events.stoppedBy, Events.resetTimer,
      stop_eq, sendNew]

/-- `handle_stopped` clears the handler and cancels the deadline; `send_ping` then returns. -/
theorem handleStopped_eq (s : Ping) :
    s.handleStopped = if s.events.running then { s with events := ⟨false, false⟩ } else s := by
  cases s with
  | mk events =>
    cases events with
    | mk running armed =>
      cases running <;> simp [handleStopped, setEvent, sendPing, Events.setEvent, Events.stoppedBy]

/-! ## The invariant -/

/-- A relayed call that may be in flight: a message the peer sent, or, once the channel has
stopped, a call of its stop broadcast. -/
def InFlight (s : Ping) (r : PingRelay) : Prop :=
  (∃ m, r = relayOf m) ∨ s.channelStopped = true ∧
    (r = .ping .channelStopped 0 ∨ r = .pong .channelStopped 0 ∨ ∃ ec, r = .stop ec)

/-- What every run from `start` keeps. -/
structure Inv (s : Ping) : Prop where
  /-- The deadline is armed only while the handler is set. -/
  armed : s.events.armed = true → s.events.running = true
  /-- The handler is cleared only after the channel stopped. -/
  running : s.events.running = false → s.channelStopped = true
  /-- The ping handler stays subscribed while the channel is open. -/
  pingSubscribed : s.channelStopped = false → s.pingSubscribed = true
  /-- In flight are the peer's messages and, once the channel stopped, its stop broadcast. -/
  relayed : ∀ r ∈ s.relayed, InFlight s r
  /-- At most one pong subscription, for the nonce of the last ping. -/
  outstanding : s.pongNonces = [] ∨ ∃ n, s.pongNonces = [n] ∧ lastPing s.sent = some n
  /-- A pong subscription is outstanding only while `pending_` is set. -/
  pending : s.pongNonces ≠ [] → s.pending = true
  /-- While the channel is open, `pending_` is set only while a pong subscription is. -/
  subscribed : s.channelStopped = false → s.pending = true → s.pongNonces ≠ []

variable {s : Ping}

/-- A relayed message call carries success, or the broadcast's `channel_stopped` once the
channel has stopped. -/
theorem InFlight.code {r : PingRelay} (h : InFlight s r) {ec : Code} {n : ℕ}
    (hr : r = .ping ec n ∨ r = .pong ec n) :
    ec = .success ∨ ec = .channelStopped ∧ s.channelStopped = true := by
  rcases h with ⟨m, rfl⟩ | ⟨hc, h⟩
  · cases m <;> rcases hr with hr | hr <;> simp_all [relayOf]
  · rcases hr with rfl | rfl <;> simp_all

/-- A relayed message call finds the protocol stopped only once the channel has stopped. -/
theorem InFlight.channelStopped_of_stoppedBy (hs : Inv s) {r : PingRelay} (h : InFlight s r)
    {ec : Code} {n : ℕ} (hr : r = .ping ec n ∨ r = .pong ec n)
    (hstop : s.events.stoppedBy ec = true) : s.channelStopped = true := by
  rcases h.code hr with rfl | ⟨-, hc⟩
  · exact hs.running (by simpa using hstop)
  · exact hc

/-- A relayed message call that finds the protocol running is never a failure to pass on. -/
theorem InFlight.isError_of_not_stoppedBy {r : PingRelay} (h : InFlight s r) {ec : Code} {n : ℕ}
    (hr : r = .ping ec n ∨ r = .pong ec n) (hstop : s.events.stoppedBy ec = false) :
    ec.isError = false := by
  rcases h.code hr with rfl | ⟨rfl, -⟩
  · rfl
  · simp [Events.stoppedBy] at hstop

theorem InFlight.stop {ec : Code} (h : InFlight s (.stop ec)) : s.channelStopped = true := by
  rcases h with ⟨m, hm⟩ | ⟨hc, -⟩
  · cases m <;> simp [relayOf] at hm
  · exact hc

theorem inv_stopChannel (hs : Inv s) (ec : Code) : Inv (s.stopChannel ec) := by
  rw [stopChannel_eq]
  refine ⟨hs.armed, fun _ ↦ rfl, nofun, ?_, hs.outstanding, hs.pending, nofun⟩
  intro r hr
  simp only [List.mem_append] at hr
  rcases hr with hr | hr
  · rcases hs.relayed r hr with h | ⟨-, h⟩
    · exact .inl h
    · exact .inr ⟨rfl, h⟩
  · split_ifs at hr
    · simp at hr
    · simp only [List.mem_cons, List.not_mem_nil, or_false] at hr
      rcases hr with rfl | rfl | rfl
      · exact .inr ⟨rfl, .inl rfl⟩
      · exact .inr ⟨rfl, .inr (.inl rfl)⟩
      · exact .inr ⟨rfl, .inr (.inr ⟨ec, rfl⟩)⟩

/-- The codes the protocol called `stop` with play no part in the invariant. -/
theorem Inv.withStops (hs : Inv s) (stops : List Code) : Inv { s with stops := stops } :=
  ⟨hs.armed, hs.running, hs.pingSubscribed, hs.relayed, hs.outstanding, hs.pending,
    hs.subscribed⟩

/-- A relayed call taken off the queue leaves the rest in flight. -/
theorem Inv.eraseRelayed (hs : Inv s) (i : ℕ) : Inv { s with relayed := s.relayed.eraseIdx i } :=
  ⟨hs.armed, hs.running, hs.pingSubscribed, fun r hr ↦ hs.relayed r (List.mem_of_mem_eraseIdx hr),
    hs.outstanding, hs.pending, hs.subscribed⟩

/-- The count of ping writes in flight plays no part in the invariant. -/
theorem Inv.withPingWrites (hs : Inv s) (n : ℕ) : Inv { s with pingWrites := n } :=
  ⟨hs.armed, hs.running, hs.pingSubscribed, hs.relayed, hs.outstanding, hs.pending,
    hs.subscribed⟩

/-- An armed deadline belongs to a running protocol. -/
theorem Inv.events_of_armed (hs : Inv s) (ha : s.events.armed = true) : s.events = ⟨true, true⟩ := by
  have hr := hs.armed ha
  cases he : s.events
  simp_all

theorem inv_stop (hs : Inv s) (ec : Code) : Inv (s.stop ec) :=
  (inv_stopChannel hs ec).withStops _

/-- A new ping is sent only when none is awaited, so the pong subscription it adds is the only
one. -/
theorem inv_sendNew (hs : Inv s) (hp : s.pending = false) (nonce : ℕ) : Inv (s.sendNew nonce) := by
  have hnil : s.pongNonces = [] := by
    by_contra hne
    exact absurd (hs.pending hne) (by simp [hp])
  refine ⟨hs.armed, hs.running, hs.pingSubscribed, hs.relayed, ?_, fun _ ↦ rfl, ?_⟩
  · by_cases hc : s.channelStopped
    · exact .inl (by simp [sendNew, hc, hnil])
    · exact .inr ⟨nonce, by simp [sendNew, hc, hnil], by simp [sendNew]⟩
  · intro hc _
    simp_all [sendNew]

theorem inv_handleTimer (hs : Inv s) (ha : s.events.armed = true) (nonce : ℕ) :
    Inv (s.handleTimer nonce) := by
  rw [handleTimer_of_armed (hs.events_of_armed ha)]
  split_ifs with hp
  · exact inv_stop hs _
  · exact inv_sendNew hs (by simpa using hp) nonce

/-- `handle_stopped` runs only after the channel stopped, so clearing the handler keeps the
invariant. -/
theorem inv_handleStopped (hs : Inv s) (hc : s.channelStopped = true) : Inv s.handleStopped := by
  rw [handleStopped_eq]
  split_ifs
  · exact ⟨nofun, fun _ ↦ hc, hs.pingSubscribed, hs.relayed, hs.outstanding, hs.pending,
      hs.subscribed⟩
  · exact hs

/-- A pong sent leaves the last ping as it was. -/
theorem Inv.sendPong (hs : Inv s) (n : ℕ) : Inv { s with sent := s.sent ++ [.pong n] } := by
  refine ⟨hs.armed, hs.running, hs.pingSubscribed, hs.relayed, ?_, hs.pending, hs.subscribed⟩
  simpa using hs.outstanding

theorem Inv.withPingSubscribed (hs : Inv s) {b : Bool} (h : s.channelStopped = false → b = true) :
    Inv { s with pingSubscribed := b } :=
  ⟨hs.armed, hs.running, h, hs.relayed, hs.outstanding, hs.pending, hs.subscribed⟩

/-- The pong handler has run: no subscription, and nothing awaited. -/
theorem Inv.answered (hs : Inv s) : Inv { s with pongNonces := [], pending := false } :=
  ⟨hs.armed, hs.running, hs.pingSubscribed, hs.relayed, .inl rfl, nofun, nofun⟩

/-- The broadcast removes the pong subscription and leaves `pending_` as it was. -/
theorem Inv.unsubscribed (hs : Inv s) (hc : s.channelStopped = true) :
    Inv { s with pongNonces := [] } :=
  ⟨hs.armed, hs.running, hs.pingSubscribed, hs.relayed, .inl rfl, nofun, by simp [hc]⟩

/-- The ping handler answers, or returns on the stop. -/
theorem inv_handleRelayed_ping (hs : Inv s) {ec : Code} {n : ℕ} (hr : InFlight s (.ping ec n)) :
    Inv (s.handleRelayed (.ping ec n)) := by
  unfold handleRelayed
  split_ifs with hsub
  · unfold handleReceivePing
    by_cases hstop : s.events.stoppedBy ec
    · simp only [hstop, if_true, Bool.false_and]
      exact hs.withPingSubscribed fun h ↦
        absurd (hr.channelStopped_of_stoppedBy hs (.inl rfl) hstop) (by simp [h])
    · have herr := hr.isError_of_not_stoppedBy (.inl rfl) (by simpa using hstop)
      simp only [hstop, herr]
      exact (hs.sendPong n).withPingSubscribed fun h ↦ by simp [h]
  · exact hs

/-- The pong handlers run, each once, and none stays subscribed. -/
theorem inv_handleRelayed_pong (hs : Inv s) {ec : Code} {m : ℕ} (hr : InFlight s (.pong ec m)) :
    Inv (s.handleRelayed (.pong ec m)) := by
  simp only [handleRelayed]
  rcases hs.outstanding with hnil | ⟨n, hn, -⟩
  · rw [hnil, List.foldl_nil, ← hnil]
    exact hs
  · rw [hn, List.foldl_cons, List.foldl_nil]
    unfold handleReceivePong
    by_cases hstop : s.events.stoppedBy ec
    · rw [if_pos (by simpa using hstop)]
      exact hs.unsubscribed (hr.channelStopped_of_stoppedBy hs (.inr rfl) hstop)
    · have herr := hr.isError_of_not_stoppedBy (.inr rfl) (by simpa using hstop)
      simp only [hstop, herr, if_false, Bool.false_eq_true]
      split_ifs
      · exact inv_stop hs.answered _
      · exact hs.answered

theorem inv_handleRelayed (hs : Inv s) {r : PingRelay} (hr : InFlight s r) :
    Inv (s.handleRelayed r) := by
  cases r with
  | ping ec n => exact inv_handleRelayed_ping hs hr
  | pong ec m => exact inv_handleRelayed_pong hs hr
  | stop ec => exact inv_handleStopped hs hr.stop

theorem inv_handleSendPing (hs : Inv s) (ec : Code) : Inv (s.handleSendPing ec) := by
  unfold handleSendPing
  split_ifs
  · exact hs
  · exact inv_stop hs ec
  · exact hs

theorem inv_written (hs : Inv s) (ec : Code) : Inv (s.written ec) := by
  unfold written
  apply inv_handleSendPing
  split_ifs
  · exact inv_stopChannel hs ec
  · exact hs

/-- **One step.** Every event keeps the invariant. -/
theorem inv_step (hs : Inv s) (e : PingEvent) : Inv (s.step e) := by
  cases e with
  | timer nonce =>
    simp only [step]
    split_ifs with ha
    · exact inv_handleTimer hs ha nonce
    · exact hs
  | receive m =>
    simp only [step]
    split_ifs
    · exact hs
    · -- The read cycle relays only while the channel is open.
      refine ⟨hs.armed, hs.running, hs.pingSubscribed, ?_, hs.outstanding, hs.pending,
        hs.subscribed⟩
      intro r hr
      rcases List.mem_append.1 hr with hr | hr
      · exact hs.relayed r hr
      · exact .inl ⟨m, by simpa using hr⟩
  | deliver i =>
    simp only [step]
    split
    · next r hr =>
      have hmem : r ∈ s.relayed := List.mem_of_getElem? hr
      exact inv_handleRelayed (hs.eraseRelayed i) (hs.relayed r hmem)
    · exact hs
  | written ec =>
    simp only [step]
    split_ifs
    · exact hs
    · exact inv_written (hs.withPingWrites _) ec
  | stop ec => exact inv_stopChannel hs ec

theorem start_eq (nonce : ℕ) :
    start nonce = ⟨⟨true, true⟩, true, true, [nonce], false, [], 1, [.ping nonce], []⟩ := rfl

theorem inv_start (nonce : ℕ) : Inv (start nonce) := by
  rw [start_eq]
  exact ⟨fun _ ↦ rfl, nofun, fun _ ↦ rfl, nofun, .inr ⟨nonce, rfl, rfl⟩, fun _ ↦ rfl,
    fun _ _ ↦ by simp⟩

/-- **Every run.** The invariant holds after any interleaving of events. -/
theorem inv_run (nonce : ℕ) (es : List PingEvent) : Inv (run step (start nonce) es) :=
  run_invariant step (I := Inv) (fun _ e hs ↦ inv_step hs e) es (inv_start nonce)

/-! ## The stop codes, the answers, and silence after a stop -/

/-- `bad_stream` when a relayed call brings the running protocol a pong with a nonce other than
the outstanding subscription's. -/
def badStreamOn (s : Ping) : PingRelay → List Code
  | .pong ec m =>
    if ec = .success ∧ s.events.running = true ∧ ∃ n ∈ s.pongNonces, m ≠ n then [.badStream] else []
  | .ping _ _ | .stop _ => []

/-- The codes the protocol stops the channel with on an event: `channel_timeout` on a heartbeat
that finds the last ping unanswered, `bad_stream` on a pong that the outstanding subscription
receives with another nonce, and a failed ping write's own code. -/
def stopsOn (s : Ping) : PingEvent → List Code
  | .timer _ => if s.events.armed = true ∧ s.pending = true then [.channelTimeout] else []
  | .deliver i =>
    match s.relayed[i]? with
    | some r => s.badStreamOn r
    | none => []
  | .written ec =>
    if s.pingWrites ≠ 0 ∧ s.events.stoppedBy ec = false ∧ ec.isError = true then [ec] else []
  | .receive _ | .stop _ => []

@[simp] theorem stopChannel_stops (s : Ping) (ec : Code) : (s.stopChannel ec).stops = s.stops := by
  rw [stopChannel_eq]

@[simp] theorem stopChannel_events (s : Ping) (ec : Code) :
    (s.stopChannel ec).events = s.events := by
  rw [stopChannel_eq]

@[simp] theorem stopChannel_sent (s : Ping) (ec : Code) : (s.stopChannel ec).sent = s.sent := by
  rw [stopChannel_eq]

theorem stops_handleRelayed_ping {ec : Code} {n : ℕ} (hr : InFlight s (.ping ec n)) :
    (s.handleRelayed (.ping ec n)).stops = s.stops := by
  simp only [handleRelayed]
  split_ifs with hsub
  · unfold handleReceivePing
    by_cases hstop : s.events.stoppedBy ec
    · simp [hstop]
    · have herr := hr.isError_of_not_stoppedBy (.inl rfl) (by simpa using hstop)
      simp [hstop, herr]
  · rfl

/-- The pong handler stops the channel with `bad_stream` exactly when it runs with success on a
pong whose nonce is not the one it was subscribed with. -/
theorem stops_handleRelayed_pong (hs : Inv s) {ec : Code} {m : ℕ} (hr : InFlight s (.pong ec m)) :
    (s.handleRelayed (.pong ec m)).stops = s.stops ++ s.badStreamOn (.pong ec m) := by
  simp only [handleRelayed, badStreamOn]
  rcases hs.outstanding with hnil | ⟨n, hn, -⟩
  · simp [hnil]
  · rw [hn, List.foldl_cons, List.foldl_nil]
    unfold handleReceivePong
    by_cases hstop : s.events.stoppedBy ec
    · -- Returning on a stop: the code is a stop code, or the handler is cleared.
      rw [if_pos (by simpa using hstop), if_neg]
      · simp
      · rintro ⟨rfl, hrun, -⟩
        simp [Events.stoppedBy, hrun] at hstop
    · have hsucc : ec = .success := by
        simpa using hr.isError_of_not_stoppedBy (.inr rfl) (by simpa using hstop)
      subst hsucc
      have hrun : s.events.running = true := by simpa [Events.stoppedBy] using hstop
      rw [if_neg hstop, if_neg (by simp)]
      by_cases hmn : m = n
      · simp [hmn]
      · simp [hmn, hrun, stop_eq]

theorem stops_handleRelayed (hs : Inv s) {r : PingRelay} (hr : InFlight s r) :
    (s.handleRelayed r).stops = s.stops ++ s.badStreamOn r := by
  cases r with
  | ping ec n => simpa [badStreamOn] using stops_handleRelayed_ping hr
  | pong ec m => exact stops_handleRelayed_pong hs hr
  | stop ec =>
    rw [handleRelayed, handleStopped_eq]
    split_ifs <;> simp [badStreamOn]

/-- The proxy's own stop on a failed write leaves the protocol's handler, its stops and what it
sent as they were. -/
theorem stopChannel_ite (b : Bool) (s : Ping) (ec : Code) :
    (if b then s.stopChannel ec else s).events = s.events ∧
      (if b then s.stopChannel ec else s).stops = s.stops ∧
      (if b then s.stopChannel ec else s).sent = s.sent := by
  split_ifs <;> simp

theorem handleSendPing_stops (s : Ping) (ec : Code) :
    (s.handleSendPing ec).stops =
      s.stops ++ if s.events.stoppedBy ec = false ∧ ec.isError = true then [ec] else [] := by
  unfold handleSendPing
  split_ifs <;> simp_all [stop_eq]

/-- A ping write completes: the protocol passes on a failure, unless it returns on a stop. -/
theorem written_stops (s : Ping) (ec : Code) :
    (s.written ec).stops =
      s.stops ++ if s.events.stoppedBy ec = false ∧ ec.isError = true then [ec] else [] := by
  obtain ⟨hev, hst, -⟩ := stopChannel_ite (!s.channelStopped && ec.isError) s ec
  rw [written, handleSendPing_stops, hev, hst]

/-- **The protocol's stops.** Each event makes the protocol stop the channel with the codes
`stopsOn` names, and with no other. -/
theorem stops_step (hs : Inv s) (e : PingEvent) : (s.step e).stops = s.stops ++ s.stopsOn e := by
  cases e with
  | timer nonce =>
    simp only [step, stopsOn]
    split_ifs with ha hp hp
    · rw [handleTimer_of_armed (hs.events_of_armed ha), if_pos hp.2]
      rfl
    · rw [handleTimer_of_armed (hs.events_of_armed ha), if_neg (by simpa [ha] using hp)]
      simp [sendNew]
    · exact absurd hp.1 ha
    · simp
  | receive m =>
    simp only [step, stopsOn]
    split_ifs <;> simp
  | deliver i =>
    simp only [step, stopsOn]
    split
    · next r hr =>
      have hmem : r ∈ s.relayed := List.mem_of_getElem? hr
      rw [stops_handleRelayed (hs.eraseRelayed i) (hs.relayed r hmem)]
      rfl
    · simp
  | written ec =>
    simp only [step, stopsOn]
    by_cases hw : s.pingWrites = 0
    · simp [hw]
    · rw [if_neg hw, written_stops]
      simp [hw]
  | stop ec => simp [step, stopsOn]

/-- **Answers.** A ping that reaches the protocol while the channel is open is answered by one
pong with its nonce. -/
theorem sent_deliver_ping (hs : Inv s) {i n : ℕ} (hi : s.relayed[i]? = some (.ping .success n))
    (ho : s.channelStopped = false) : (s.step (.deliver i)).sent = s.sent ++ [.pong n] := by
  have hsub : s.pingSubscribed = true := hs.pingSubscribed ho
  have hrun : s.events.running = true := by
    by_contra h
    simp [hs.running (by simpa using h)] at ho
  simp [step, hi, handleRelayed, handleReceivePing, hsub, Events.stoppedBy, hrun]

/-- The pong handlers of a stopped protocol return at once. -/
theorem foldl_handleReceivePong_of_stopped {ec : Code} {m : ℕ} (nonces : List ℕ) :
    ∀ t : Ping, t.events.running = false →
      nonces.foldl (fun t nonce ↦ t.handleReceivePong ec m nonce) t = t := by
  induction nonces with
  | nil => exact fun _ _ ↦ rfl
  | cons n nonces ih =>
    intro t ht
    rw [List.foldl_cons, handleReceivePong, if_pos (by simp [Events.stoppedBy, ht])]
    exact ih t ht

/-- A protocol that has seen a stop code stays stopped and sends nothing. -/
theorem step_of_stopped (h : s.events.running = false) (e : PingEvent) :
    (s.step e).events.running = false ∧ (s.step e).sent = s.sent := by
  cases e with
  | timer nonce =>
    rw [step]
    split_ifs
    · rw [handleTimer, if_neg (by simp [h])]
      exact ⟨h, rfl⟩
    · exact ⟨h, rfl⟩
  | receive m =>
    simp only [step]
    split_ifs <;> exact ⟨h, rfl⟩
  | deliver i =>
    simp only [step]
    split
    · next r hr =>
      cases r with
      | ping ec n =>
        simp only [handleRelayed]
        split_ifs
        · simp [handleReceivePing, Events.stoppedBy, h]
        · exact ⟨h, rfl⟩
      | pong ec m =>
        simp only [handleRelayed]
        rw [foldl_handleReceivePong_of_stopped]
        · exact ⟨h, rfl⟩
        · exact h
      | stop ec =>
        simp only [handleRelayed]
        rw [handleStopped_eq, if_neg (by simp [h])]
        exact ⟨h, rfl⟩
    · exact ⟨h, rfl⟩
  | written ec =>
    simp only [step]
    split_ifs
    · exact ⟨h, rfl⟩
    · -- The handler returns on the stop, whatever the proxy did first.
      simp only [written, handleSendPing]
      split_ifs <;> simp_all [stop_eq]
  | stop ec => exact ⟨by simp [step, h], by simp [step]⟩

/-- **Silence after a stop.** Once the protocol has seen a stop code, no run sends anything. -/
theorem run_of_stopped (h : s.events.running = false) (es : List PingEvent) :
    (run step s es).sent = s.sent :=
  (run_invariant step (I := fun t ↦ t.events.running = false ∧ t.sent = s.sent)
    (fun _ e ht ↦ ⟨(step_of_stopped ht.1 e).1, (step_of_stopped ht.1 e).2.trans ht.2⟩)
    es ⟨h, rfl⟩).2

/-- While the channel is open, `pending_` is set exactly when a pong subscription is
outstanding. -/
theorem pending_iff_subscribed (hs : Inv s) (ho : s.channelStopped = false) :
    s.pending = true ↔ s.pongNonces ≠ [] :=
  ⟨hs.subscribed ho, hs.pending⟩

/-- Apart from a write completion, an event makes the protocol stop the channel at most once, and
only with `channel_timeout` or `bad_stream`. -/
theorem stopsOn_cases {e : PingEvent} (he : ∀ ec, e ≠ .written ec) :
    s.stopsOn e = [] ∨ s.stopsOn e = [.channelTimeout] ∨ s.stopsOn e = [.badStream] := by
  cases e with
  | timer nonce =>
    simp only [stopsOn]
    split_ifs <;> simp
  | deliver i =>
    simp only [stopsOn]
    split
    · next r _ =>
      cases r with
      | pong ec m =>
        simp only [badStreamOn]
        split_ifs <;> simp
      | ping ec n => simp [badStreamOn]
      | stop ec => simp [badStreamOn]
    · simp
  | written ec => exact absurd rfl (he ec)
  | receive m => simp [stopsOn]
  | stop ec => simp [stopsOn]

theorem stopsOn_eq_timeout_iff {e : PingEvent} (he : ∀ ec, e ≠ .written ec) :
    s.stopsOn e = [.channelTimeout] ↔
      (∃ nonce, e = .timer nonce) ∧ s.events.armed = true ∧ s.pending = true := by
  cases e with
  | timer nonce =>
    simp only [stopsOn]
    split_ifs with h <;> simp [h]
  | deliver i =>
    simp only [stopsOn]
    split
    · next r _ =>
      cases r with
      | pong ec m =>
        simp only [badStreamOn]
        split_ifs <;> simp
      | ping ec n => simp [badStreamOn]
      | stop ec => simp [badStreamOn]
    · simp
  | written ec => exact absurd rfl (he ec)
  | receive m => simp [stopsOn]
  | stop ec => simp [stopsOn]

theorem stopsOn_eq_badStream_iff {e : PingEvent} (he : ∀ ec, e ≠ .written ec) :
    s.stopsOn e = [.badStream] ↔ ∃ i m, e = .deliver i ∧ s.relayed[i]? = some (.pong .success m) ∧
      s.events.running = true ∧ ∃ n ∈ s.pongNonces, m ≠ n := by
  cases e with
  | timer nonce =>
    simp only [stopsOn]
    split_ifs <;> simp
  | deliver i =>
    simp only [stopsOn, PingEvent.deliver.injEq, exists_and_left, exists_eq_left']
    split
    · next r hr =>
      rw [hr]
      cases r with
      | pong ec m =>
        simp only [badStreamOn, Option.some.injEq, PingRelay.pong.injEq]
        split_ifs with h
        · simp only [true_iff]
          exact ⟨m, ⟨h.1, rfl⟩, h.2⟩
        · simp only [false_iff, not_exists, not_and]
          rintro m' ⟨rfl, rfl⟩ hrun n hn hne
          exact h ⟨rfl, hrun, n, hn, hne⟩
      | ping ec n => simp [badStreamOn]
      | stop ec => simp [badStreamOn]
    · next hnone => simp [hnone]
  | written ec => exact absurd rfl (he ec)
  | receive m => simp [stopsOn]
  | stop ec => simp [stopsOn]

/-- A state that some run from `start` reaches. -/
def Reachable (s : Ping) : Prop := ∃ nonce es, s = run step (start nonce) es

theorem Reachable.inv (h : Reachable s) : Inv s := by
  obtain ⟨nonce, es, rfl⟩ := h
  exact inv_run nonce es

/-- Every code the protocol stops the channel with on an event is a failure. -/
theorem stopsOn_isError (e : PingEvent) : ∀ ec ∈ s.stopsOn e, ec.isError := by
  cases e with
  | timer nonce =>
    simp only [stopsOn]
    split_ifs <;> simp [Code.isError]
  | deliver i =>
    simp only [stopsOn]
    split
    · next r _ =>
      cases r with
      | pong ec m =>
        simp only [badStreamOn]
        split_ifs <;> simp [Code.isError]
      | ping ec n => simp [badStreamOn]
      | stop ec => simp [badStreamOn]
    · simp
  | written ec =>
    simp only [stopsOn]
    split_ifs with h
    · simpa using h.2.2
    · simp
  | receive m => simp [stopsOn]
  | stop ec => simp [stopsOn]

/-- **The stops.** In every run the protocol stops the channel only with failures. -/
theorem Reachable.stops_isError (h : Reachable s) : ∀ ec ∈ s.stops, ec.isError := by
  obtain ⟨nonce, es, rfl⟩ := h
  -- The invariant is carried along, since `stops_step` needs it.
  have hrun := run_invariant step (I := fun t ↦ Inv t ∧ ∀ ec ∈ t.stops, ec.isError)
    (fun t e ⟨hs, hst⟩ ↦ ⟨inv_step hs e, by
      rw [stops_step hs e]
      intro ec hec
      rcases List.mem_append.1 hec with hec | hec
      · exact hst ec hec
      · exact stopsOn_isError e ec hec⟩) es ⟨inv_start nonce, by simp [start_eq]⟩
  exact hrun.2

/-- **The ping protocol.** In every reachable state: at most one pong subscription is
outstanding, for the last ping's nonce; `pending_` is set whenever one is, and while the channel
is open exactly when one is. On any event but a write completion, the protocol stops the channel
with `channel_timeout` exactly on a heartbeat that finds the last ping unanswered, with
`bad_stream` exactly on a pong the outstanding subscription receives with another nonce, and with
no other code. A ping that reaches the protocol while the channel is open is answered by one pong
with its nonce. Once the protocol has seen a stop code, nothing more is sent. -/
theorem ping_pong_invariants (hr : Reachable s) :
    (s.pongNonces.length ≤ 1 ∧ (∀ n ∈ s.pongNonces, lastPing s.sent = some n) ∧
      (s.pongNonces ≠ [] → s.pending = true) ∧
      (s.channelStopped = false → (s.pending = true ↔ s.pongNonces ≠ []))) ∧
    (∀ e : PingEvent, (∀ ec, e ≠ .written ec) →
      ((s.step e).stops = s.stops ++ [.channelTimeout] ↔
        (∃ nonce, e = .timer nonce) ∧ s.events.armed = true ∧ s.pending = true) ∧
      ((s.step e).stops = s.stops ++ [.badStream] ↔
        ∃ i m, e = .deliver i ∧ s.relayed[i]? = some (.pong .success m) ∧
          s.events.running = true ∧ ∃ n ∈ s.pongNonces, m ≠ n) ∧
      ((s.step e).stops = s.stops ∨ (s.step e).stops = s.stops ++ [.channelTimeout] ∨
        (s.step e).stops = s.stops ++ [.badStream])) ∧
    (∀ i n, s.relayed[i]? = some (.ping .success n) → s.channelStopped = false →
      (s.step (.deliver i)).sent = s.sent ++ [.pong n]) ∧
    (s.events.running = false → ∀ es, (run step s es).sent = s.sent) := by
  have hs := hr.inv
  refine ⟨⟨?_, ?_, hs.pending, pending_iff_subscribed hs⟩, ?_, fun i n hi ho ↦ sent_deliver_ping hs hi ho,
    fun h es ↦ run_of_stopped h es⟩
  · rcases hs.outstanding with h | ⟨n, h, -⟩ <;> simp [h]
  · intro n hn
    rcases hs.outstanding with h | ⟨n', h, hlast⟩
    · simp [h] at hn
    · rw [h, List.mem_singleton] at hn
      rw [hn, hlast]
  · intro e he
    rw [stops_step hs e]
    simp only [List.append_right_inj, List.append_right_eq_self]
    exact ⟨stopsOn_eq_timeout_iff he, stopsOn_eq_badStream_iff he, stopsOn_cases he⟩

/-- A ping of the peer, relayed while the channel is open, is answered with its nonce. -/
theorem ping_pong_invariants_answered :
    Reachable (run step (start 7) [.receive (.ping 5)]) ∧
      (run step (start 7) [.receive (.ping 5)]).relayed[0]? = some (.ping .success 5) ∧
      (step (run step (start 7) [.receive (.ping 5)]) (.deliver 0)).sent = [.ping 7, .pong 5] := by
  have hr : Reachable (run step (start 7) [.receive (.ping 5)]) := ⟨7, _, rfl⟩
  have hi : (run step (start 7) [.receive (.ping 5)]).relayed[0]? = some (.ping .success 5) := by
    decide
  refine ⟨hr, hi, ?_⟩
  rw [(ping_pong_invariants hr).2.2.1 0 5 hi (by decide)]
  rfl

/-- The protocol's own heartbeat timeout stops the channel. Once the broadcast has reached the
pong subscription and `handle_stopped` has run, the protocol has seen the stop code, no pong
subscription is outstanding, and `pending_` is still set. -/
theorem pending_after_stop :
    (run step (start 7) [.timer 8, .deliver 1, .deliver 1]).pending = true ∧
      (run step (start 7) [.timer 8, .deliver 1, .deliver 1]).pongNonces = [] ∧
      (run step (start 7) [.timer 8, .deliver 1, .deliver 1]).events.running = false := by
  decide

/-- The write of the first ping fails with a socket error: `handle_send_ping` stops the channel
with that code, which is neither `channel_timeout` nor `bad_stream`. -/
theorem stops_on_ping_write :
    (step (start 7) (.written (.other 104))).stops = [.other 104] := by
  decide

/-- A ping arrives while the channel is open, and the channel stops before its relayed call runs.
The `channel_stopped` broadcast reaches the ping subscription first and ends it, so the relayed
ping finds no handler and is never answered: the protocol has sent only its own ping. -/
theorem ping_unanswered_after_stop :
    (run step (start 7) [.receive (.ping 5)]).channelStopped = false ∧
      (run step (start 7) [.receive (.ping 5), .stop (.other 104), .deliver 1, .deliver 0]).sent =
        [.ping 7] ∧
      .ping .success 5 ∉
        (run step (start 7) [.receive (.ping 5), .stop (.other 104), .deliver 1, .deliver 0]).relayed := by
  decide

end Ping

end Network
