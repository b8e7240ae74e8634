import BitprimNetwork.Async.Run
import BitprimNetwork.Sessions.Session

/-!
# The inbound session

`session_inbound::start` does nothing when no inbound port or no inbound connection is
configured. Otherwise `session::start` marks the session running, subscribes `session::handle_stop`
to the network's stop, and posts `handle_started`. That creates the acceptor, subscribes
`handle_stop` (which relays a stop to the acceptor), listens on the port and starts the accept
loop: `start_accept` asks the acceptor for one connection, and `handle_accept` queues the next
`start_accept` by `dispatch_delayed`, then drops a failed accept, a blacklisted address or a
connection over `connection_limit_`, and registers the channel otherwise. Both return at once
once the session has stopped, and `handle_accept` also on `service_stopped`.

## The model

`Inbound` is one inbound session from `start`. The posted `handle_started`, the completion of an
accept (with any code and, on success, any channel, while `p2p` holds any number of channels),
a queued `start_accept` and `p2p::stop` come in any order. A subscriber to a network that has
stopped is called at once, and `acceptor::stop` cancels a pending accept, whose handler is still
called; so the accepts counted in flight are the completions still to come.

## What holds

`Inv` is kept by every event. The acceptor is asked for one connection at a time
(`accept_loop_at_most_one`), and while the session runs after a successful start, one accept is
always outstanding unless an accept has completed with `service_stopped`
(`accept_loop_live`). Such an accept ends the loop for good although the session may run on
(`accept_loop_ends_on_service_stopped`). Every registered channel was accepted on a running
session, from an address off the blacklist, while `p2p` held fewer channels than the limit
(`registered_admitted`).

A stop that reaches a started session stops the acceptor (`acceptor_stopped_by_stop`). One that
comes between `session::start` and the posted `handle_started` does not: `handle_started` then
opens the acceptor, whose stop handler has already run, and nothing stops it again
(`acceptor_left_listening`); `acceptor::~acceptor` asserts that it was stopped.
-/

namespace Network

open Async

/-- The settings `session_inbound` reads. -/
structure InboundSettings where
  /-- `inbound_port`. -/
  inboundPort : ℕ
  /-- `inbound_connections`. -/
  inboundConnections : ℕ
  /-- `outbound_connections`. -/
  outboundConnections : ℕ
  /-- `peers.size()`. -/
  peers : ℕ
  /-- `blacklists`. -/
  blacklists : List Authority

/-- `connection_limit_`. -/
def InboundSettings.connectionLimit (cfg : InboundSettings) : ℕ :=
  cfg.inboundConnections + cfg.outboundConnections + cfg.peers

/-- A node that accepts up to eight connections on port 8333, with eight outbound ones. -/
def listeningNode : InboundSettings := ⟨8333, 8, 8, 0, []⟩

/-- A channel from a peer at 127.0.0.1:50000. -/
def peerChannel : Channel := ⟨1, 0x1234, ⟨0x7f000001, 50000⟩⟩

/-- One `session_inbound`. -/
structure Inbound where
  /-- The session's `stopped_`. -/
  stopped : Bool
  /-- `p2p::stop` has called the network's stop subscribers. -/
  networkStopped : Bool
  /-- `handle_started` has been posted and has not run. -/
  delegated : Bool
  /-- The acceptor's `stopped_` is false. -/
  listening : Bool
  /-- `handle_stop` is subscribed to the network's stop and has not been called. -/
  stopSubscribed : Bool
  /-- The accept completions still to come. -/
  accepts : ℕ
  /-- The `start_accept` calls queued by `dispatch_delayed`. -/
  delayed : ℕ
  /-- The channels passed to `register_channel`, in order. -/
  registered : List Channel
  /-- The codes the start handler received. -/
  handled : List Code

/-- What happens to the inbound session. -/
inductive InboundEvent where
  /-- The posted `handle_started` runs, and `acceptor::listen` returns `listen`. -/
  | started (listen : Code)
  /-- An accept completes with `ec`, and on success with the channel `c`, while `p2p` holds
  `connections` channels. -/
  | accepted (ec : Code) (c : Channel) (connections : ℕ)
  /-- A queued `start_accept` runs. -/
  | delayedStart
  /-- `p2p::stop`. -/
  | stop

namespace Inbound

variable (cfg : InboundSettings)

/-- `session_inbound::handle_stop(ec)`: the stop goes to the acceptor, and `acceptor::stop`
cancels a pending accept, whose handler is still called. -/
def handleStop (s : Inbound) : Inbound := { s with listening := false }

/-- `p2p::stop` as the session sees it: the network's stop subscribers are called once,
`session::handle_stop` first, which stops the session, then `handle_stop` if subscribed. -/
def networkStop (s : Inbound) : Inbound :=
  let s := { s with networkStopped := true, stopped := true }
  if s.stopSubscribed then { s.handleStop with stopSubscribed := false } else s

/-- `session_inbound::start_accept`: a running session asks the acceptor for a connection; the
acceptor calls back, at once with `service_stopped` if it has stopped. -/
def startAccept (s : Inbound) : Inbound :=
  if s.stopped then s else { s with accepts := s.accepts + 1 }

/-- `session_inbound::handle_started(ec, handler)` after `session::start` succeeded, where
`acceptor::listen` returns `listen`. -/
def handleStarted (s : Inbound) (listen : Code) : Inbound :=
  -- `create_acceptor` makes a stopped acceptor. Subscribing to a network that has stopped calls
  -- `handle_stop` at once, on that stopped acceptor. `acceptor::listen` then marks the acceptor
  -- running, even when it fails.
  let s := { s with stopSubscribed := !s.networkStopped, listening := true }
  if listen.isError then { s with handled := s.handled ++ [listen] }
  else { s.startAccept with handled := s.handled ++ [.success] }

/-- `session_inbound::handle_accept(ec, channel)`, where `connection_count()` returns
`connections`. -/
def handleAccept (s : Inbound) (ec : Code) (c : Channel) (connections : ℕ) : Inbound :=
  if stoppedBy s.stopped ec then s
  else
    -- The next `start_accept` is queued, after `cycle_delay(ec)`, before the checks.
    let s := { s with delayed := s.delayed + 1 }
    if ec.isError then s
    else if blacklisted cfg.blacklists c.authority then s
    else if cfg.connectionLimit ≤ connections then s
    else { s with registered := s.registered ++ [c] }

/-- `session_inbound::start(handler)`. -/
def start : Inbound :=
  if cfg.inboundPort = 0 ∨ cfg.inboundConnections = 0 then
    ⟨true, false, false, false, false, 0, 0, [], [.success]⟩
  -- `session::start`: the session runs and `handle_started` is posted.
  else ⟨false, false, true, false, false, 0, 0, [], []⟩

/-- One event; each comes only when it is pending. -/
def step (s : Inbound) : InboundEvent → Inbound
  | .started listen =>
    if s.delegated then { s with delegated := false }.handleStarted listen else s
  | .accepted ec c connections =>
    if s.accepts = 0 then s
    else { s with accepts := s.accepts - 1 }.handleAccept cfg ec c connections
  | .delayedStart => if s.delayed = 0 then s else { s with delayed := s.delayed - 1 }.startAccept
  | .stop => if s.networkStopped then s else s.networkStop

/-! ## What each step does -/

variable {cfg}

/-- Every way a step can go. -/
theorem step_cases (s : Inbound) (e : InboundEvent) :
    step cfg s e = s ∨
      (∃ listen, e = .started listen ∧ s.delegated = true ∧
        step cfg s e = { s with delegated := false }.handleStarted listen) ∨
      (∃ ec c n, e = .accepted ec c n ∧ 0 < s.accepts ∧
        step cfg s e = { s with accepts := s.accepts - 1 }.handleAccept cfg ec c n) ∨
      (e = .delayedStart ∧ 0 < s.delayed ∧
        step cfg s e = { s with delayed := s.delayed - 1 }.startAccept) ∨
      (e = .stop ∧ s.networkStopped = false ∧ step cfg s e = s.networkStop) := by
  cases e with
  | started listen =>
    by_cases hd : s.delegated = true
    · exact .inr (.inl ⟨listen, rfl, hd, if_pos hd⟩)
    · exact .inl (if_neg hd)
  | accepted ec c n =>
    by_cases ha : s.accepts = 0
    · exact .inl (if_pos ha)
    · exact .inr (.inr (.inl ⟨ec, c, n, rfl, Nat.pos_of_ne_zero ha, if_neg ha⟩))
  | delayedStart =>
    by_cases hq : s.delayed = 0
    · exact .inl (if_pos hq)
    · exact .inr (.inr (.inr (.inl ⟨rfl, Nat.pos_of_ne_zero hq, if_neg hq⟩)))
  | stop =>
    by_cases hn : s.networkStopped = true
    · exact .inl (if_pos hn)
    · exact .inr (.inr (.inr (.inr ⟨rfl, by simpa using hn, if_neg hn⟩)))

section Fields

variable (s : Inbound)

@[simp] theorem startAccept_delayed : s.startAccept.delayed = s.delayed := by
  unfold startAccept; split_ifs <;> rfl

@[simp] theorem startAccept_registered : s.startAccept.registered = s.registered := by
  unfold startAccept; split_ifs <;> rfl

@[simp] theorem startAccept_stopped : s.startAccept.stopped = s.stopped := by
  unfold startAccept; split_ifs <;> rfl

@[simp] theorem startAccept_listening : s.startAccept.listening = s.listening := by
  unfold startAccept; split_ifs <;> rfl

@[simp] theorem startAccept_delegated : s.startAccept.delegated = s.delegated := by
  unfold startAccept; split_ifs <;> rfl

@[simp] theorem startAccept_stopSubscribed : s.startAccept.stopSubscribed = s.stopSubscribed := by
  unfold startAccept; split_ifs <;> rfl

@[simp] theorem startAccept_networkStopped : s.startAccept.networkStopped = s.networkStopped := by
  unfold startAccept; split_ifs <;> rfl

@[simp] theorem startAccept_handled : s.startAccept.handled = s.handled := by
  unfold startAccept; split_ifs <;> rfl

theorem startAccept_accepts : s.startAccept.accepts = if s.stopped then s.accepts else s.accepts + 1 := by
  unfold startAccept; split_ifs <;> rfl

/-- What `p2p::stop` does to the session. -/
theorem networkStop_eq :
    s.networkStop = { s with
      networkStopped := true
      stopped := true
      listening := s.listening && !s.stopSubscribed
      stopSubscribed := false } := by
  rcases s with ⟨stopped, networkStopped, delegated, listening, stopSubscribed, accepts, delayed,
    registered, handled⟩
  cases stopSubscribed <;> cases listening <;> rfl

@[simp] theorem networkStop_accepts : s.networkStop.accepts = s.accepts := by
  rw [networkStop_eq]

@[simp] theorem networkStop_delayed : s.networkStop.delayed = s.delayed := by
  rw [networkStop_eq]

@[simp] theorem networkStop_delegated : s.networkStop.delegated = s.delegated := by
  rw [networkStop_eq]

@[simp] theorem networkStop_registered : s.networkStop.registered = s.registered := by
  rw [networkStop_eq]

@[simp] theorem networkStop_handled : s.networkStop.handled = s.handled := by
  rw [networkStop_eq]

@[simp] theorem networkStop_stopped : s.networkStop.stopped = true := by
  rw [networkStop_eq]

@[simp] theorem networkStop_networkStopped : s.networkStop.networkStopped = true := by
  rw [networkStop_eq]

@[simp] theorem networkStop_stopSubscribed : s.networkStop.stopSubscribed = false := by
  rw [networkStop_eq]

/-- The stop leaves the acceptor running only if nothing relays the stop to it. -/
@[simp] theorem networkStop_listening :
    s.networkStop.listening = (s.listening && !s.stopSubscribed) := by
  rw [networkStop_eq]

variable (ec : Code) (c : Channel) (n : ℕ)

@[simp] theorem handleAccept_accepts : (s.handleAccept cfg ec c n).accepts = s.accepts := by
  unfold handleAccept; split_ifs <;> rfl

@[simp] theorem handleAccept_stopped : (s.handleAccept cfg ec c n).stopped = s.stopped := by
  unfold handleAccept; split_ifs <;> rfl

@[simp] theorem handleAccept_delegated : (s.handleAccept cfg ec c n).delegated = s.delegated := by
  unfold handleAccept; split_ifs <;> rfl

@[simp] theorem handleAccept_listening : (s.handleAccept cfg ec c n).listening = s.listening := by
  unfold handleAccept; split_ifs <;> rfl

@[simp] theorem handleAccept_stopSubscribed :
    (s.handleAccept cfg ec c n).stopSubscribed = s.stopSubscribed := by
  unfold handleAccept; split_ifs <;> rfl

@[simp] theorem handleAccept_networkStopped :
    (s.handleAccept cfg ec c n).networkStopped = s.networkStopped := by
  unfold handleAccept; split_ifs <;> rfl

@[simp] theorem handleAccept_handled : (s.handleAccept cfg ec c n).handled = s.handled := by
  unfold handleAccept; split_ifs <;> rfl

/-- `handle_accept` queues the next `start_accept` unless the session or the service has
stopped. -/
theorem handleAccept_delayed :
    (s.handleAccept cfg ec c n).delayed = if stoppedBy s.stopped ec then s.delayed else s.delayed + 1 := by
  unfold handleAccept; split_ifs <;> rfl

/-- `handle_accept` registers the channel of a successful accept on a running session, off the
blacklist and under the limit, and nothing else. -/
theorem handleAccept_registered :
    (s.handleAccept cfg ec c n).registered =
      if stoppedBy s.stopped ec = false ∧ ec = .success ∧
          blacklisted cfg.blacklists c.authority = false ∧ n < cfg.connectionLimit then
        s.registered ++ [c]
      else s.registered := by
  unfold handleAccept
  by_cases hs : stoppedBy s.stopped ec = true
  · simp [hs]
  · -- Past the stop check, the channel is registered when every other check lets it through.
    simp only [hs, Bool.false_eq_true, if_false, ← Code.isError_eq_false_iff]
    by_cases he : ec.isError = true
    · simp [he]
    by_cases hb : blacklisted cfg.blacklists c.authority = true
    · simp [he, hb]
    by_cases hl : cfg.connectionLimit ≤ n
    · simp [he, hb, hl]
    · simp [he, hb, hl, Nat.lt_of_not_le hl]

variable (listen : Code)

@[simp] theorem handleStarted_listening : (s.handleStarted listen).listening = true := by
  simp only [handleStarted]; split_ifs <;> simp

@[simp] theorem handleStarted_stopSubscribed :
    (s.handleStarted listen).stopSubscribed = !s.networkStopped := by
  simp only [handleStarted]; split_ifs <;> simp

@[simp] theorem handleStarted_networkStopped :
    (s.handleStarted listen).networkStopped = s.networkStopped := by
  simp only [handleStarted]; split_ifs <;> simp

@[simp] theorem handleStarted_stopped : (s.handleStarted listen).stopped = s.stopped := by
  simp only [handleStarted]; split_ifs <;> simp

@[simp] theorem handleStarted_delegated : (s.handleStarted listen).delegated = s.delegated := by
  simp only [handleStarted]; split_ifs <;> simp

@[simp] theorem handleStarted_delayed : (s.handleStarted listen).delayed = s.delayed := by
  simp only [handleStarted]; split_ifs <;> simp

@[simp] theorem handleStarted_registered : (s.handleStarted listen).registered = s.registered := by
  simp only [handleStarted]; split_ifs <;> simp

/-- The start handler gets the failure of `listen`, or success. -/
theorem handleStarted_handled :
    (s.handleStarted listen).handled =
      s.handled ++ [if listen.isError then listen else .success] := by
  simp only [handleStarted]; split_ifs <;> simp

/-- A successful `listen` on a running session starts the accept loop. -/
theorem handleStarted_accepts :
    (s.handleStarted listen).accepts =
      if listen.isError || s.stopped then s.accepts else s.accepts + 1 := by
  simp only [handleStarted]; split_ifs <;> simp_all [startAccept_accepts]

end Fields

/-! ## The invariant -/

/-- What holds of the inbound session in every run. -/
structure Inv (s : Inbound) : Prop where
  /-- At most one accept is outstanding, in flight or queued. -/
  loop : s.accepts + s.delayed ≤ 1
  /-- Until `handle_started` runs nothing is outstanding, the start handler has not been called,
  and the acceptor is stopped, with no stop handler. -/
  waiting : s.delegated = true → s.accepts = 0 ∧ s.delayed = 0 ∧ s.handled = [] ∧
    s.listening = false ∧ s.stopSubscribed = false
  /-- Afterwards the start handler has been called once. -/
  answered : s.delegated = false → s.handled.length = 1
  /-- While the network runs, a running acceptor has its stop handler subscribed. -/
  subscribed : s.networkStopped = false → s.listening = true → s.stopSubscribed = true
  /-- A stopped network has stopped the session. -/
  stopped : s.networkStopped = true → s.stopped = true

theorem inv_start : Inv (start cfg) := by
  unfold start
  split_ifs
  · exact ⟨by simp, by simp, fun _ ↦ rfl, by simp, fun _ ↦ rfl⟩
  · exact ⟨by simp, fun _ ↦ ⟨rfl, rfl, rfl, rfl, rfl⟩, by simp, by simp, by simp⟩

variable {s : Inbound}

/-- The posted `handle_started` runs. -/
theorem Inv.started (h : Inv s) (hd : s.delegated = true) (listen : Code) :
    Inv ({ s with delegated := false }.handleStarted listen) := by
  obtain ⟨ha, hq, hh, -, -⟩ := h.waiting hd
  refine ⟨?_, fun hd' ↦ by simp at hd', ?_, ?_, ?_⟩
  · rw [handleStarted_accepts, handleStarted_delayed]
    dsimp only
    split_ifs <;> omega
  · intro _
    rw [handleStarted_handled]
    simp [hh]
  · intro hn _
    simpa using hn
  · intro hn
    simpa using h.stopped (by simpa using hn)

/-- An accept completes. -/
theorem Inv.accepted (h : Inv s) (ha : 0 < s.accepts) (ec : Code) (c : Channel) (n : ℕ) :
    Inv ({ s with accepts := s.accepts - 1 }.handleAccept cfg ec c n) := by
  have hloop := h.loop
  have hd : s.delegated = false := by
    cases hd : s.delegated
    · rfl
    · have := (h.waiting hd).1
      omega
  refine ⟨?_, ?_, ?_, ?_, ?_⟩
  · rw [handleAccept_accepts, handleAccept_delayed]
    dsimp only
    split_ifs <;> omega
  · intro hd'
    simp [hd] at hd'
  · intro _
    simpa using h.answered hd
  · intro hn hl
    simpa using h.subscribed (by simpa using hn) (by simpa using hl)
  · intro hn
    simpa using h.stopped (by simpa using hn)

/-- A queued `start_accept` runs. -/
theorem Inv.delayedStart (h : Inv s) (hq : 0 < s.delayed) :
    Inv ({ s with delayed := s.delayed - 1 }.startAccept) := by
  have hloop := h.loop
  have hd : s.delegated = false := by
    cases hd : s.delegated
    · rfl
    · have := (h.waiting hd).2.1
      omega
  refine ⟨?_, ?_, ?_, ?_, ?_⟩
  · rw [startAccept_accepts, startAccept_delayed]
    dsimp only
    split_ifs <;> omega
  · intro hd'
    simp [hd] at hd'
  · intro _
    simpa using h.answered hd
  · intro hn hl
    simpa using h.subscribed (by simpa using hn) (by simpa using hl)
  · intro hn
    simpa using h.stopped (by simpa using hn)

/-- `p2p::stop`. -/
theorem Inv.networkStop (h : Inv s) : Inv s.networkStop := by
  refine ⟨?_, ?_, ?_, fun hn ↦ by simp at hn, fun _ ↦ networkStop_stopped s⟩
  · simpa using h.loop
  · intro hd
    obtain ⟨ha, hq, hh, hl, -⟩ := h.waiting (by simpa using hd)
    simp [ha, hq, hh, hl]
  · intro hd
    simpa using h.answered (by simpa using hd)

theorem inv_step (h : Inv s) (e : InboundEvent) : Inv (step cfg s e) := by
  rcases step_cases s e with hs | ⟨listen, -, hd, hs⟩ | ⟨ec, c, n, -, ha, hs⟩ | ⟨-, hq, hs⟩ |
    ⟨-, -, hs⟩ <;> rw [hs]
  · exact h
  · exact h.started hd listen
  · exact h.accepted ha ec c n
  · exact h.delayedStart hq
  · exact h.networkStop

theorem inv_run (es : List InboundEvent) : Inv (run (step cfg) (start cfg) es) :=
  run_invariant (step cfg) (I := Inv) (fun _ e h ↦ inv_step h e) es inv_start

/-! ## The start handler -/

/-- The start handler's calls only grow. -/
theorem handled_prefix_step (s : Inbound) (e : InboundEvent) :
    s.handled <+: (step cfg s e).handled := by
  rcases @step_cases cfg s e with hs | ⟨listen, -, -, hs⟩ | ⟨ec, c, n, -, -, hs⟩ | ⟨-, -, hs⟩ |
    ⟨-, -, hs⟩ <;> simp only [hs]
  · simp
  · -- Only `handle_started` calls the handler.
    rw [handleStarted_handled]
    exact List.prefix_append _ _
  · simp
  · simp
  · simp

/-- The start handler is called at most once. -/
theorem Inv.handled_length_le_one (h : Inv s) : s.handled.length ≤ 1 := by
  cases hd : s.delegated
  · exact Nat.le_of_eq (h.answered hd)
  · simp [(h.waiting hd).2.2.1]

/-- While `handle_started` is to run, it is the event that calls the start handler. -/
theorem handled_started (hd : s.delegated = true) (listen : Code) :
    (step cfg s (.started listen)).handled ≠ [] := by
  rw [step, if_pos hd, handleStarted_handled]
  simp

/-! ## The accept loop -/

/-- A running session whose start succeeded keeps one accept outstanding. -/
def Live (s : Inbound) : Prop :=
  s.stopped = false → s.handled = [.success] → s.accepts + s.delayed = 1

theorem live_start : Live (start cfg) := by
  unfold start
  split_ifs
  · intro hs
    simp at hs
  · intro _ hh
    simp at hh

/-- Every event but an accept that completes with `service_stopped` keeps the loop going. -/
theorem Inv.live_step (h : Inv s) (hl : Live s) {e : InboundEvent}
    (he : ∀ c n, e ≠ .accepted .serviceStopped c n) : Live (step cfg s e) := by
  rcases step_cases s e with hs | ⟨listen, -, hd, hs⟩ | ⟨ec, c, n, rfl, ha, hs⟩ | ⟨-, hq, hs⟩ |
    ⟨-, -, hs⟩ <;> rw [hs]
  · exact hl
  · -- `handle_started`: a handler told of success means `listen` succeeded and the loop starts.
    obtain ⟨ha, hq, hh, -, -⟩ := h.waiting hd
    intro hstop hsucc
    rw [handleStarted_handled] at hsucc
    have hlisten : listen.isError = false := by
      cases hlisten : listen.isError
      · rfl
      · simp [hh, hlisten] at hsucc
        simp [hsucc] at hlisten
    rw [handleStarted_accepts, handleStarted_delayed]
    simp only [handleStarted_stopped] at hstop
    simp [hlisten, hstop, ha, hq]
  · -- An accept completes on a running session and queues the next `start_accept`.
    intro hstop hsucc
    simp only [handleAccept_stopped, handleAccept_handled] at hstop hsucc
    have hone := hl hstop hsucc
    have hec : ec ≠ .serviceStopped := fun hec ↦ he c n (by rw [hec])
    rw [handleAccept_accepts, handleAccept_delayed]
    simp [stoppedBy, hstop, hec]
    omega
  · -- The queued `start_accept` asks for the next connection.
    intro hstop hsucc
    simp only [startAccept_stopped, startAccept_handled] at hstop hsucc
    have hone := hl hstop hsucc
    rw [startAccept_accepts, startAccept_delayed]
    simp [hstop]
    omega
  · intro hstop
    simp at hstop

/-- Once no accept is outstanding after `handle_started`, none ever is again, and no channel is
registered. -/
theorem dead_step {s : Inbound} (ha : s.accepts = 0) (hq : s.delayed = 0)
    (hd : s.delegated = false) (e : InboundEvent) :
    (step cfg s e).accepts = 0 ∧ (step cfg s e).delayed = 0 ∧ (step cfg s e).delegated = false ∧
      (step cfg s e).registered = s.registered := by
  rcases step_cases s e with hs | ⟨-, -, hd', -⟩ | ⟨-, -, -, -, ha', -⟩ | ⟨-, hq', -⟩ |
    ⟨-, -, hs⟩
  · rw [hs]
    exact ⟨ha, hq, hd, rfl⟩
  · simp [hd] at hd'
  · omega
  · omega
  · rw [hs]
    simp [ha, hq, hd]

/-- A step registers a channel only by a successful accept on a running session, from an
address off the blacklist, while `p2p` holds fewer channels than the limit. -/
theorem mem_registered_step {s : Inbound} {e : InboundEvent} {c : Channel}
    (hc : c ∈ (step cfg s e).registered) (hnew : c ∉ s.registered) :
    ∃ n, e = .accepted .success c n ∧ s.stopped = false ∧
      blacklisted cfg.blacklists c.authority = false ∧ n < cfg.connectionLimit := by
  rcases step_cases s e with hs | ⟨listen, -, -, hs⟩ | ⟨ec, c', n, rfl, -, hs⟩ | ⟨-, -, hs⟩ |
    ⟨-, -, hs⟩ <;> rw [hs] at hc
  · exact absurd hc hnew
  · simp only [handleStarted_registered] at hc
    exact absurd hc hnew
  · rw [handleAccept_registered] at hc
    split_ifs at hc with hadmit
    · obtain ⟨hrun, rfl, hbl, hlt⟩ := hadmit
      rcases List.mem_append.1 hc with hc | hc
      · exact absurd hc hnew
      · obtain rfl := List.mem_singleton.1 hc
        refine ⟨n, rfl, ?_, hbl, hlt⟩
        simpa [stoppedBy] using hrun
    · exact absurd hc hnew
  · simp only [startAccept_registered] at hc
    exact absurd hc hnew
  · simp only [networkStop_registered] at hc
    exact absurd hc hnew

/-! ## The inbound session in every run -/

/-- **One accept at a time.** In every run, the inbound session has at most one accept
outstanding, in flight or queued. -/
theorem accept_loop_at_most_one (es : List InboundEvent) :
    (run (step cfg) (start cfg) es).accepts + (run (step cfg) (start cfg) es).delayed ≤ 1 :=
  (inv_run es).loop

/-- **The loop keeps going.** In every run in which no accept completes with `service_stopped`,
a running session whose start handler was told of success has one accept outstanding. -/
theorem accept_loop_live (es : List InboundEvent)
    (hes : ∀ c n, InboundEvent.accepted .serviceStopped c n ∉ es)
    (hrun : (run (step cfg) (start cfg) es).stopped = false)
    (hsucc : (run (step cfg) (start cfg) es).handled = [.success]) :
    (run (step cfg) (start cfg) es).accepts + (run (step cfg) (start cfg) es).delayed = 1 := by
  have hboth : Inv (run (step cfg) (start cfg) es) ∧ Live (run (step cfg) (start cfg) es) := by
    refine run_invariant_of_mem (step cfg) (I := fun s ↦ Inv s ∧ Live s) es ?_
      ⟨inv_start, live_start⟩
    intro s e he hs
    refine ⟨inv_step hs.1 e, hs.1.live_step hs.2 ?_⟩
    rintro c n rfl
    exact hes c n he
  exact hboth.2 hrun hsucc

/-- A listening node starts, accepts a peer and asks for the next connection. -/
theorem accept_loop_live_accepted :
    (∀ c n, InboundEvent.accepted .serviceStopped c n ∉
        [.started .success, .accepted .success peerChannel 3, .delayedStart]) ∧
      (run (step listeningNode) (start listeningNode)
        [.started .success, .accepted .success peerChannel 3, .delayedStart]).stopped = false ∧
      (run (step listeningNode) (start listeningNode)
        [.started .success, .accepted .success peerChannel 3, .delayedStart]).handled =
        [.success] ∧
      (run (step listeningNode) (start listeningNode)
          [.started .success, .accepted .success peerChannel 3, .delayedStart]).accepts +
        (run (step listeningNode) (start listeningNode)
          [.started .success, .accepted .success peerChannel 3, .delayedStart]).delayed = 1 := by
  have hes : ∀ c n, InboundEvent.accepted .serviceStopped c n ∉
      [.started .success, .accepted .success peerChannel 3, .delayedStart] := by
    intro c n hmem
    simp at hmem
  have hrun : (run (step listeningNode) (start listeningNode)
      [.started .success, .accepted .success peerChannel 3, .delayedStart]).stopped = false := by
    decide
  have hsucc : (run (step listeningNode) (start listeningNode)
      [.started .success, .accepted .success peerChannel 3, .delayedStart]).handled =
      [.success] := by
    decide
  exact ⟨hes, hrun, hsucc, accept_loop_live _ hes hrun hsucc⟩

/-- **An accept that reports `service_stopped` ends the loop.** From any point of any run at
which an accept is in flight, if it completes with `service_stopped`, no accept is ever
outstanding again and no channel is registered, whatever comes next, although nothing may have
stopped the session. -/
theorem accept_loop_ends_on_service_stopped (es es' : List InboundEvent) (c : Channel) (n : ℕ)
    (ha : 0 < (run (step cfg) (start cfg) es).accepts) :
    (run (step cfg) (start cfg) (es ++ .accepted .serviceStopped c n :: es')).accepts = 0 ∧
      (run (step cfg) (start cfg) (es ++ .accepted .serviceStopped c n :: es')).delayed = 0 ∧
      (run (step cfg) (start cfg) (es ++ .accepted .serviceStopped c n :: es')).registered =
        (run (step cfg) (start cfg) es).registered := by
  have h := @inv_run cfg es
  have hloop := h.loop
  have hd : (run (step cfg) (start cfg) es).delegated = false := by
    cases hd : (run (step cfg) (start cfg) es).delegated
    · rfl
    · have := (h.waiting hd).1
      omega
  -- The completion queues nothing: `stopped(ec)` holds for `service_stopped`.
  have hstep : step cfg (run (step cfg) (start cfg) es) (.accepted .serviceStopped c n) =
      { run (step cfg) (start cfg) es with
        accepts := (run (step cfg) (start cfg) es).accepts - 1 } := by
    simp only [step, Nat.pos_iff_ne_zero.1 ha, if_false, handleAccept, stoppedBy]
    simp
  -- From there on the loop stays dead.
  have hdead := run_invariant (step cfg)
    (I := fun t ↦ t.accepts = 0 ∧ t.delayed = 0 ∧ t.delegated = false ∧
      t.registered = (run (step cfg) (start cfg) es).registered)
    (fun t e ht ↦ by
      obtain ⟨ha', hq', hd', hr'⟩ := @dead_step cfg _ ht.1 ht.2.1 ht.2.2.1 e
      exact ⟨ha', hq', hd', hr'.trans ht.2.2.2⟩)
    es' (s := step cfg (run (step cfg) (start cfg) es) (.accepted .serviceStopped c n))
    (by rw [hstep]; exact ⟨by simp; omega, by simp; omega, hd, rfl⟩)
  rw [run_append, run_cons]
  exact ⟨hdead.1, hdead.2.1, hdead.2.2.2⟩

/-- A listening node's first accept reports `service_stopped`: a later queued `start_accept` and
accept find nothing to do. -/
theorem accept_loop_ends_on_service_stopped_first :
    0 < (run (step listeningNode) (start listeningNode) [.started .success]).accepts ∧
      (run (step listeningNode) (start listeningNode)
          ([.started .success] ++ .accepted .serviceStopped peerChannel 0 ::
            [.delayedStart, .accepted .success peerChannel 0])).accepts = 0 ∧
      (run (step listeningNode) (start listeningNode)
          ([.started .success] ++ .accepted .serviceStopped peerChannel 0 ::
            [.delayedStart, .accepted .success peerChannel 0])).delayed = 0 ∧
      (run (step listeningNode) (start listeningNode)
          ([.started .success] ++ .accepted .serviceStopped peerChannel 0 ::
            [.delayedStart, .accepted .success peerChannel 0])).registered =
        (run (step listeningNode) (start listeningNode) [.started .success]).registered := by
  have ha : 0 < (run (step listeningNode) (start listeningNode) [.started .success]).accepts := by
    decide
  exact ⟨ha, accept_loop_ends_on_service_stopped _ _ _ _ ha⟩

/-- **Admission.** In every run, every channel the inbound session registers was accepted with
success by a running session, from an address off the blacklist, while `p2p` held fewer
channels than `connection_limit_`. -/
theorem registered_admitted (es : List InboundEvent) {c : Channel}
    (hc : c ∈ (run (step cfg) (start cfg) es).registered) :
    ∃ pre n post, es = pre ++ .accepted .success c n :: post ∧
      (run (step cfg) (start cfg) pre).stopped = false ∧
      blacklisted cfg.blacklists c.authority = false ∧ n < cfg.connectionLimit := by
  have hstart : c ∉ (start cfg).registered := by
    unfold start
    split_ifs <;> simp
  obtain ⟨pre, e, post, rfl, hpre, hstep⟩ :=
    exists_step_of_mem_run (step cfg) registered hc hstart
  obtain ⟨n, rfl, hrun, hbl, hlt⟩ := mem_registered_step hstep hpre
  exact ⟨pre, n, post, rfl, hrun, hbl, hlt⟩

/-- A listening node registers the first peer it accepts. -/
theorem registered_admitted_peer :
    peerChannel ∈ (run (step listeningNode) (start listeningNode)
        [.started .success, .accepted .success peerChannel 3]).registered ∧
      ∃ pre n post, [InboundEvent.started .success, .accepted .success peerChannel 3] =
          pre ++ .accepted .success peerChannel n :: post ∧
        (run (step listeningNode) (start listeningNode) pre).stopped = false ∧
        blacklisted listeningNode.blacklists peerChannel.authority = false ∧
        n < listeningNode.connectionLimit := by
  have hc : peerChannel ∈ (run (step listeningNode) (start listeningNode)
      [.started .success, .accepted .success peerChannel 3]).registered := by
    decide
  exact ⟨hc, registered_admitted _ hc⟩

/-! ## Stopping the acceptor -/

/-- **A stop stops a started session's acceptor.** In every run, a `p2p::stop` that comes after
`handle_started` has run stops the acceptor for good. -/
theorem acceptor_stopped_by_stop (es es' : List InboundEvent)
    (hd : (run (step cfg) (start cfg) es).delegated = false)
    (hn : (run (step cfg) (start cfg) es).networkStopped = false) :
    (run (step cfg) (start cfg) (es ++ .stop :: es')).listening = false := by
  have h := @inv_run cfg es
  -- The stop finds the acceptor stopped, or its stop handler subscribed.
  have hshut : (step cfg (run (step cfg) (start cfg) es) .stop).listening = false ∧
      (step cfg (run (step cfg) (start cfg) es) .stop).delegated = false := by
    have hstop : step cfg (run (step cfg) (start cfg) es) .stop =
        (run (step cfg) (start cfg) es).networkStop := if_neg (by simp [hn])
    rw [hstop, networkStop_listening, networkStop_delegated]
    refine ⟨?_, hd⟩
    cases hl : (run (step cfg) (start cfg) es).listening
    · rfl
    · simp [h.subscribed hn hl]
  have hclosed := run_invariant (step cfg)
    (I := fun t ↦ t.listening = false ∧ t.delegated = false)
    (fun t e ht ↦ by
      rcases step_cases t e with hs | ⟨-, -, hd', -⟩ | ⟨ec, c, n, -, -, hs⟩ | ⟨-, -, hs⟩ |
        ⟨-, -, hs⟩ <;> (try rw [hs])
      · exact ht
      · simp [ht.2] at hd'
      · simpa using ht
      · simpa using ht
      · simp [ht.1, ht.2])
    es' hshut
  rw [run_append, run_cons]
  exact hclosed.1

/-- A listening node that has started is stopped; its pending accept then completes. -/
theorem acceptor_stopped_by_stop_started :
    (run (step listeningNode) (start listeningNode) [.started .success]).delegated = false ∧
      (run (step listeningNode) (start listeningNode) [.started .success]).networkStopped = false ∧
      (run (step listeningNode) (start listeningNode)
        ([.started .success] ++ .stop :: [.accepted .serviceStopped peerChannel 0])).listening =
        false := by
  have hd : (run (step listeningNode) (start listeningNode) [.started .success]).delegated =
      false := by
    decide
  have hn : (run (step listeningNode) (start listeningNode) [.started .success]).networkStopped =
      false := by
    decide
  exact ⟨hd, hn, acceptor_stopped_by_stop _ _ hd hn⟩

/-- **A stop before `handle_started` leaves the acceptor listening.** On a session configured to
accept connections, if `p2p::stop` comes between `session::start` and the posted
`handle_started`, then, whatever `listen` returns and whatever comes next, the acceptor stays
marked running on a stopped network: its stop handler ran before it existed. -/
theorem acceptor_left_listening (hcfg : cfg.inboundPort ≠ 0 ∧ cfg.inboundConnections ≠ 0)
    (listen : Code) (es : List InboundEvent) :
    (run (step cfg) (start cfg) (.stop :: .started listen :: es)).listening = true ∧
      (run (step cfg) (start cfg) (.stop :: .started listen :: es)).networkStopped = true := by
  have hstart : start cfg = ⟨false, false, true, false, false, 0, 0, [], []⟩ := by
    unfold start
    rw [if_neg (by omega)]
  -- After the stop and `handle_started`, the acceptor runs with no stop handler.
  have hopen := run_invariant (step cfg)
    (I := fun t ↦ t.listening = true ∧ t.stopSubscribed = false ∧ t.delegated = false ∧
      t.networkStopped = true)
    (fun t e ht ↦ by
      rcases step_cases t e with hs | ⟨-, -, hd', -⟩ | ⟨ec, c, n, -, -, hs⟩ | ⟨-, -, hs⟩ |
        ⟨-, hn', -⟩ <;> (try rw [hs])
      · exact ht
      · simp [ht.2.2.1] at hd'
      · simpa using ht
      · simpa using ht
      · simp [ht.2.2.2] at hn')
    es (s := step cfg (step cfg (start cfg) .stop) (.started listen))
    (by rw [hstart]; simp [step, networkStop_eq])
  exact ⟨hopen.1, hopen.2.2.2⟩

/-- A listening node stopped before `handle_started` runs, whose `listen` succeeds. -/
theorem acceptor_left_listening_listening_node :
    (listeningNode.inboundPort ≠ 0 ∧ listeningNode.inboundConnections ≠ 0) ∧
      (run (step listeningNode) (start listeningNode) [.stop, .started .success]).listening =
        true ∧
      (run (step listeningNode) (start listeningNode)
        [.stop, .started .success]).networkStopped = true := by
  have hcfg : listeningNode.inboundPort ≠ 0 ∧ listeningNode.inboundConnections ≠ 0 := by
    decide
  exact ⟨hcfg, acceptor_left_listening hcfg .success []⟩

end Inbound

end Network
