import Mathlib.Logic.Function.Iterate
import BitprimNetwork.Async.Join
import BitprimNetwork.Core

/-!
# The connection cycles of the outbound session

`session_outbound` keeps `outbound_connections` connections going. Each is a cycle:
`new_connection` starts a batch of `batch_size_` connect attempts joined by
`synchronize(handler, batch_size_, on_success)`, which calls `handle_connect` once, on the first
attempt that connects or on the last attempt. A failure queues a delayed `new_connection`; a
channel is registered, and when it stops (`handle_channel_stop`, which the registration calls
exactly once, also when the channel fails to start) `new_connection` runs again. Once the session
has stopped, `new_connection` does nothing and the cycles die out.

## The model

`Outbound` counts what is live: the batches whose join has not fired, the queued retries, and
the registered channels whose stop handler has not run. Each attempt's outcome (a failed
address fetch, a blacklisted address, a connector failure, the session stopping, or a
channel) is one event, as are the firing of a retry, the stop handler of a registered channel,
and the session's stop. Each registration's own course, up to its one `handle_stopped`, is the
subject of `Registration`; here it is the one event that ends the channel's cycle.

The code `handle_connect` receives is the synchronizer's: bitprim-core chooses it when an attempt
completes the join, and src/ does not show how. The attempt's event carries it, so every result
below holds whatever the synchronizer reports.

## The cycles

`Cycles` is the abstract state: how many cycles connect, wait to retry, or hold a registered
channel. A `CycleMove` takes one cycle to its next phase. A batch ends in a retry (`fail`) or a
channel (`connect`); a retry firing (`retry`) or a channel stopping (`drop`) starts one batch. No
move changes the number of cycles.

While the session runs, each event moves the cycles exactly as `cycleMove` names (`step_cycles`),
so every cycle end starts exactly one batch and none starts two. Exactly `outbound_connections`
cycles are live until the session stops (`cycles_of_running`).

## The start sequence

`session_outbound::start(handler)` calls the handler at once with success when no outbound
connection is configured. Otherwise `session::start` on the new session succeeds and posts
`handle_started`, which runs `new_connection` once per connection and then calls the handler with
success. `OutboundStart` is the session from `start`: the cycles, whether `handle_started` is still
to run, and the codes the handler received. The session may be stopped before `handle_started`
runs; every `new_connection` then does nothing, so no cycle starts (`live_stop_started`).
Otherwise the cycles are those of `Outbound.start` (`run_started`), and the handler is called
once, with success.
-/

namespace Network

open Async

/-- How many connection cycles are in each phase. -/
structure Cycles where
  /-- A batch connect is in progress. -/
  connecting : ℕ
  /-- A delayed `new_connection` is queued. -/
  retrying : ℕ
  /-- A registered channel has not stopped. -/
  registered : ℕ
  deriving DecidableEq, Repr

/-- One cycle passing to its next phase. -/
inductive CycleMove where
  /-- Every attempt of a batch failed: a retry is queued. -/
  | fail
  /-- An attempt of a batch connected: its channel is registered. -/
  | connect
  /-- A queued retry fires and starts a batch. -/
  | retry
  /-- A registered channel stops, and a batch starts. -/
  | drop
  deriving DecidableEq, Repr

namespace Cycles

/-- The number of cycles. -/
def total (x : Cycles) : ℕ := x.connecting + x.retrying + x.registered

/-- There is a cycle for the move to take. -/
def Enabled (x : Cycles) : CycleMove → Prop
  | .fail | .connect => 0 < x.connecting
  | .retry => 0 < x.retrying
  | .drop => 0 < x.registered

/-- The move of one cycle. -/
def step (x : Cycles) : CycleMove → Cycles
  | .fail => ⟨x.connecting - 1, x.retrying + 1, x.registered⟩
  | .connect => ⟨x.connecting - 1, x.retrying, x.registered + 1⟩
  | .retry => ⟨x.connecting + 1, x.retrying - 1, x.registered⟩
  | .drop => ⟨x.connecting + 1, x.retrying, x.registered - 1⟩

/-- `y` is `x` after the move, if there is one, and `x` itself if there is none. -/
def Moves (x : Cycles) : Option CycleMove → Cycles → Prop
  | some m, y => x.Enabled m ∧ y = x.step m
  | none, y => y = x

/-- A move keeps the number of cycles. -/
theorem total_step {x : Cycles} {m : CycleMove} (h : x.Enabled m) :
    (x.step m).total = x.total := by
  cases m <;> simp only [Enabled] at h <;> simp only [step, total] <;> omega

theorem total_of_moves {x y : Cycles} {mo : Option CycleMove} (h : x.Moves mo y) :
    y.total = x.total := by
  cases mo with
  | none => rw [show y = x from h]
  | some m =>
    obtain ⟨hm, rfl⟩ := h
    exact total_step hm

end Cycles

/-- The live cycles of `session_outbound`. -/
structure Outbound where
  /-- The session has stopped. -/
  stopped : Bool
  /-- The joins of the batch connects in progress. -/
  batches : List Join
  /-- The `new_connection` calls queued by `dispatch_delayed`. -/
  retries : ℕ
  /-- The registered channels whose stop handler has not run. -/
  channels : ℕ

/-- What happens to the outbound session. -/
inductive OutboundEvent where
  /-- An attempt of the `i`-th batch in progress ends with `ec`; if it completes the batch's
  join, `handle_connect` receives `reported`. -/
  | attempt (i : ℕ) (ec reported : Code)
  /-- A queued retry fires. -/
  | retry
  /-- A registered channel's `handle_stopped` runs. -/
  | channelStopped
  /-- The network stops the session. -/
  | stop

namespace Outbound

variable (batchSize : ℕ)

/-- `session_outbound::new_connection`: unless stopped, `session_batch::connect` starts a
batch. -/
def newConnection (o : Outbound) : Outbound :=
  if o.stopped then o else { o with batches := o.batches ++ [Join.start .onSuccess batchSize] }

/-- `session_outbound::handle_connect`: a failure queues a delayed retry, a channel is
registered. Registering with a stopped session calls `handle_channel_stop` at once. -/
def handleConnect (o : Outbound) (ec : Code) : Outbound :=
  if ec.isError then { o with retries := o.retries + 1 }
  else if o.stopped then newConnection batchSize o
  else { o with channels := o.channels + 1 }

/-- `session_outbound::start` and `handle_started`: `outbound_connections` cycles, if any. -/
def start (outboundConnections : ℕ) : Outbound :=
  if outboundConnections = 0 then ⟨true, [], 0, 0⟩
  else (newConnection batchSize)^[outboundConnections] ⟨false, [], 0, 0⟩

/-- One event. -/
def step (o : Outbound) : OutboundEvent → Outbound
  | .attempt i ec reported =>
    match o.batches[i]? with
    | some j =>
      if (j.call Code.success ec).2 then
        handleConnect batchSize { o with batches := o.batches.eraseIdx i } reported
      else { o with batches := o.batches.set i (j.call Code.success ec).1 }
    | none => o
  | .retry =>
    if o.retries = 0 then o else newConnection batchSize { o with retries := o.retries - 1 }
  | .channelStopped =>
    if o.channels = 0 then o else newConnection batchSize { o with channels := o.channels - 1 }
  | .stop => { o with stopped := true }

/-- The live cycles: batches in progress, queued retries and registered channels. -/
def live (o : Outbound) : ℕ := o.batches.length + o.retries + o.channels

/-- The cycles, phase by phase. -/
def cycles (o : Outbound) : Cycles := ⟨o.batches.length, o.retries, o.channels⟩

/-- The move an event makes: the attempt that completes its batch's join ends the batch, in a
retry or a channel as `handle_connect`'s code says; a queued retry, or a registered channel's
stop, starts a batch. -/
def cycleMove (o : Outbound) : OutboundEvent → Option CycleMove
  | .attempt i ec reported =>
    match o.batches[i]? with
    | some j =>
      if (j.call Code.success ec).2 then some (if reported.isError then .fail else .connect)
      else none
    | none => none
  | .retry => if o.retries = 0 then none else some .retry
  | .channelStopped => if o.channels = 0 then none else some .drop
  | .stop => none

/-! ## The cycles of a running session -/

variable {batchSize}

@[simp] theorem stopped_newConnection (o : Outbound) :
    (newConnection batchSize o).stopped = o.stopped := by
  unfold newConnection; split_ifs <;> rfl

theorem live_eq_total (o : Outbound) : live o = o.cycles.total := rfl

/-- A running session's `new_connection` starts one batch. -/
theorem cycles_newConnection {o : Outbound} (h : o.stopped = false) :
    (newConnection batchSize o).cycles =
      ⟨o.cycles.connecting + 1, o.cycles.retrying, o.cycles.registered⟩ := by
  simp [newConnection, h, cycles]

theorem live_iterate_newConnection {o : Outbound} (h : o.stopped = false) (n : ℕ) :
    live ((newConnection batchSize)^[n] o) = live o + n ∧
      ((newConnection batchSize)^[n] o).stopped = false := by
  induction n with
  | zero => exact ⟨rfl, h⟩
  | succ n ih =>
    obtain ⟨hlive, hrun⟩ := ih
    rw [Function.iterate_succ_apply']
    refine ⟨?_, by rw [stopped_newConnection]; exact hrun⟩
    rw [live_eq_total, cycles_newConnection hrun]
    rw [live_eq_total] at hlive
    simp only [Cycles.total] at hlive ⊢
    omega

/-- The attempt that completes its batch's join: `handle_connect` ends the batch in a retry or a
registered channel. -/
theorem cycles_handleConnect {o : Outbound} (h : o.stopped = false) {i : ℕ}
    (hi : i < o.batches.length) (reported : Code) :
    o.cycles.Moves (some (if reported.isError then .fail else .connect))
      (handleConnect batchSize { o with batches := o.batches.eraseIdx i } reported).cycles := by
  -- The batch ends: one batch fewer, whichever way the cycle goes on.
  have hpos : 0 < o.batches.length := Nat.lt_of_le_of_lt (Nat.zero_le i) hi
  have hlen : (o.batches.eraseIdx i).length = o.batches.length - 1 :=
    List.length_eraseIdx_of_lt hi
  unfold handleConnect
  split_ifs with herr hstop
  · exact ⟨hpos, by simp only [cycles, Cycles.step, hlen]⟩
  · simp [h] at hstop
  · -- The session runs, so the channel is registered.
    exact ⟨hpos, by simp only [cycles, Cycles.step, hlen]⟩

/-- **One step.** On a running session every event moves the cycles as `cycleMove` names: the
attempt that completes its batch's join ends the batch, a queued retry or a stopped channel
starts exactly one batch, and every other event leaves the cycles alone. -/
theorem step_cycles {o : Outbound} (h : o.stopped = false) (e : OutboundEvent) :
    o.cycles.Moves (o.cycleMove e) (step batchSize o e).cycles := by
  cases e with
  | attempt i ec reported =>
    simp only [step, cycleMove]
    rcases hj : o.batches[i]? with _ | j
    · rfl
    · have hi : i < o.batches.length := (List.getElem?_eq_some_iff.mp hj).1
      by_cases hfire : (j.call Code.success ec).2 = true
      · simp only [hfire, if_true]
        exact cycles_handleConnect h hi reported
      · -- The join counts the call and waits for more.
        simp only [hfire, Bool.false_eq_true, if_false]
        simp [Cycles.Moves, cycles]
  | retry =>
    simp only [step, cycleMove]
    split_ifs with hr
    · rfl
    · refine ⟨Nat.pos_of_ne_zero hr, ?_⟩
      rw [cycles_newConnection (o := { o with retries := o.retries - 1 }) h]
      rfl
  | channelStopped =>
    simp only [step, cycleMove]
    split_ifs with hc
    · rfl
    · refine ⟨Nat.pos_of_ne_zero hc, ?_⟩
      rw [cycles_newConnection (o := { o with channels := o.channels - 1 }) h]
      rfl
  | stop => rfl

/-- Once stopped, the session stays stopped. -/
theorem stopped_step {o : Outbound} (h : o.stopped = true) (e : OutboundEvent) :
    (step batchSize o e).stopped = true := by
  cases e with
  | attempt i ec reported =>
    simp only [step]
    split
    · split_ifs
      · unfold handleConnect
        split_ifs <;> simp [h]
      · exact h
    · exact h
  | retry =>
    simp only [step]
    split_ifs <;> simp [h]
  | channelStopped =>
    simp only [step]
    split_ifs <;> simp [h]
  | stop => rfl

/-- In every run, as long as the session has not stopped, exactly `outbound_connections` cycles
are live. -/
theorem live_eq_of_running (outboundConnections : ℕ) (es : List OutboundEvent)
    (hrun : (run (step batchSize) (start batchSize outboundConnections) es).stopped = false) :
    live (run (step batchSize) (start batchSize outboundConnections) es) = outboundConnections := by
  -- The invariant: a running session has exactly `outbound_connections` live cycles.
  have hinv : ∀ o : Outbound, (o.stopped = false → live o = outboundConnections) →
      ∀ e, (step batchSize o e).stopped = false → live (step batchSize o e) = outboundConnections := by
    intro o ho e he
    have hs : o.stopped = false := by
      cases hs : o.stopped
      · rfl
      · simp [stopped_step hs e] at he
    rw [live_eq_total, Cycles.total_of_moves (step_cycles hs e), ← live_eq_total, ho hs]
  refine run_invariant (I := fun o ↦ o.stopped = false → live o = outboundConnections) _
    (fun o e ho ↦ hinv o ho e) es ?_ hrun
  intro hs
  have h0 : outboundConnections ≠ 0 := by
    rintro rfl
    simp [start] at hs
  rw [start, if_neg h0]
  simpa [live] using
    (@live_iterate_newConnection batchSize ⟨false, [], 0, 0⟩ rfl outboundConnections).1

/-- **The outbound session keeps its connections.** In every run, as long as the session has not
stopped, exactly `outbound_connections` cycles are live, and the next event moves them as
`cycleMove` names: every cycle end starts exactly one batch, and none starts two. -/
theorem cycles_of_running (outboundConnections : ℕ) (es : List OutboundEvent) (e : OutboundEvent)
    (hrun : (run (step batchSize) (start batchSize outboundConnections) es).stopped = false) :
    live (run (step batchSize) (start batchSize outboundConnections) es) = outboundConnections ∧
      (run (step batchSize) (start batchSize outboundConnections) es).cycles.Moves
        ((run (step batchSize) (start batchSize outboundConnections) es).cycleMove e)
        (step batchSize (run (step batchSize) (start batchSize outboundConnections) es) e).cycles :=
  ⟨live_eq_of_running outboundConnections es hrun, step_cycles hrun e⟩

/-- With the default 8 connections in batches of 5: one attempt of the first batch times out and
the next connects, so that cycle's channel is registered; when it stops, a new batch starts. -/
theorem cycles_of_running_default :
    (run (step 5) (start 5 8)
        [.attempt 0 .channelTimeout .channelTimeout, .attempt 0 .success .success]).stopped = false ∧
      live (run (step 5) (start 5 8)
        [.attempt 0 .channelTimeout .channelTimeout, .attempt 0 .success .success]) = 8 ∧
      (run (step 5) (start 5 8)
        [.attempt 0 .channelTimeout .channelTimeout, .attempt 0 .success .success]).cycles.Moves
        ((run (step 5) (start 5 8)
          [.attempt 0 .channelTimeout .channelTimeout, .attempt 0 .success .success]).cycleMove
            .channelStopped)
        (step 5 (run (step 5) (start 5 8)
          [.attempt 0 .channelTimeout .channelTimeout, .attempt 0 .success .success])
            .channelStopped).cycles := by
  have hrun : (run (step 5) (start 5 8)
      [.attempt 0 .channelTimeout .channelTimeout, .attempt 0 .success .success]).stopped = false := by
    decide
  exact ⟨hrun, cycles_of_running 8 _ .channelStopped hrun⟩

end Outbound

/-- `session_outbound` from `start(handler)`. -/
structure OutboundStart where
  /-- `handle_started` has been posted and has not run. -/
  delegated : Bool
  /-- The connection cycles. -/
  cycles : Outbound
  /-- The codes the start handler received. -/
  handled : List Code

/-- What happens to the outbound session from its start. -/
inductive OutboundStartEvent where
  /-- The posted `handle_started` runs. -/
  | started
  /-- An event of the connection cycles. -/
  | cycle (e : OutboundEvent)

namespace OutboundStart

variable (batchSize outboundConnections : ℕ)

/-- `session_outbound::start(handler)`. -/
def start : OutboundStart :=
  if outboundConnections = 0 then ⟨false, ⟨true, [], 0, 0⟩, [.success]⟩
  -- `session::start` on a new session succeeds, and posts `handle_started`.
  else ⟨true, ⟨false, [], 0, 0⟩, []⟩

/-- `session_outbound::handle_started(ec, handler)` after `session::start` succeeded. -/
def handleStarted (s : OutboundStart) : OutboundStart :=
  { s with
    cycles := (Outbound.newConnection batchSize)^[outboundConnections] s.cycles
    -- This is the end of the start sequence.
    handled := s.handled ++ [.success] }

/-- One event; the posted `handle_started` runs once. -/
def step (s : OutboundStart) : OutboundStartEvent → OutboundStart
  | .started =>
    if s.delegated then handleStarted batchSize outboundConnections { s with delegated := false }
    else s
  | .cycle e => { s with cycles := Outbound.step batchSize s.cycles e }

/-- The handler has been called once `handle_started` has run, with success, and not before. -/
def Inv (s : OutboundStart) : Prop := s.handled = if s.delegated then [] else [.success]

variable {batchSize outboundConnections}

theorem inv_start : Inv (start outboundConnections) := by
  unfold start
  split_ifs <;> rfl

theorem inv_step {s : OutboundStart} (h : Inv s) (e : OutboundStartEvent) :
    Inv (step batchSize outboundConnections s e) := by
  cases e with
  | started =>
    unfold step
    split_ifs with hd
    · -- `handle_started` calls the handler, which had not been called.
      rw [Inv, hd, if_pos rfl] at h
      simp [Inv, handleStarted, h]
    · exact h
  | cycle e => exact h

/-- The handler's calls only grow. -/
theorem handled_prefix_step (s : OutboundStart) (e : OutboundStartEvent) :
    s.handled <+: (step batchSize outboundConnections s e).handled := by
  cases e with
  | started =>
    unfold step
    split_ifs
    · exact List.prefix_append _ _
    · exact List.prefix_refl _
  | cycle e => exact List.prefix_refl _

theorem handled_length_le_one {s : OutboundStart} (h : Inv s) : s.handled.length ≤ 1 := by
  rw [h]
  split_ifs <;> simp

/-- While `handle_started` is to run, it is the event that calls the handler. -/
theorem handled_step_started {s : OutboundStart} (h : Inv s) (hd : s.delegated = true) :
    (step batchSize outboundConnections s .started).handled = [.success] := by
  rw [Inv, hd, if_pos rfl] at h
  simp [step, hd, handleStarted, h]

/-- The cycles' events touch only the cycles. -/
theorem run_cycle (s : OutboundStart) (es : List OutboundEvent) :
    run (step batchSize outboundConnections) s (es.map .cycle) =
      { s with cycles := run (Outbound.step batchSize) s.cycles es } := by
  induction es generalizing s with
  | nil => rfl
  | cons e es ih => exact ih { s with cycles := Outbound.step batchSize s.cycles e }

/-- **The start sequence starts the cycles of `Outbound.start`.** If `handle_started` runs first,
the session runs the cycles of `Outbound.start`, and its handler has been called with success. -/
theorem run_started (es : List OutboundEvent) :
    run (step batchSize outboundConnections) (start outboundConnections) (.started :: es.map .cycle) =
      ⟨false, run (Outbound.step batchSize) (Outbound.start batchSize outboundConnections) es,
        [.success]⟩ := by
  have hstart : step batchSize outboundConnections (start outboundConnections) .started =
      ⟨false, Outbound.start batchSize outboundConnections, [.success]⟩ := by
    unfold start Outbound.start
    split_ifs <;> rfl
  rw [run_cons, hstart, run_cycle]

/-- **A stop before `handle_started` leaves no cycle.** A session stopped before its posted
`handle_started` runs starts no connection, and still calls its handler with success. -/
theorem live_stop_started :
    ((step batchSize outboundConnections (start outboundConnections) (.cycle .stop)).step
        batchSize outboundConnections .started).cycles.live = 0 := by
  -- Each `new_connection` returns at once on the stopped session.
  have hnew : ∀ k, (Outbound.newConnection batchSize)^[k] ⟨true, [], 0, 0⟩ = ⟨true, [], 0, 0⟩ := by
    intro k
    induction k with
    | zero => rfl
    | succ k ih => rw [Function.iterate_succ_apply', ih]; rfl
  unfold start
  split_ifs
  · rfl
  · simp [step, handleStarted, Outbound.step, hnew, Outbound.live]

end OutboundStart

end Network
