import Mathlib.Data.List.Count
import BitprimNetwork.Async.Run
import BitprimNetwork.Protocols.Events

/-!
# The seed protocol

`protocol_seed_31402` asks a seed for addresses over one channel. Its `start` builds a join
`synchronize(complete, 3, on_error)`, starts the germination timer with the join as the event
handler, subscribes to one address message, sends the node's own address (or counts it at once
when no port is configured) and sends `get_address`. `complete` is `handle_seeding_complete`: it
calls the session's handler with the join's code (taken to be that of the call that completes the
`on_error` join) and then stops the channel with that code.

## Why the join never completes with success

An `on_error` join of three completes with success only on its third success, and successes come
from two places alone: the own address (`handle_send_address` counts it whatever its send's code,
unless the code is a stop) and the `get_address` send. The third call the protocol expects, after
the addresses are stored, is `channel_stopped` by design, and the timer and the channel's stop
call with `channel_timeout` and `channel_stopped`. So the successes the join has received and
those still in flight are never more than two (`Inv.budget`), every call that completes the join
is a failure, and `handle_seeding_complete` never stops the channel with success
(`stops_isError`), which is what the assertion in `proxy::stop` requires.

## The model

The channel is open when the protocol starts; its stop reaches the protocol later, as the event
`stopped`. The two sends each complete once, and the address message arrives at most once, since
`handle_receive_address` does not renew its subscription. `hosts::store` calls
`handle_store_addresses` before it returns, so the stored code comes with the message. The state
records the codes the join received (`joined`), those the session's handler received (`handled`)
and those the protocol stopped the channel with (`stops`).
-/

namespace Network

open Async

/-- A channel running `protocol_seed_31402`. -/
structure SeedProtocol where
  /-- The event handler and the germination timer of `protocol_timer`. -/
  events : Events
  /-- `synchronize(complete, 3, on_error)`. -/
  join : Join
  /-- The send of the own address is in flight. -/
  addressPending : Bool
  /-- The send of `get_address` is in flight. -/
  getAddressPending : Bool
  /-- The address subscription has not been called. -/
  addressSubscribed : Bool
  /-- The codes the join received, in order. -/
  joined : List Code
  /-- The codes the session's handler received. -/
  handled : List Code
  /-- The codes `protocol::stop` was called with. -/
  stops : List Code
  deriving DecidableEq

/-- What happens to a channel running the seed protocol. -/
inductive SeedProtocolEvent where
  /-- The own address is sent, with `ec`. -/
  | sentAddress (ec : Code)
  /-- `get_address` is sent, with `ec`. -/
  | sentGetAddress (ec : Code)
  /-- The peer's address message arrives, and `hosts::store` calls back with `stored`. -/
  | address (stored : Code)
  /-- The germination timer expires. -/
  | timer
  /-- The channel's stop reaches `protocol_events::handle_stopped`. -/
  | stopped
  deriving DecidableEq, Repr

namespace SeedProtocol

/-- `handle_seeding_complete(ec, handler)`: the session's handler, then `stop(ec)`. -/
def complete (s : SeedProtocol) (ec : Code) : SeedProtocol :=
  { s with handled := s.handled ++ [ec], stops := s.stops ++ [ec] }

/-- The join receives `ec`, and calls `complete` when the call clears it. -/
def callJoin (s : SeedProtocol) (ec : Code) : SeedProtocol :=
  let r := s.join.call .success ec
  let s := { s with join := r.1, joined := s.joined ++ [ec] }
  if r.2 then s.complete ec else s

/-- `protocol_events::set_event(ec)` through `protocol_timer::handle_notify`: the event handler
is the join. -/
def setEvent (s : SeedProtocol) (ec : Code) : SeedProtocol :=
  if (s.events.setEvent ec).2 then { s with events := (s.events.setEvent ec).1 }.callJoin ec
  else s

/-- `handle_send_address(ec)`: the own address counts as sent whatever the code, unless it is a
stop. -/
def handleSendAddress (s : SeedProtocol) (ec : Code) : SeedProtocol :=
  if s.events.stoppedBy ec then s else s.setEvent .success

/-- `handle_send_get_address(ec)`. -/
def handleSendGetAddress (s : SeedProtocol) (ec : Code) : SeedProtocol :=
  if s.events.stoppedBy ec then s
  else if ec.isError then s.setEvent ec
  else s.setEvent .success

/-- `handle_store_addresses(ec)`: once the addresses are stored the seeding is over, and the
event says so with `channel_stopped`. -/
def handleStoreAddresses (s : SeedProtocol) (ec : Code) : SeedProtocol :=
  if s.events.stoppedBy ec then s
  else if ec.isError then s.setEvent ec
  else s.setEvent .channelStopped

/-- `handle_receive_address(success, message)`, with `hosts::store` calling back with `stored`;
the subscription is not renewed. -/
def handleReceiveAddress (s : SeedProtocol) (stored : Code) : SeedProtocol :=
  if s.events.stoppedBy .success then s else s.handleStoreAddresses stored

/-- `protocol_timer::handle_timer`: the deadline has called back, and the germination timer is
not perpetual. -/
def handleTimer (s : SeedProtocol) : SeedProtocol :=
  let s := { s with events := { s.events with armed := false } }
  if s.events.running then s.setEvent .channelTimeout else s

/-- `protocol_events::handle_stopped(ec)`: whatever the stop code, the event is
`channel_stopped`. -/
def handleStopped (s : SeedProtocol) : SeedProtocol := s.setEvent .channelStopped

/-- One event. What the protocol does not wait for does not come. -/
def step (s : SeedProtocol) : SeedProtocolEvent → SeedProtocol
  | .sentAddress ec =>
    if s.addressPending then { s with addressPending := false }.handleSendAddress ec else s
  | .sentGetAddress ec =>
    if s.getAddressPending then { s with getAddressPending := false }.handleSendGetAddress ec
    else s
  | .address stored =>
    if s.addressSubscribed then { s with addressSubscribed := false }.handleReceiveAddress stored
    else s
  | .timer => if s.events.armed then s.handleTimer else s
  | .stopped => s.handleStopped

/-- `protocol_seed_31402::start(handler)` on an open channel, with the configured
`host_pool_capacity` and the port of `settings.self`. -/
def start (hostPoolCapacity selfPort : ℕ) : SeedProtocol :=
  if hostPoolCapacity = 0 then
    -- `complete(not_found)`: no join is built, no timer started, nothing sent.
    (⟨⟨false, false⟩, Join.start .onError 3, false, false, false, [], [], []⟩ : SeedProtocol).complete
      .notFound
  else
    let s : SeedProtocol :=
      ⟨Events.started, Join.start .onError 3, selfPort ≠ 0, true, true, [], [], []⟩
    -- `send_own_address` with no port counts the own address at once.
    if selfPort = 0 then s.setEvent .success else s

/-! ## What each handler does -/

/-- The join's call in its three cases: ignored once cleared; a failure completes it with the
failure; a success is counted, and completes it on the third. -/
theorem callJoin_eq (s : SeedProtocol) (ec : Code) :
    s.callJoin ec =
      if (s.join.call Code.success ec).2 then
        { s with join := (s.join.call Code.success ec).1, joined := s.joined ++ [ec] }.complete ec
      else { s with join := (s.join.call Code.success ec).1, joined := s.joined ++ [ec] } := rfl

/-- `set_event` reaches the join exactly while the handler is set. -/
theorem setEvent_eq (s : SeedProtocol) (ec : Code) :
    s.setEvent ec =
      if s.events.running then
        { s with events := ⟨!ec.isStop, s.events.armed && ec != Code.channelStopped⟩ }.callJoin ec
      else s := by
  unfold setEvent
  cases h : s.events.running
  · simp [h]
  · simp [h]

/-! ## The invariant -/

/-- The successes that may still reach the join: the two sends, while in flight. -/
def pendingSuccesses (s : SeedProtocol) : ℕ :=
  (if s.addressPending then 1 else 0) + (if s.getAddressPending then 1 else 0)

/-- What every run from `start` keeps. -/
structure Inv (s : SeedProtocol) : Prop where
  /-- The join completes on the first failure. -/
  mode : s.join.mode = .onError
  /-- The join waits for three calls. -/
  clearance : s.join.clearance = 3
  /-- Until the join completes, it has counted only successes it received. -/
  counted : s.join.cleared ∨ s.join.counter ≤ s.joined.count .success
  /-- The successes received and those still in flight are at most two. -/
  budget : s.joined.count .success + s.pendingSuccesses ≤ 2
  /-- The session's handler receives only failures. -/
  handled : ∀ ec ∈ s.handled, ec.isError
  /-- Each call of the handler is followed by a stop with the same code. -/
  stops : s.stops = s.handled

section Steps

variable {s : SeedProtocol}

/-- Completing with a failure keeps the invariant. -/
theorem Inv.complete (hs : Inv s) {ec : Code} (hec : ec.isError) : Inv (s.complete ec) where
  mode := hs.mode
  clearance := hs.clearance
  counted := hs.counted
  budget := hs.budget
  handled := Code.forall_isError_concat hs.handled hec
  stops := by simp [SeedProtocol.complete, hs.stops]

/-- A failure reaching the join completes it with that failure, if it had not completed. -/
theorem inv_callJoin_error (hs : Inv s) {ec : Code} (hec : ec.isError) : Inv (s.callJoin ec) := by
  have hcount : (s.joined ++ [ec]).count .success = s.joined.count .success := by
    have hne : ec ≠ .success := by simpa [Code.isError] using hec
    simp [hne]
  -- Whatever the join does, it ends cleared or unchanged, with the same count of successes.
  have hnext : Inv { s with join := (s.join.call .success ec).1, joined := s.joined ++ [ec] } := by
    refine ⟨by simp [hs.mode], by simp [hs.clearance], ?_, by rw [hcount]; exact hs.budget,
      hs.handled, hs.stops⟩
    by_cases hcl : s.join.cleared
    · exact .inl (Join.cleared_call hcl ec)
    · have ht : Join.terminal Code.success s.join.mode ec := by
        simpa [hs.mode, Join.terminal, Code.isError] using hec
      refine .inl ?_
      rw [Join.cleared_iff, (Join.call_of_terminal hcl ht).1, Join.call_clearance]
  rw [callJoin_eq]
  split_ifs
  · exact hnext.complete hec
  · exact hnext

/-- A success reaching the join while a success is still to come is counted, and cannot be the
third. -/
theorem inv_callJoin_success (hs : Inv s) (hspare : s.joined.count .success + s.pendingSuccesses < 2) :
    Inv (s.callJoin .success) := by
  have hcount : (s.joined ++ [Code.success]).count .success = s.joined.count .success + 1 := by
    simp
  by_cases hcl : s.join.cleared
  · -- A cleared join ignores the call.
    rw [callJoin_eq, Join.call_of_cleared hcl, if_neg Bool.false_ne_true]
    refine ⟨hs.mode, hs.clearance, .inl hcl, ?_, hs.handled, hs.stops⟩
    simp only [hcount, pendingSuccesses] at hspare ⊢
    omega
  · have hnt : Join.terminal Code.success s.join.mode Code.success = false := by
      simp [hs.mode, Join.terminal]
    obtain ⟨hcounter, hfire⟩ := Join.call_of_not_terminal hcl hnt
    have hle : s.join.counter ≤ s.joined.count .success := hs.counted.resolve_left hcl
    -- The counter reaches at most two, short of the clearance of three.
    have hnofire : (s.join.call Code.success Code.success).2 = false := by
      rw [hfire, hs.clearance]
      simp only [decide_eq_false_iff_not]
      omega
    rw [callJoin_eq, hnofire, if_neg Bool.false_ne_true]
    refine ⟨by simp [hs.mode], by simp [hs.clearance], .inr ?_, ?_, hs.handled, hs.stops⟩
    · simp only [hcounter, hcount]
      omega
    · simp only [hcount, pendingSuccesses] at hspare ⊢
      omega

theorem Inv.withEvents (hs : Inv s) (e : Events) : Inv { s with events := e } :=
  ⟨hs.mode, hs.clearance, hs.counted, hs.budget, hs.handled, hs.stops⟩

theorem inv_setEvent_error (hs : Inv s) {ec : Code} (hec : ec.isError) : Inv (s.setEvent ec) := by
  rw [setEvent_eq]
  split_ifs
  · exact inv_callJoin_error (hs.withEvents _) hec
  · exact hs

theorem inv_setEvent_success (hs : Inv s)
    (hspare : s.joined.count .success + s.pendingSuccesses < 2) : Inv (s.setEvent .success) := by
  rw [setEvent_eq]
  split_ifs
  · exact inv_callJoin_success (hs.withEvents _) hspare
  · exact hs

/-- The own address leaving flight: one success fewer to come, and room for the one it brings. -/
theorem Inv.withoutAddress (hs : Inv s) (hp : s.addressPending = true) :
    Inv { s with addressPending := false } ∧
      s.joined.count .success + ({ s with addressPending := false } : SeedProtocol).pendingSuccesses
        < 2 := by
  have hsplit : s.pendingSuccesses =
      ({ s with addressPending := false } : SeedProtocol).pendingSuccesses + 1 := by
    unfold pendingSuccesses
    split_ifs <;> simp_all
  have hbudget := hs.budget
  refine ⟨⟨hs.mode, hs.clearance, hs.counted, ?_, hs.handled, hs.stops⟩, by omega⟩
  show s.joined.count .success + ({ s with addressPending := false } : SeedProtocol).pendingSuccesses ≤ 2
  omega

/-- The `get_address` send leaving flight, likewise. -/
theorem Inv.withoutGetAddress (hs : Inv s) (hp : s.getAddressPending = true) :
    Inv { s with getAddressPending := false } ∧
      s.joined.count .success + ({ s with getAddressPending := false } : SeedProtocol).pendingSuccesses
        < 2 := by
  have hsplit : s.pendingSuccesses =
      ({ s with getAddressPending := false } : SeedProtocol).pendingSuccesses + 1 := by
    unfold pendingSuccesses
    split_ifs <;> simp_all
  have hbudget := hs.budget
  refine ⟨⟨hs.mode, hs.clearance, hs.counted, ?_, hs.handled, hs.stops⟩, by omega⟩
  show s.joined.count .success + ({ s with getAddressPending := false } : SeedProtocol).pendingSuccesses ≤ 2
  omega

theorem inv_handleSendAddress (hs : Inv s)
    (hspare : s.joined.count .success + s.pendingSuccesses < 2) (ec : Code) :
    Inv (s.handleSendAddress ec) := by
  unfold handleSendAddress
  split_ifs
  · exact hs
  · exact inv_setEvent_success hs hspare

theorem inv_handleSendGetAddress (hs : Inv s)
    (hspare : s.joined.count .success + s.pendingSuccesses < 2) (ec : Code) :
    Inv (s.handleSendGetAddress ec) := by
  unfold handleSendGetAddress
  split_ifs with hstop herr
  · exact hs
  · exact inv_setEvent_error hs herr
  · exact inv_setEvent_success hs hspare

theorem inv_handleStoreAddresses (hs : Inv s) (ec : Code) : Inv (s.handleStoreAddresses ec) := by
  unfold handleStoreAddresses
  split_ifs with hstop herr
  · exact hs
  · exact inv_setEvent_error hs herr
  · exact inv_setEvent_error hs rfl

theorem inv_handleTimer (hs : Inv s) : Inv s.handleTimer := by
  unfold handleTimer
  dsimp only
  split_ifs
  · exact inv_setEvent_error (hs.withEvents _) rfl
  · exact hs.withEvents _

/-- **One step.** Every event keeps the invariant. -/
theorem inv_step (hs : Inv s) (e : SeedProtocolEvent) : Inv (s.step e) := by
  cases e with
  | sentAddress ec =>
    simp only [step]
    split_ifs with hp
    · obtain ⟨hs', hspare⟩ := hs.withoutAddress hp
      exact inv_handleSendAddress hs' hspare ec
    · exact hs
  | sentGetAddress ec =>
    simp only [step]
    split_ifs with hp
    · obtain ⟨hs', hspare⟩ := hs.withoutGetAddress hp
      exact inv_handleSendGetAddress hs' hspare ec
    · exact hs
  | address stored =>
    simp only [step]
    split_ifs
    · have hs' : Inv { s with addressSubscribed := false } :=
        ⟨hs.mode, hs.clearance, hs.counted, hs.budget, hs.handled, hs.stops⟩
      unfold handleReceiveAddress
      split_ifs
      · exact hs'
      · exact inv_handleStoreAddresses hs' stored
    · exact hs
  | timer =>
    simp only [step]
    split_ifs
    · exact inv_handleTimer hs
    · exact hs
  | stopped => exact inv_setEvent_error hs rfl

end Steps

/-! ## Every run -/

/-- The starting state keeps the invariant, on every configuration. -/
theorem inv_start (hostPoolCapacity selfPort : ℕ) : Inv (start hostPoolCapacity selfPort) := by
  have hbase : ∀ (e : Events) (a : Bool), Inv ⟨e, Join.start .onError 3, a, true, true, [], [], []⟩ ∧
      Inv ⟨e, Join.start .onError 3, false, false, false, [], [], []⟩ := fun e a ↦
    ⟨⟨rfl, rfl, .inr (by simp), by cases a <;> simp [pendingSuccesses], by simp, rfl⟩,
      ⟨rfl, rfl, .inr (by simp), by simp [pendingSuccesses], by simp, rfl⟩⟩
  unfold start
  split_ifs with hc hp
  · exact (hbase ⟨false, false⟩ false).2.complete rfl
  · -- With no port the own address is counted at once, the `get_address` send still to come.
    refine inv_setEvent_success (hbase Events.started _).1 ?_
    simp [pendingSuccesses, hp]
  · exact (hbase Events.started _).1

/-- The states some run from `start` reaches. -/
def Reachable (s : SeedProtocol) : Prop :=
  ∃ hostPoolCapacity selfPort es, s = run step (start hostPoolCapacity selfPort) es

theorem Reachable.inv {s : SeedProtocol} (hr : Reachable s) : Inv s := by
  obtain ⟨hostPoolCapacity, selfPort, es, rfl⟩ := hr
  exact run_invariant step (I := Inv) (fun _ e hs ↦ inv_step hs e) es
    (inv_start hostPoolCapacity selfPort)

/-- **The stops.** The protocol stops its channel only with failures. -/
theorem Reachable.stops_isError {s : SeedProtocol} (hr : Reachable s) :
    ∀ ec ∈ s.stops, ec.isError := by
  rw [hr.inv.stops]
  exact hr.inv.handled

/-- At most two successes reach the join, short of the three it needs to succeed. -/
theorem Reachable.count_success_le {s : SeedProtocol} (hr : Reachable s) :
    s.joined.count .success ≤ 2 := by
  have := hr.inv.budget
  omega

end SeedProtocol

end Network
