import BitprimNetwork.Core

/-!
# The connector

`connector::connect(hostname, port, handler)` resolves the host and connects a socket to it,
and calls `handler` with a code and a channel. A stopped connector calls the handler with
`service_stopped` at once. Otherwise `async_resolve` runs, and `handle_resolve` calls the
handler with `service_stopped` if the connector has been stopped since, or with
`resolve_failed` if the resolve failed. After a successful resolve a timer and `async_connect`
race: both complete through a join of one call in `on_error` mode, so the handler gets the
result of whichever completes first (the join of bitprim-core is taken to pass on the code and
channel of the call that completes it). `handle_connect` passes a new channel with success, or the
converted socket error with none; `handle_timer` passes the timer's failure, or
`channel_timeout` when it expires. `connector::stop` cancels the resolve and the timer, whose
handlers still come, and leaves the connect alone; `p2p::unpend` calls it once the connect is
over.

## The model

`Connector` is the state of one `connect` call, with the completions still in flight and the
handler's calls in order, each with whether a channel comes with it. A completion comes once,
and only for an operation in flight; the timer's may not come at all once it is cancelled.
`boost_to_error_code` of bitprim-core is the parameter `toCode`.

## What holds

The invariant `Inv` says what each stage owes: nothing has been called before the race, the
join has been called exactly when one side of the race has completed, and the handler exactly
when the join has. So in every run the handler is called at most once, and once the resolve and
the connect have completed, exactly once (`connect_calls_handler_once`). It gets a channel only
when the connect succeeds before the timer completes, and a stop that comes after the resolve
does not change that: the connect can still win the race after the stop
(`connect_succeeds_after_stop`).
-/

namespace Network

open Async

/-- Where a `connect` call is. -/
inductive ConnectStage where
  /-- `connect` has not been called. -/
  | idle
  /-- `async_resolve` is in flight. -/
  | resolving
  /-- The timer and `async_connect` are in flight, racing through the join. -/
  | connecting
  /-- The handler has been called before any race. -/
  | finished
  deriving DecidableEq, Repr

/-- A connector and its one `connect` call. -/
structure Connector where
  /-- `stopped_`. -/
  stopped : Bool
  /-- Where the call is. -/
  stage : ConnectStage
  /-- The join of the timer-connect race. -/
  join : Join
  /-- `async_connect` has not completed. -/
  connectPending : Bool
  /-- The timer has not completed. -/
  timerPending : Bool
  /-- The handler's calls, in order: the code, and whether a channel comes with it. -/
  calls : List (Code × Bool)

/-- What happens to a connector. -/
inductive ConnectorEvent where
  /-- `connect` is called. -/
  | connect
  /-- `async_resolve` completes with the socket error `ec` (zero for success). -/
  | resolved (ec : ℕ)
  /-- `async_connect` completes with the socket error `ec`. -/
  | connected (ec : ℕ)
  /-- The timer calls `handle_timer` with `ec`. -/
  | timer (ec : Code)
  /-- `connector::stop`, from a session or from `p2p::unpend`. -/
  | stop
  deriving DecidableEq, Repr

namespace Connector

variable (toCode : ℕ → Code)

/-- A connector that has not been stopped and has not been asked to connect. -/
def start : Connector := ⟨false, .idle, Join.start .onError 1, false, false, []⟩

/-- The handler is called before any race. -/
def finish (s : Connector) (ec : Code) : Connector :=
  { s with stage := .finished, calls := s.calls ++ [(ec, false)] }

/-- `connector::connect`. -/
def connect (s : Connector) : Connector :=
  if s.stopped then s.finish .serviceStopped
  else { s with stage := .resolving }

/-- `connector::handle_resolve`: the race starts with a fresh join of one call. -/
def handleResolve (s : Connector) (ec : ℕ) : Connector :=
  if s.stopped then s.finish .serviceStopped
  else if ec ≠ 0 then s.finish .resolveFailed
  else
    { s with
      stage := .connecting
      join := Join.start .onError 1
      connectPending := true
      timerPending := true }

/-- The join of the race, called with `ec` and whether a channel comes with it. -/
def callJoin (s : Connector) (ec : Code) (channel : Bool) : Connector :=
  let r := s.join.call Code.success ec
  { s with join := r.1, calls := if r.2 then s.calls ++ [(ec, channel)] else s.calls }

/-- `connector::handle_connect`. -/
def handleConnect (s : Connector) (ec : ℕ) : Connector :=
  let s := { s with connectPending := false }
  if ec ≠ 0 then s.callJoin (toCode ec) false
  else s.callJoin .success true

/-- `connector::handle_timer`. -/
def handleTimer (s : Connector) (ec : Code) : Connector :=
  { s with timerPending := false }.callJoin (if ec.isError then ec else .channelTimeout) false

/-- `connector::stop`: the resolve and the timer are cancelled, and their handlers still to come
find the connector stopped. -/
def stop (s : Connector) : Connector := { s with stopped := true }

/-- One event; a completion comes only for an operation in flight. -/
def step (s : Connector) : ConnectorEvent → Connector
  | .connect => if s.stage = .idle then s.connect else s
  | .resolved ec => if s.stage = .resolving then s.handleResolve ec else s
  | .connected ec =>
    if s.stage = .connecting ∧ s.connectPending then s.handleConnect toCode ec else s
  | .timer ec => if s.stage = .connecting ∧ s.timerPending then s.handleTimer ec else s
  | .stop => s.stop

/-- Nothing the handler waits for is in flight: the call has finished before the race, or the
connect has completed. -/
def Complete (s : Connector) : Prop :=
  s.stage = .finished ∨ (s.stage = .connecting ∧ s.connectPending = false)

/-! ## The log of calls only grows -/

theorem calls_prefix_callJoin (s : Connector) (ec : Code) (channel : Bool) :
    s.calls <+: (s.callJoin ec channel).calls := by
  unfold callJoin
  dsimp only
  split
  · exact List.prefix_append _ _
  · exact List.prefix_refl _

/-- A step is the handler of its event, where the event's operation is in flight; otherwise the
event changes nothing. -/
theorem step_cases (s : Connector) (e : ConnectorEvent) :
    step toCode s e = s ∨
      (e = .connect ∧ s.stage = .idle ∧ step toCode s e = s.connect) ∨
      (∃ ec, e = .resolved ec ∧ s.stage = .resolving ∧ step toCode s e = s.handleResolve ec) ∨
      (∃ ec, e = .connected ec ∧ s.stage = .connecting ∧
        step toCode s e = s.handleConnect toCode ec) ∨
      (∃ ec, e = .timer ec ∧ s.stage = .connecting ∧ step toCode s e = s.handleTimer ec) ∨
      (e = .stop ∧ step toCode s e = s.stop) := by
  cases e with
  | connect =>
    by_cases h : s.stage = .idle
    · exact .inr (.inl ⟨rfl, h, if_pos h⟩)
    · exact .inl (if_neg h)
  | resolved ec =>
    by_cases h : s.stage = .resolving
    · exact .inr (.inr (.inl ⟨ec, rfl, h, if_pos h⟩))
    · exact .inl (if_neg h)
  | connected ec =>
    by_cases h : s.stage = .connecting ∧ s.connectPending
    · exact .inr (.inr (.inr (.inl ⟨ec, rfl, h.1, if_pos h⟩)))
    · exact .inl (if_neg h)
  | timer ec =>
    by_cases h : s.stage = .connecting ∧ s.timerPending
    · exact .inr (.inr (.inr (.inr (.inl ⟨ec, rfl, h.1, if_pos h⟩))))
    · exact .inl (if_neg h)
  | stop => exact .inr (.inr (.inr (.inr (.inr ⟨rfl, rfl⟩))))

theorem calls_prefix_step (s : Connector) (e : ConnectorEvent) :
    s.calls <+: (step toCode s e).calls := by
  have hfinish : ∀ ec, s.calls <+: (s.finish ec).calls := fun ec ↦ List.prefix_append _ _
  rcases step_cases toCode s e with h | ⟨-, -, h⟩ | ⟨ec, -, -, h⟩ | ⟨ec, -, -, h⟩ |
      ⟨ec, -, -, h⟩ | ⟨-, h⟩ <;> simp only [h]
  · exact List.prefix_refl _
  · unfold Connector.connect
    split_ifs
    · exact hfinish _
    · exact List.prefix_refl _
  · unfold Connector.handleResolve
    split_ifs
    · exact hfinish _
    · exact hfinish _
    · exact List.prefix_refl _
  · unfold Connector.handleConnect
    dsimp only
    split_ifs
    · exact calls_prefix_callJoin { s with connectPending := false } _ _
    · exact calls_prefix_callJoin { s with connectPending := false } _ _
  · exact calls_prefix_callJoin { s with timerPending := false } _ _
  · exact List.prefix_refl _

/-! ## The invariant -/

/-- What each stage owes: no call before the race; in the race, the join called exactly when a
side has completed, and the handler exactly when the join has; one call after a finish. -/
structure Inv (s : Connector) : Prop where
  waiting : s.stage = .idle ∨ s.stage = .resolving → s.calls = []
  finished : s.stage = .finished → s.calls.length = 1
  clearance : s.stage = .connecting → s.join.clearance = 1
  race : s.stage = .connecting → (s.join.cleared ↔ ¬(s.connectPending = true ∧ s.timerPending = true))
  raceCalls : s.stage = .connecting → s.calls.length = if s.join.cleared then 1 else 0

theorem inv_start : Inv start where
  waiting _ := rfl
  finished h := absurd h (by simp [start])
  clearance h := absurd h (by simp [start])
  race h := absurd h (by simp [start])
  raceCalls h := absurd h (by simp [start])

variable {toCode}

/-- A finish before the race owes nothing more. -/
theorem Inv.finish {s : Connector} (hs : Inv s)
    (hwait : s.stage = .idle ∨ s.stage = .resolving) (ec : Code) : Inv (s.finish ec) where
  waiting h := by rcases h with h | h <;> cases h
  finished _ := by
    rw [Connector.finish, List.length_append, hs.waiting hwait]
    rfl
  clearance h := by cases h
  race h := by cases h
  raceCalls h := by cases h

/-- A side of the race has completed and calls the join: the join is cleared, and the handler
has been called once. -/
theorem inv_callJoin {t : Connector} (hstage : t.stage = .connecting) (hcl : t.join.clearance = 1)
    (hcalls : t.calls.length = if t.join.cleared then 1 else 0)
    (hdone : ¬(t.connectPending = true ∧ t.timerPending = true)) (ec : Code) (channel : Bool) :
    Inv (t.callJoin ec channel) := by
  by_cases hopen : t.join.cleared
  · -- The other side has won: the call is ignored.
    have hcall : t.join.call Code.success ec = (t.join, false) := Join.call_of_cleared hopen ec
    have hsame : t.callJoin ec channel = t := by
      unfold Connector.callJoin
      rw [hcall]
      rfl
    rw [hsame]
    refine ⟨fun h ↦ ?_, fun h ↦ ?_, fun _ ↦ hcl, fun _ ↦ ⟨fun _ ↦ hdone, fun _ ↦ hopen⟩, fun _ ↦ hcalls⟩
    · rw [hstage] at h
      rcases h with h | h <;> cases h
    · rw [hstage] at h
      cases h
  · obtain ⟨hclear, hfire⟩ : (t.join.call Code.success ec).1.cleared ∧
        (t.join.call Code.success ec).2 = true :=
      Join.call_of_clearance_one hcl hopen ec
    have hzero : t.calls.length = 0 := by rw [hcalls, if_neg hopen]
    refine ⟨fun h ↦ ?_, fun h ↦ ?_, fun _ ↦ ?_, fun _ ↦ ?_, fun _ ↦ ?_⟩
    · rw [Connector.callJoin, hstage] at h
      rcases h with h | h <;> cases h
    · rw [Connector.callJoin, hstage] at h
      cases h
    · exact (Join.call_clearance _ _).trans hcl
    · exact ⟨fun _ ↦ hdone, fun _ ↦ hclear⟩
    · show (if (t.join.call Code.success ec).2 then t.calls ++ [(ec, channel)] else t.calls).length =
        if (t.join.call Code.success ec).1.cleared then 1 else 0
      rw [hfire, if_pos rfl, if_pos hclear, List.length_append, hzero]
      rfl

theorem Inv.connect {s : Connector} (hs : Inv s) (hidle : s.stage = .idle) : Inv s.connect := by
  unfold Connector.connect
  split_ifs
  · exact hs.finish (.inl hidle) _
  · refine ⟨fun _ ↦ hs.waiting (.inl hidle), fun h ↦ ?_, fun h ↦ ?_, fun h ↦ ?_, fun h ↦ ?_⟩ <;>
      cases h

theorem Inv.handleResolve {s : Connector} (hs : Inv s) (hres : s.stage = .resolving) (ec : ℕ) :
    Inv (s.handleResolve ec) := by
  unfold Connector.handleResolve
  split_ifs
  · exact hs.finish (.inr hres) _
  · exact hs.finish (.inr hres) _
  · -- The race starts: a fresh join, neither side completed, nothing called.
    have hnil := hs.waiting (.inr hres)
    have hfresh : ¬(Join.start .onError 1).cleared := by
      rw [Join.cleared_iff, Join.start_counter, Join.start_clearance]
      exact Nat.zero_ne_one
    refine ⟨fun h ↦ ?_, fun h ↦ ?_, fun _ ↦ rfl, fun _ ↦ ?_, fun _ ↦ ?_⟩
    · rcases h with h | h <;> cases h
    · cases h
    · exact ⟨fun h ↦ absurd h hfresh, fun h ↦ absurd ⟨rfl, rfl⟩ h⟩
    · show s.calls.length = if (Join.start .onError 1).cleared then 1 else 0
      rw [hnil, if_neg hfresh]
      rfl

theorem Inv.handleConnect {s : Connector} (hs : Inv s) (hstage : s.stage = .connecting)
    (ec : ℕ) : Inv (s.handleConnect toCode ec) := by
  unfold Connector.handleConnect
  dsimp only
  -- The connect has completed; the timer may have too.
  split_ifs
  · exact inv_callJoin (t := { s with connectPending := false }) hstage (hs.clearance hstage)
      (hs.raceCalls hstage) (by simp) _ _
  · exact inv_callJoin (t := { s with connectPending := false }) hstage (hs.clearance hstage)
      (hs.raceCalls hstage) (by simp) _ _

theorem Inv.handleTimer {s : Connector} (hs : Inv s) (hstage : s.stage = .connecting)
    (ec : Code) : Inv (s.handleTimer ec) :=
  inv_callJoin (t := { s with timerPending := false }) hstage (hs.clearance hstage)
    (hs.raceCalls hstage) (by simp) _ _

theorem Inv.stop {s : Connector} (hs : Inv s) : Inv s.stop :=
  ⟨hs.waiting, hs.finished, hs.clearance, hs.race, hs.raceCalls⟩

theorem inv_step {s : Connector} (hs : Inv s) (e : ConnectorEvent) : Inv (step toCode s e) := by
  rcases step_cases toCode s e with h | ⟨-, hidle, h⟩ | ⟨ec, -, hres, h⟩ | ⟨ec, -, hrace, h⟩ |
      ⟨ec, -, hrace, h⟩ | ⟨-, h⟩ <;> rw [h]
  · exact hs
  · exact hs.connect hidle
  · exact hs.handleResolve hres ec
  · exact hs.handleConnect hrace ec
  · exact hs.handleTimer hrace ec
  · exact hs.stop

theorem inv_run (es : List ConnectorEvent) : Inv (run (step toCode) start es) :=
  run_invariant (step toCode) (I := Inv) (fun _ e hs ↦ inv_step hs e) es inv_start

/-! ## Once, and once only -/

theorem Inv.length_le_one {s : Connector} (hs : Inv s) : s.calls.length ≤ 1 := by
  cases hst : s.stage with
  | idle =>
    rw [hs.waiting (.inl hst)]
    exact Nat.zero_le _
  | resolving =>
    rw [hs.waiting (.inr hst)]
    exact Nat.zero_le _
  | connecting =>
    rw [hs.raceCalls hst]
    split
    · exact Nat.le_refl _
    · exact Nat.zero_le _
  | finished => exact Nat.le_of_eq (hs.finished hst)

theorem Inv.length_of_complete {s : Connector} (hs : Inv s) (hc : Complete s) :
    s.calls.length = 1 := by
  rcases hc with hfin | ⟨hstage, hcp⟩
  · exact hs.finished hfin
  · -- The connect has called the join.
    have hclear : s.join.cleared := (hs.race hstage).2 fun h ↦ Bool.false_ne_true (hcp ▸ h.1)
    rw [hs.raceCalls hstage, if_pos hclear]

/-- After `connect`, the call has started. -/
theorem stage_connect (s : Connector) : (step toCode s .connect).stage ≠ .idle := by
  simp only [step]
  split_ifs with hidle
  · unfold Connector.connect Connector.finish
    split_ifs
    · exact ConnectStage.noConfusion
    · exact ConnectStage.noConfusion
  · exact hidle

/-- Once the resolve has completed, the call has finished or is racing. -/
theorem stage_resolved {s : Connector} (h : s.stage ≠ .idle) (ec : ℕ) :
    (step toCode s (.resolved ec)).stage = .finished ∨
      (step toCode s (.resolved ec)).stage = .connecting := by
  simp only [step]
  split_ifs with hres
  · unfold Connector.handleResolve Connector.finish
    split_ifs
    · exact .inl rfl
    · exact .inl rfl
    · exact .inr rfl
  · cases hst : s.stage with
    | idle => exact absurd hst h
    | resolving => exact absurd hst hres
    | connecting => exact .inr rfl
    | finished => exact .inl rfl

/-- Once the connect has completed too, nothing the handler waits for is in flight. -/
theorem complete_connected {s : Connector} (h : s.stage = .finished ∨ s.stage = .connecting)
    (ec : ℕ) : Complete (step toCode s (.connected ec)) := by
  simp only [step]
  split_ifs with hc
  · right
    unfold Connector.handleConnect Connector.callJoin
    split_ifs
    · exact ⟨hc.1, rfl⟩
    · exact ⟨hc.1, rfl⟩
  · rcases h with h | h
    · exact .inl h
    · exact .inr ⟨h, Bool.eq_false_iff.2 fun hp ↦ hc ⟨h, hp⟩⟩

/-! ## What the handler gets -/

/-- The calls an event can make. -/
def MayCall (toCode : ℕ → Code) : ConnectorEvent → Code × Bool → Prop
  | .connect, x => x = (.serviceStopped, false)
  | .resolved _, x => x = (.serviceStopped, false) ∨ x = (.resolveFailed, false)
  | .connected ec, x => (ec ≠ 0 ∧ x = (toCode ec, false)) ∨ (ec = 0 ∧ x = (.success, true))
  | .timer ec, x => x = (if ec.isError then ec else .channelTimeout, false)
  | .stop, _ => False

theorem mem_finish {t : Connector} {ec : Code} {x : Code × Bool} (hx : x ∈ (t.finish ec).calls) :
    x ∈ t.calls ∨ x = (ec, false) := by
  rcases List.mem_append.1 hx with hx | hx
  · exact .inl hx
  · exact .inr (List.mem_singleton.1 hx)

/-- A call the join adds is the one it was called with, on a join not yet cleared. -/
theorem fires_of_mem_callJoin {t : Connector} {ec : Code} {channel : Bool} {x : Code × Bool}
    (hx : x ∈ (t.callJoin ec channel).calls) (hnew : x ∉ t.calls) :
    x = (ec, channel) ∧ ¬t.join.cleared := by
  unfold Connector.callJoin at hx
  dsimp only at hx
  split at hx
  · next hfire =>
    refine ⟨?_, ((Join.call_fires_iff _ _).1 hfire).1⟩
    rcases List.mem_append.1 hx with hx | hx
    · exact absurd hx hnew
    · exact List.mem_singleton.1 hx
  · exact absurd hx hnew

theorem mem_calls_step {t : Connector} {e : ConnectorEvent} {x : Code × Bool}
    (hx : x ∈ (step toCode t e).calls) : x ∈ t.calls ∨ MayCall toCode e x := by
  by_cases hnew : x ∈ t.calls
  · exact .inl hnew
  right
  rcases step_cases toCode t e with h | ⟨rfl, -, h⟩ | ⟨ec, rfl, -, h⟩ | ⟨ec, rfl, -, h⟩ |
      ⟨ec, rfl, -, h⟩ | ⟨rfl, h⟩ <;> rw [h] at hx
  · exact absurd hx hnew
  · unfold Connector.connect at hx
    split_ifs at hx
    · exact (mem_finish hx).resolve_left hnew
    · exact absurd hx hnew
  · unfold Connector.handleResolve at hx
    split_ifs at hx
    · exact .inl ((mem_finish hx).resolve_left hnew)
    · exact .inr ((mem_finish hx).resolve_left hnew)
    · exact absurd hx hnew
  · unfold Connector.handleConnect at hx
    dsimp only at hx
    split_ifs at hx with hec
    · exact .inl ⟨hec, (fires_of_mem_callJoin hx hnew).1⟩
    · exact .inr ⟨not_not.1 hec, (fires_of_mem_callJoin hx hnew).1⟩
  · exact (fires_of_mem_callJoin hx hnew).1
  · exact hnew hx

/-- The call with a channel comes from a successful connect, in the race, before the timer. -/
theorem added_success {t : Connector} (ht : Inv t) {e : ConnectorEvent}
    (hnew : (Code.success, true) ∉ t.calls) (hx : (Code.success, true) ∈ (step toCode t e).calls) :
    e = .connected 0 ∧ t.stage = .connecting ∧ t.connectPending = true ∧ t.timerPending = true := by
  have hmay := (mem_calls_step hx).resolve_left hnew
  cases e with
  | connected ec =>
    obtain ⟨-, hbad⟩ | ⟨rfl, -⟩ := hmay
    · exact absurd (congrArg Prod.snd hbad).symm Bool.false_ne_true
    simp only [step] at hx
    split_ifs at hx with hc
    · unfold Connector.handleConnect at hx
      dsimp only at hx
      rw [if_neg (not_not.2 rfl)] at hx
      -- The join fired, so neither side had completed.
      have hopen := (fires_of_mem_callJoin hx hnew).2
      have hboth := not_not.1 (mt (ht.race hc.1).2 hopen)
      exact ⟨rfl, hc.1, hboth.1, hboth.2⟩
    · exact absurd hx hnew
  | connect => exact absurd (congrArg Prod.snd hmay).symm Bool.false_ne_true
  | resolved ec =>
    rcases hmay with h | h
    · exact absurd (congrArg Prod.snd h).symm Bool.false_ne_true
    · exact absurd (congrArg Prod.snd h).symm Bool.false_ne_true
  | timer ec => exact absurd (congrArg Prod.snd hmay).symm Bool.false_ne_true
  | stop => exact hmay.elim

/-- A successful connect in the race, before the timer, calls the handler with a channel. -/
theorem success_of_race {t : Connector} (ht : Inv t) (hstage : t.stage = .connecting)
    (hcp : t.connectPending = true) (htp : t.timerPending = true) :
    (Code.success, true) ∈ (step toCode t (.connected 0)).calls := by
  have hopen : ¬t.join.cleared := fun h ↦ (ht.race hstage).1 h ⟨hcp, htp⟩
  have hfire : (t.join.call Code.success Code.success).2 = true :=
    (Join.call_of_clearance_one (ht.clearance hstage) hopen _).2
  simp only [step, hstage, hcp, and_self, if_true]
  unfold Connector.handleConnect Connector.callJoin
  dsimp only
  rw [if_neg (not_not.2 rfl), if_pos hfire]
  exact List.mem_append_right _ (List.mem_singleton_self _)

/-- What a connector stopped before its resolve completed keeps: it is stopped, not racing, and
every call it has made is `service_stopped`. -/
def StoppedEarly (s : Connector) : Prop :=
  s.stopped = true ∧ s.stage ≠ .connecting ∧ ∀ c ∈ s.calls, c = (.serviceStopped, false)

theorem stoppedEarly_step {s : Connector} (hs : StoppedEarly s) (e : ConnectorEvent) :
    StoppedEarly (step toCode s e) := by
  obtain ⟨hstop, hrace, hcalls⟩ := hs
  have hfinish : StoppedEarly (s.finish .serviceStopped) := by
    refine ⟨hstop, ConnectStage.noConfusion, fun c hc ↦ ?_⟩
    rcases mem_finish hc with hc | hc
    · exact hcalls c hc
    · exact hc
  -- A stopped connector finishes on `connect` and on the resolve, and is never in the race.
  rcases step_cases toCode s e with h | ⟨-, -, h⟩ | ⟨ec, -, -, h⟩ | ⟨ec, -, hc, h⟩ |
      ⟨ec, -, hc, h⟩ | ⟨-, h⟩ <;> rw [h]
  · exact ⟨hstop, hrace, hcalls⟩
  · unfold Connector.connect
    rw [if_pos hstop]
    exact hfinish
  · unfold Connector.handleResolve
    rw [if_pos hstop]
    exact hfinish
  · exact absurd hc hrace
  · exact absurd hc hrace
  · exact ⟨rfl, hrace, hcalls⟩

/-! ## The behaviour of `connect` -/

theorem calls_success_iff (es : List ConnectorEvent) :
    (Code.success, true) ∈ (run (step toCode) start es).calls ↔
      ∃ pre post, es = pre ++ .connected 0 :: post ∧
        (run (step toCode) start pre).stage = .connecting ∧
        (run (step toCode) start pre).connectPending = true ∧
        (run (step toCode) start pre).timerPending = true := by
  constructor
  · intro hx
    obtain ⟨pre, e, post, rfl, hpre, hadd⟩ :=
      exists_step_of_mem_run (step toCode) Connector.calls hx List.not_mem_nil
    obtain ⟨rfl, hstage, hcp, htp⟩ := added_success (inv_run pre) hpre hadd
    exact ⟨pre, post, rfl, hstage, hcp, htp⟩
  · rintro ⟨pre, post, rfl, hstage, hcp, htp⟩
    have hadd : (Code.success, true) ∈
        (step toCode (run (step toCode) start pre) (.connected 0)).calls :=
      success_of_race (inv_run pre) hstage hcp htp
    rw [run_append, run_cons]
    exact (prefix_run (step toCode) Connector.calls (calls_prefix_step toCode) _ post).subset hadd

/-- A stop before the resolve completes leaves only `service_stopped` to the handler. -/
theorem calls_of_stopped_early {es pre post : List ConnectorEvent} (hes : es = pre ++ .stop :: post)
    (hearly : (run (step toCode) start pre).stage = .idle ∨
      (run (step toCode) start pre).stage = .resolving) :
    ∀ c ∈ (run (step toCode) start es).calls, c = (.serviceStopped, false) := by
  have hinv : Inv (run (step toCode) start pre) := inv_run pre
  have hnil := hinv.waiting hearly
  have hstopped : StoppedEarly (step toCode (run (step toCode) start pre) .stop) := by
    -- The stop changes only the flag: the call is still waiting, with no call made.
    refine ⟨rfl, fun h ↦ ?_, fun c hc ↦ ?_⟩
    · have hrace : (run (step toCode) start pre).stage = .connecting := h
      rcases hearly with he | he
      · rw [he] at hrace
        exact ConnectStage.noConfusion hrace
      · rw [he] at hrace
        exact ConnectStage.noConfusion hrace
    · have hc' : c ∈ (run (step toCode) start pre).calls := hc
      rw [hnil] at hc'
      exact absurd hc' List.not_mem_nil
  have hrun := run_invariant (step toCode) (I := StoppedEarly) (fun _ e hs ↦ stoppedEarly_step hs e)
    post hstopped
  rw [hes, run_append, run_cons]
  exact hrun.2.2

theorem calls_forms (es : List ConnectorEvent) :
    ∀ c ∈ (run (step toCode) start es).calls,
      c = (.serviceStopped, false) ∨ c = (.resolveFailed, false) ∨ c = (.success, true) ∨
        (∃ ec, ec ≠ 0 ∧ c = (toCode ec, false)) ∨ c = (.channelTimeout, false) ∨
        ∃ ec, ConnectorEvent.timer ec ∈ es ∧ ec.isError ∧ c = (ec, false) := by
  intro c hc
  obtain ⟨pre, e, post, rfl, hpre, hadd⟩ :=
    exists_step_of_mem_run (step toCode) Connector.calls hc List.not_mem_nil
  have hmay := (mem_calls_step hadd).resolve_left hpre
  cases e with
  | connect => exact .inl hmay
  | resolved ec =>
    rcases hmay with h | h
    · exact .inl h
    · exact .inr (.inl h)
  | connected ec =>
    rcases hmay with ⟨hec, h⟩ | ⟨-, h⟩
    · exact .inr (.inr (.inr (.inl ⟨ec, hec, h⟩)))
    · exact .inr (.inr (.inl h))
  | timer ec =>
    -- The timer's failure, or `channel_timeout` when it expires.
    by_cases herr : ec.isError
    · refine .inr (.inr (.inr (.inr (.inr ⟨ec, ?_, herr, ?_⟩))))
      · exact List.mem_append_right _ List.mem_cons_self
      · rw [hmay, if_pos herr]
    · refine .inr (.inr (.inr (.inr (.inl ?_))))
      rw [hmay, if_neg herr]
  | stop => exact hmay.elim

/-- What `connector::connect` does in the run `es` of a connector. -/
structure ConnectOutcome (toCode : ℕ → Code) (es : List ConnectorEvent) : Prop where
  /-- The handler is called at most once. -/
  at_most_once : (run (step toCode) start es).calls.length ≤ 1
  /-- Once nothing it waits for is in flight, it has been called exactly once. -/
  once_of_complete :
    Complete (run (step toCode) start es) → (run (step toCode) start es).calls.length = 1
  /-- Calling `connect`, then the resolve and the connect completing, leave nothing in flight. -/
  completes : ∀ r c,
    Complete (run (step toCode) start (es ++ [.connect, .resolved r, .connected c]))
  /-- A channel comes exactly when the connect completes with success in the race, before the
  timer; stops play no part. -/
  success_iff : (Code.success, true) ∈ (run (step toCode) start es).calls ↔
    ∃ pre post, es = pre ++ .connected 0 :: post ∧
      (run (step toCode) start pre).stage = .connecting ∧
      (run (step toCode) start pre).connectPending = true ∧
      (run (step toCode) start pre).timerPending = true
  /-- A stop before the resolve completes gives `service_stopped`. -/
  stopped_early : ∀ pre post, es = pre ++ .stop :: post →
    (run (step toCode) start pre).stage = .idle ∨ (run (step toCode) start pre).stage = .resolving →
    ∀ c ∈ (run (step toCode) start es).calls, c = (.serviceStopped, false)
  /-- Every call is one of these, and only a successful connect comes with a channel. -/
  forms : ∀ c ∈ (run (step toCode) start es).calls,
    c = (.serviceStopped, false) ∨ c = (.resolveFailed, false) ∨ c = (.success, true) ∨
      (∃ ec, ec ≠ 0 ∧ c = (toCode ec, false)) ∨ c = (.channelTimeout, false) ∨
      ∃ ec, ConnectorEvent.timer ec ∈ es ∧ ec.isError ∧ c = (ec, false)

/-- **`connect` calls its handler once.** In every run of a connector, whatever the order of the
completions and of the stops, `connect` calls its handler at most once, and exactly once when
the resolve and the connect have completed. It gets a channel exactly when the connect succeeds
before the timer completes, `service_stopped` when stopped before the resolve completes, and
otherwise `resolve_failed`, the connect's failure or the timer's. -/
theorem connect_calls_handler_once (toCode : ℕ → Code) (es : List ConnectorEvent) :
    ConnectOutcome toCode es where
  at_most_once := (inv_run es).length_le_one
  once_of_complete hc := (inv_run es).length_of_complete hc
  completes r c := by
    rw [run_append, run_cons, run_cons, run_cons, run_nil]
    exact complete_connected (stage_resolved (stage_connect _) r) c
  success_iff := calls_success_iff es
  stopped_early _ _ hes hearly := calls_of_stopped_early hes hearly
  forms := calls_forms es

/-- **A stop does not keep the connect from succeeding.** The resolve completes, the connector
is stopped, and the connect then completes before the timer: the handler gets a channel after
the stop. -/
theorem connect_succeeds_after_stop :
    (run (step Code.other) start [.connect, .resolved 0, .stop, .connected 0]).calls =
      [(.success, true)] := by
  decide

end Connector

end Network
