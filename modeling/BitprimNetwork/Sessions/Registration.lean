import BitprimNetwork.Sessions.Session

/-!
# Registering a channel

`session::register_channel(channel, handle_started, handle_stopped)` is the one way a session
brings a channel into use. Unless the session is stopped it starts the channel, runs the version
handshake, and, once the handshake has succeeded, stores the channel among `p2p`'s open
channels (`handshake_complete`). Whatever the start sequence ends with reaches
`handle_start`: a failure stops the channel and calls `handle_stopped` with the failure; a
success subscribes `handle_remove` to the channel's stop, which takes the channel out of the
open set and calls `handle_stopped(success)` once the channel stops. Either way
`handle_started` comes last.

`Registration` follows one channel through that sequence. The environment decides the outcome
of the channel start, of the handshake (with the peer version it set) and when the channel
stops; the session kind decides the two steps that the subclasses override.

The channel starts out stopped: `proxy`'s constructor sets `stopped_`, and only `proxy::start`,
run by `channel->start`, clears it. A session already stopped calls both handlers with
`service_stopped` and never starts the channel, which stays stopped and is touched by nothing
after (`run_register_of_stopped`).

A run is *complete* when no callback is pending: the sequence has ended and no stop handler is
waiting. In every complete run `handle_started` and `handle_stopped` have each been called once
and the channel has stopped. Success reaches `handle_started` exactly when the channel entered
the open set, and the channel leaves the set before `handle_stopped(success)`; a failure reaches
both handlers, and the session stops the channel with it unless it never started the channel
(`registration_complete`).
-/

namespace Network

open Async

/-- How the session a channel registers with runs the start sequence. -/
inductive SessionKind where
  /-- The sequence of `session` itself (manual, seed and batch sessions). -/
  | base
  /-- `session_inbound`, which refuses a connection to the node itself. -/
  | inbound
  /-- `session_outbound`, which pends the channel while its handshake runs. -/
  | outbound
  deriving DecidableEq, Repr

/-- Where the start sequence is. -/
inductive Stage where
  /-- `channel->start` has not called back. -/
  | starting
  /-- The version protocol runs and has not called its handler. -/
  | handshaking
  /-- `handle_start` has run. -/
  | ended
  deriving DecidableEq, Repr

/-- One channel's registration. -/
structure Registration where
  /-- Where the start sequence is. -/
  stage : Stage
  /-- The channel collections of `p2p`. -/
  network : P2p
  /-- The channel has stopped. -/
  channelStopped : Bool
  /-- `handle_remove` is subscribed to the channel's stop and has not run. -/
  removeSubscribed : Bool
  /-- The codes the session called `channel->stop` with. -/
  stopCalls : List Code
  /-- The codes `handle_started` received, in order. -/
  started : List Code
  /-- The codes `handle_stopped` received, in order. -/
  stopped : List Code
  deriving DecidableEq

/-- The outcomes the environment decides. -/
inductive RegistrationEvent where
  /-- `channel->start` calls back with `ec`. -/
  | channelStart (ec : Code)
  /-- The version protocol calls its handler with `ec`, having set the peer version `peer`. -/
  | handshake (ec : Code) (peer : Option VersionMessage)
  /-- The channel stops with `ec`. -/
  | channelStop (ec : Code)

namespace Registration

variable (kind : SessionKind) (c : Channel)

/-- `session::handle_remove`. -/
def handleRemove (r : Registration) : Registration :=
  { r with
    network := r.network.remove c
    removeSubscribed := false
    stopped := r.stopped ++ [.success] }

/-- `session::handle_start(ec)`. Subscribing to a channel that has stopped runs `handle_remove`
at once. -/
def handleStart (r : Registration) (ec : Code) : Registration :=
  let r := { r with stage := .ended }
  let r :=
    if ec.isError then
      { r with
        channelStopped := true
        stopCalls := r.stopCalls ++ [ec]
        stopped := r.stopped ++ [ec] }
    else if r.channelStopped then handleRemove c r
    else { r with removeSubscribed := true }
  { r with started := r.started ++ [ec] }

/-- The start sequence ends with `ec`; the outbound session's `do_unpend` runs first. -/
def finish (r : Registration) (ec : Code) : Registration :=
  match kind with
  | .outbound => handleStart c { r with network := r.network.unpend c } ec
  | .base | .inbound => handleStart c r ec

/-- The session's `handshake_complete`. -/
def complete (peer : Option VersionMessage) (n : P2p) : Code × P2p :=
  match kind with
  | .inbound => inboundHandshakeComplete c peer n
  | .base | .outbound => handshakeComplete c n

/-- The start sequence of a channel the session has not registered yet. The channel is stopped,
as `proxy`'s constructor leaves it. -/
def unregistered (n : P2p) : Registration := ⟨.starting, n, true, false, [], [], []⟩

/-- `session::register_channel` up to the first callback it waits for. A stopped session calls
both handlers and returns, without starting the channel; the outbound session pends the channel
before starting it. -/
def register (sessionStopped : Bool) (n : P2p) : Registration :=
  let r : Registration := ⟨.starting, n, true, false, [], [], []⟩
  if sessionStopped then
    { r with stage := .ended, started := [.serviceStopped], stopped := [.serviceStopped] }
  else
    match kind with
    | .outbound =>
      if (n.pend c).1.isError then finish kind c r (n.pend c).1
      else { r with network := (n.pend c).2 }
    | .base | .inbound => r

/-- One outcome. A callback the sequence is not waiting for does not come; a stop after the
first does nothing, the stop subscribers having been called. -/
def step (r : Registration) : RegistrationEvent → Registration
  | .channelStart ec =>
    if r.stage = .starting then
      -- `proxy::start` has cleared `stopped_`, or failed because the channel was running;
      -- `channel::do_start` passes success on.
      let r := { r with channelStopped := false }
      if ec.isError then finish kind c r ec else { r with stage := .handshaking }
    else r
  | .handshake ec peer =>
    if r.stage = .handshaking then
      let res := handleHandshake (complete kind c peer) r.network ec
      finish kind c { r with network := res.2 } res.1
    else r
  | .channelStop _ =>
    if r.channelStopped then r
    else if r.removeSubscribed then handleRemove c { r with channelStopped := true }
    else { r with channelStopped := true }

/-- No callback is pending: the sequence has ended and no stop handler waits. -/
def Complete (r : Registration) : Prop := r.stage = .ended ∧ r.removeSubscribed = false

/-! ## What the handshake's end does to the channel sets -/

/-- The end of the handshake, from a network where the channel is not open, has opened it once
if it passes on success and not at all otherwise, and has left the pending set alone. -/
def OpensOnSuccess (n : P2p) (res : Code × P2p) : Prop :=
  res.2.pendingClose.elements.count c = (if res.1 = .success then 1 else 0) ∧
    res.2.pendingHandshake = n.pendingHandshake

theorem opensOnSuccess_complete {n : P2p} (h : c ∉ n.pendingClose.elements)
    (peer : Option VersionMessage) : OpensOnSuccess c n (complete kind c peer n) := by
  have hstore : OpensOnSuccess c n (handshakeComplete c n) := ⟨P2p.count_store h, rfl⟩
  cases kind with
  | inbound =>
    simp only [complete, inboundHandshakeComplete]
    split_ifs
    · exact ⟨List.count_eq_zero.mpr h, rfl⟩
    · exact hstore
  | base => exact hstore
  | outbound => exact hstore

theorem opensOnSuccess_handleHandshake {n : P2p} (h : c ∉ n.pendingClose.elements)
    (peer : Option VersionMessage) (ec : Code) :
    OpensOnSuccess c n (handleHandshake (complete kind c peer) n ec) := by
  unfold handleHandshake
  split_ifs with herr
  · -- A failed handshake passes its code on and stores nothing.
    have hec : ec ≠ .success := by simpa [Code.isError] using herr
    exact ⟨by simpa [hec] using List.count_eq_zero.mpr h, rfl⟩
  · exact opensOnSuccess_complete kind c h peer

/-! ## Where the handshake's end takes the sequence -/

/-- The end of the sequence: `handle_started` gets the code, and the sequence has ended. -/
theorem finish_started (r : Registration) (ec : Code) :
    (finish kind c r ec).started = r.started ++ [ec] ∧ (finish kind c r ec).stage = .ended := by
  cases kind <;> simp only [finish, handleStart] <;> split_ifs <;> simp [handleRemove]

/-- A start that fails ends a sequence waiting for it, with the failure. -/
theorem step_channelStart_of_error {r : Registration} (h : r.stage = .starting) {ec : Code}
    (herr : ec.isError = true) :
    (step kind c r (.channelStart ec)).started = r.started ++ [ec] ∧
      (step kind c r (.channelStart ec)).stage = .ended := by
  simp only [step, h, if_true, herr]
  exact finish_started kind c _ ec

/-- The handshake's end reaches a sequence waiting for it, and ends it with the code
`handle_handshake` passes on. -/
theorem step_handshake_of_handshaking {r : Registration} (h : r.stage = .handshaking) (ec : Code)
    (peer : Option VersionMessage) :
    (step kind c r (.handshake ec peer)).started =
        r.started ++ [(handleHandshake (complete kind c peer) r.network ec).1] ∧
      (step kind c r (.handshake ec peer)).stage = .ended := by
  simp only [step, h, if_true]
  exact finish_started kind c _ _

/-- Once the channel has started, the sequence waits for the handshake, unless the outbound
session's pend failed and ended it before the channel started. -/
theorem register_channelStart (n : P2p) :
    ((register kind c false n).step kind c (.channelStart .success)).stage = .handshaking ∧
        ((register kind c false n).step kind c (.channelStart .success)).started = [] ∨
      ((register kind c false n).step kind c (.channelStart .success)).stage = .ended ∧
        ((register kind c false n).step kind c (.channelStart .success)).started ≠ [.success] := by
  cases kind with
  | base => exact .inl ⟨rfl, rfl⟩
  | inbound => exact .inl ⟨rfl, rfl⟩
  | outbound =>
    simp only [register, Bool.false_eq_true, if_false]
    split_ifs with herr
    · obtain ⟨hstarted, hend⟩ :=
        finish_started .outbound c ⟨.starting, n, true, false, [], [], []⟩ (n.pend c).1
      have hstep : (finish .outbound c ⟨.starting, n, true, false, [], [], []⟩ (n.pend c).1).step
          .outbound c (.channelStart .success) =
          finish .outbound c ⟨.starting, n, true, false, [], [], []⟩ (n.pend c).1 := by
        simp [step, hend]
      rw [hstep, hstarted, hend]
      refine .inr ⟨rfl, ?_⟩
      intro h
      simp only [List.nil_append, List.cons.injEq, and_true] at h
      rw [h] at herr
      exact absurd herr (by decide)
    · exact .inl ⟨rfl, rfl⟩

/-- `handle_started` is called once: a step leaves the sequence's calls of it alone, and with
them whether it has ended, or ends a sequence that had not ended, with one more. -/
theorem step_started (r : Registration) (e : RegistrationEvent) :
    ((step kind c r e).started = r.started ∧
        ((step kind c r e).stage = .ended ↔ r.stage = .ended)) ∨
      (r.stage ≠ .ended ∧ (step kind c r e).stage = .ended ∧
        ∃ ec, (step kind c r e).started = r.started ++ [ec]) := by
  cases e with
  | channelStart ec =>
    simp only [step]
    split_ifs with hs herr
    · obtain ⟨hstarted, hend⟩ := finish_started kind c { r with channelStopped := false } ec
      exact .inr ⟨by rw [hs]; simp, hend, ec, hstarted⟩
    · exact .inl ⟨rfl, ⟨by simp, fun h ↦ absurd (hs.symm.trans h) (by simp)⟩⟩
    · exact .inl ⟨rfl, Iff.rfl⟩
  | handshake ec peer =>
    simp only [step]
    split_ifs with hs
    · obtain ⟨hstarted, hend⟩ := finish_started kind c _ _
      exact .inr ⟨by rw [hs]; simp, hend, _, hstarted⟩
    · exact .inl ⟨rfl, Iff.rfl⟩
  | channelStop ec =>
    simp only [step]
    split_ifs
    · exact .inl ⟨rfl, Iff.rfl⟩
    · exact .inl ⟨rfl, Iff.rfl⟩
    · exact .inl ⟨rfl, Iff.rfl⟩

/-- `register_channel` has called `handle_started` at most once, and then ended the sequence. -/
theorem register_started (sessionStopped : Bool) (n : P2p) :
    (register kind c sessionStopped n).started = [] ∧
        (register kind c sessionStopped n).stage = .starting ∨
      (register kind c sessionStopped n).stage = .ended ∧
        ∃ ec, (register kind c sessionStopped n).started = [ec] := by
  unfold register
  dsimp only
  by_cases hs : sessionStopped = true
  · rw [if_pos hs]
    exact .inr ⟨rfl, _, rfl⟩
  · rw [if_neg hs]
    cases kind with
    | outbound =>
      dsimp only
      by_cases hp : (n.pend c).1.isError = true
      · -- The pend failed: `do_unpend` ends the sequence before the channel starts.
        rw [if_pos hp]
        obtain ⟨hstarted, hend⟩ := finish_started .outbound c
          ⟨.starting, n, true, false, [], [], []⟩ (n.pend c).1
        exact .inr ⟨hend, _, hstarted⟩
      · rw [if_neg hp]
        exact .inl ⟨rfl, rfl⟩
    | base => exact .inl ⟨rfl, rfl⟩
    | inbound => exact .inl ⟨rfl, rfl⟩

/-- Any other sequence ignores it. -/
theorem step_handshake_of_ne {r : Registration} (h : r.stage ≠ .handshaking) (ec : Code)
    (peer : Option VersionMessage) : step kind c r (.handshake ec peer) = r := by
  simp [step, h]

/-! ## The invariant of a registration -/

/-- What every registration of a fresh channel with a running session keeps. Before the
sequence ends no handler has run; it ends with one call of `handle_started`; a failure has been
passed to `handle_stopped` and has stopped the channel; after a success `handle_stopped` waits
for `handle_remove` and then gets success; the channel is open exactly between a success and
`handle_stopped`, and pending exactly while an outbound sequence runs. Once the sequence has
ended and no stop handler waits, the channel has stopped. -/
structure Inv (r : Registration) : Prop where
  waiting : r.stage ≠ .ended →
    r.started = [] ∧ r.stopped = [] ∧ r.stopCalls = [] ∧ r.removeSubscribed = false
  ended : r.stage = .ended → ∃ ec, r.started = [ec]
  failed : ∀ ec, r.started = [ec] → ec ≠ .success →
    r.stopped = [ec] ∧ r.stopCalls = [ec] ∧ r.removeSubscribed = false
  succeeded : r.started = [.success] → r.stopCalls = [] ∧
    (r.stopped = [] ∧ r.removeSubscribed = true ∨ r.stopped = [.success] ∧ r.removeSubscribed = false)
  subscribed : r.removeSubscribed = true → r.channelStopped = false
  halted : r.stage = .ended → r.removeSubscribed = false → r.channelStopped = true
  connected : r.network.pendingClose.elements.count c =
    if r.started = [.success] ∧ r.stopped = [] then 1 else 0
  pended : r.network.pendingHandshake.elements.count c =
    if kind = .outbound ∧ r.stage ≠ .ended then 1 else 0

variable {kind c}

/-! ### The three ways `handle_start` goes -/

theorem handleStart_of_error {r : Registration} {ec : Code} (herr : ec.isError = true) :
    handleStart c r ec =
      { r with
        stage := .ended
        channelStopped := true
        stopCalls := r.stopCalls ++ [ec]
        stopped := r.stopped ++ [ec]
        started := r.started ++ [ec] } := by
  simp [handleStart, herr]

theorem handleStart_success_of_running {r : Registration} (hs : r.channelStopped = false) :
    handleStart c r .success =
      { r with stage := .ended, removeSubscribed := true, started := r.started ++ [.success] } := by
  simp [handleStart, hs]

theorem handleStart_success_of_stopped {r : Registration} (hs : r.channelStopped = true) :
    handleStart c r .success =
      { r with
        stage := .ended
        network := r.network.remove c
        removeSubscribed := false
        stopped := r.stopped ++ [.success]
        started := r.started ++ [.success] } := by
  simp [handleStart, handleRemove, hs]

/-- `handle_start` from a sequence that has run no handler keeps the invariant, when the
channel is open exactly if the code is success and is no longer pending. -/
theorem inv_handleStart {r : Registration} {ec : Code}
    (hw : r.started = [] ∧ r.stopped = [] ∧ r.stopCalls = [] ∧ r.removeSubscribed = false)
    (hclose : r.network.pendingClose.elements.count c = if ec = .success then 1 else 0)
    (hpend : r.network.pendingHandshake.elements.count c = 0) :
    Inv kind c (handleStart c r ec) := by
  obtain ⟨h₁, h₂, h₃, h₄⟩ := hw
  by_cases hec : ec = .success
  · subst hec
    simp only [if_true] at hclose
    cases hs : r.channelStopped
    · -- The channel runs: `handle_remove` waits for its stop.
      rw [handleStart_success_of_running hs]
      exact ⟨by simp, by simp [h₁], by simp [h₁], by simp [h₂, h₃], fun _ ↦ hs, by simp,
        by simp [h₁, h₂, hclose], by simp [hpend]⟩
    · -- The channel has stopped already: `handle_remove` runs at once.
      rw [handleStart_success_of_stopped hs]
      exact ⟨by simp, by simp [h₁], by simp [h₁], by simp [h₂, h₃], by simp, fun _ _ ↦ hs,
        by simp [P2p.remove, h₂, hclose], by simp [P2p.remove, hpend]⟩
  · have herr : ec.isError = true := by simpa [Code.isError] using hec
    simp only [hec, if_false] at hclose
    rw [handleStart_of_error herr]
    refine ⟨by simp, by simp [h₁], ?_, ?_, fun h ↦ absurd h (by simp [h₄]), fun _ _ ↦ rfl,
      by simp [h₁, hec, hclose], by simp [hpend]⟩
    · intro ec' hec' _
      simp only [h₁, List.nil_append, List.cons.injEq, and_true] at hec'
      subst hec'
      simp [h₂, h₃, h₄]
    · intro hs
      simp [h₁, hec] at hs

/-- The end of the sequence, from one that has run no handler and whose network the
handshake's end left as `OpensOnSuccess` says. -/
theorem inv_finish {r : Registration} {ec : Code}
    (hw : r.started = [] ∧ r.stopped = [] ∧ r.stopCalls = [] ∧ r.removeSubscribed = false)
    (hclose : r.network.pendingClose.elements.count c = if ec = .success then 1 else 0)
    (hpend : r.network.pendingHandshake.elements.count c ≤ if kind = .outbound then 1 else 0) :
    Inv kind c (finish kind c r ec) := by
  cases kind with
  | outbound =>
    -- `do_unpend` takes the channel out of the pending set first.
    simp only [if_true] at hpend
    exact inv_handleStart hw hclose (by simp [P2p.unpend]; omega)
  | base => exact inv_handleStart hw hclose (by simpa using hpend)
  | inbound => exact inv_handleStart hw hclose (by simpa using hpend)

theorem inv_register {n : P2p} (hclose : c ∉ n.pendingClose.elements)
    (hpend : c ∉ n.pendingHandshake.elements) : Inv kind c (register kind c false n) := by
  have hclose₀ := List.count_eq_zero.mpr hclose
  have hpend₀ := List.count_eq_zero.mpr hpend
  -- Before the first callback nothing has run; only the outbound session has touched `p2p`.
  have hstart : ∀ k, k ≠ .outbound → Inv k c ⟨.starting, n, true, false, [], [], []⟩ :=
    fun k hk ↦ ⟨fun _ ↦ ⟨rfl, rfl, rfl, rfl⟩, by simp, by simp, by simp, by simp, by simp,
      by simpa using hclose₀, by simpa [hk] using hpend₀⟩
  cases kind with
  | base => exact hstart _ (by simp)
  | inbound => exact hstart _ (by simp)
  | outbound =>
    simp only [register, Bool.false_eq_true, if_false]
    split_ifs with herr
    · -- The pend failed: `do_unpend` ends the sequence at once.
      have hec : (n.pend c).1 ≠ .success := by simpa [Code.isError] using herr
      exact inv_finish ⟨rfl, rfl, rfl, rfl⟩ (by simpa [hec] using hclose₀) (by simp [hpend₀])
    · have hec : (n.pend c).1 = .success := by simpa [Code.isError] using herr
      refine ⟨fun _ ↦ ⟨rfl, rfl, rfl, rfl⟩, by simp, by simp, by simp, by simp, by simp,
        by simpa using hclose₀, ?_⟩
      simp [P2p.count_pend hpend, hec]

/-- A stop handler that waits belongs to a sequence that succeeded and whose channel is open. -/
theorem Inv.of_subscribed {r : Registration} (hr : Inv kind c r) (hs : r.removeSubscribed = true) :
    r.started = [.success] ∧ r.stopped = [] ∧ r.stopCalls = [] := by
  have hend : r.stage = .ended := by
    by_contra hne
    simp [(hr.waiting hne).2.2.2] at hs
  obtain ⟨ec, hec⟩ := hr.ended hend
  by_cases hsucc : ec = .success
  · subst hsucc
    obtain ⟨hcalls, ⟨hstop, -⟩ | ⟨-, hsub⟩⟩ := hr.succeeded hec
    · exact ⟨hec, hstop, hcalls⟩
    · simp [hsub] at hs
  · simp [(hr.failed ec hec hsucc).2.2] at hs

theorem inv_step {r : Registration} (hr : Inv kind c r) (e : RegistrationEvent) :
    Inv kind c (step kind c r e) := by
  cases e with
  | channelStart ec =>
    simp only [step]
    split_ifs with hst herr
    · have hw := hr.waiting (by simp [hst])
      refine inv_finish hw ?_ (by simp [hr.pended, hst])
      have hec : ec ≠ .success := by simpa [Code.isError] using herr
      simpa [hec, hw.1] using hr.connected
    · -- The channel runs and the handshake starts.
      exact ⟨fun _ ↦ hr.waiting (by simp [hst]), by simp, hr.failed, hr.succeeded, fun _ ↦ rfl,
        by simp, hr.connected, by simpa [hst] using hr.pended⟩
    · exact hr
  | handshake ec peer =>
    simp only [step]
    split_ifs with hst
    · -- The handshake's end opens the channel only on success and keeps the pending set.
      have hw := hr.waiting (by simp [hst])
      have hfresh : c ∉ r.network.pendingClose.elements := by
        rw [← List.count_eq_zero, hr.connected]
        simp [hw.1]
      obtain ⟨hclose, hpend⟩ := opensOnSuccess_handleHandshake kind c hfresh peer ec
      exact inv_finish hw hclose (by simp [hpend, hr.pended, hst])
    · exact hr
  | channelStop ec =>
    simp only [step]
    split_ifs with hstopped hsub
    · exact hr
    · -- `handle_remove` runs: the channel leaves the open set, then `handle_stopped(success)`.
      obtain ⟨h₁, h₂, h₃⟩ := hr.of_subscribed hsub
      have hend : r.stage = .ended := by
        by_contra hne
        simp [(hr.waiting hne).2.2.2] at hsub
      have hcount : r.network.pendingClose.elements.count c = 1 := by simp [hr.connected, h₁, h₂]
      exact ⟨fun h ↦ absurd hend (by simpa [handleRemove] using h), fun _ ↦ ⟨_, h₁⟩,
        by simp [handleRemove, h₁], by simp [handleRemove, h₂, h₃], by simp [handleRemove],
        fun _ _ ↦ rfl, by simp [handleRemove, P2p.remove, hcount, h₂], hr.pended⟩
    · exact ⟨hr.waiting, hr.ended, hr.failed, hr.succeeded, fun h ↦ absurd h (by simpa using hsub),
        fun _ _ ↦ rfl, hr.connected, hr.pended⟩

/-- The invariant over every run of a fresh channel's registration with a running session. -/
theorem inv_run {n : P2p} (hclose : c ∉ n.pendingClose.elements)
    (hpend : c ∉ n.pendingHandshake.elements) (es : List RegistrationEvent) :
    Inv kind c (run (step kind c) (register kind c false n) es) :=
  run_invariant (I := Inv kind c) _ (fun _ e hr ↦ inv_step hr e) es (inv_register hclose hpend)

/-- The channel is open exactly between a success reaching `handle_started` and the call of
`handle_stopped`. -/
theorem Inv.open_iff {r : Registration} (hr : Inv kind c r) :
    c ∈ r.network.pendingClose.elements ↔ r.started = [.success] ∧ r.stopped = [] := by
  rw [← List.count_pos_iff, hr.connected]
  split_ifs with h <;> simp [h]

/-- A registration with no callback pending has called each handler once and stopped the channel,
which is neither open nor pending. -/
theorem Inv.of_complete {r : Registration} (hr : Inv kind c r) (hc : Complete r) :
    ∃ ec, r.started = [ec] ∧ r.channelStopped = true ∧
      (ec = .success → r.stopped = [.success] ∧ r.stopCalls = []) ∧
      (ec ≠ .success → r.stopped = [ec] ∧ r.stopCalls = [ec]) ∧
      c ∉ r.network.pendingClose.elements ∧ c ∉ r.network.pendingHandshake.elements := by
  obtain ⟨hend, hsub⟩ := hc
  obtain ⟨ec, hec⟩ := hr.ended hend
  -- With no stop handler waiting, a success has had its `handle_stopped(success)`.
  have hsucc : ec = .success → r.stopped = [.success] ∧ r.stopCalls = [] := by
    rintro rfl
    obtain ⟨hcalls, ⟨-, hs⟩ | ⟨hstop, -⟩⟩ := hr.succeeded hec
    · simp [hs] at hsub
    · exact ⟨hstop, hcalls⟩
  refine ⟨ec, hec, hr.halted hend hsub, hsucc,
    fun hne ↦ ⟨(hr.failed ec hec hne).1, (hr.failed ec hec hne).2.1⟩, ?_, ?_⟩
  · rw [hr.open_iff]
    by_cases hs : ec = .success
    · simp [hec, hs, (hsucc hs).1]
    · simp [hec, hs]
  · rw [← List.count_eq_zero, hr.pended]
    simp [hend]

/-! ## What a registration guarantees -/

/-- **The open set.** In every run of a fresh channel's registration with a running session the
channel is open exactly between the success reaching `handle_started` and the call of
`handle_stopped`: success means the store inserted it, and `handle_remove` takes it out before
`handle_stopped(success)`. -/
theorem mem_open_iff {n : P2p} (hclose : c ∉ n.pendingClose.elements)
    (hpend : c ∉ n.pendingHandshake.elements) (es : List RegistrationEvent) :
    c ∈ (run (step kind c) (register kind c false n) es).network.pendingClose.elements ↔
      (run (step kind c) (register kind c false n) es).started = [.success] ∧
        (run (step kind c) (register kind c false n) es).stopped = [] :=
  (inv_run hclose hpend es).open_iff

theorem mem_open_iff_handshake :
    (⟨1, 0x1234, ⟨0x7f000001, 8333⟩⟩ : Channel) ∉ (⟨⟨false, []⟩, ⟨false, []⟩⟩ : P2p).pendingClose.elements ∧
      (⟨1, 0x1234, ⟨0x7f000001, 8333⟩⟩ : Channel) ∉ (⟨⟨false, []⟩, ⟨false, []⟩⟩ : P2p).pendingHandshake.elements ∧
      ((⟨1, 0x1234, ⟨0x7f000001, 8333⟩⟩ : Channel) ∈ (run (step .inbound ⟨1, 0x1234, ⟨0x7f000001, 8333⟩⟩) (register .inbound ⟨1, 0x1234, ⟨0x7f000001, 8333⟩⟩ false ⟨⟨false, []⟩, ⟨false, []⟩⟩)
          [.channelStart .success, .handshake .success none]).network.pendingClose.elements ↔
        (run (step .inbound ⟨1, 0x1234, ⟨0x7f000001, 8333⟩⟩) (register .inbound ⟨1, 0x1234, ⟨0x7f000001, 8333⟩⟩ false ⟨⟨false, []⟩, ⟨false, []⟩⟩)
          [.channelStart .success, .handshake .success none]).started = [.success] ∧
        (run (step .inbound ⟨1, 0x1234, ⟨0x7f000001, 8333⟩⟩) (register .inbound ⟨1, 0x1234, ⟨0x7f000001, 8333⟩⟩ false ⟨⟨false, []⟩, ⟨false, []⟩⟩)
          [.channelStart .success, .handshake .success none]).stopped = []) := by
  have hclose : (⟨1, 0x1234, ⟨0x7f000001, 8333⟩⟩ : Channel) ∉ (⟨⟨false, []⟩, ⟨false, []⟩⟩ : P2p).pendingClose.elements := by decide
  have hpend : (⟨1, 0x1234, ⟨0x7f000001, 8333⟩⟩ : Channel) ∉ (⟨⟨false, []⟩, ⟨false, []⟩⟩ : P2p).pendingHandshake.elements := by decide
  exact ⟨hclose, hpend, mem_open_iff hclose hpend _⟩

/-- **Complete runs.** Once no callback is pending, `handle_started` has run once, with `ec`
say, and `handle_stopped` once: with success if `ec` is success, and otherwise with `ec`, after
the session stopped the channel with `ec`. The channel is then neither open nor pending. -/
theorem complete_run {n : P2p} (hclose : c ∉ n.pendingClose.elements)
    (hpend : c ∉ n.pendingHandshake.elements) (es : List RegistrationEvent)
    (hc : Complete (run (step kind c) (register kind c false n) es)) :
    ∃ ec, (run (step kind c) (register kind c false n) es).started = [ec] ∧
      (ec = .success → (run (step kind c) (register kind c false n) es).stopped = [.success]) ∧
      (ec ≠ .success → (run (step kind c) (register kind c false n) es).stopped = [ec] ∧
        (run (step kind c) (register kind c false n) es).stopCalls = [ec]) ∧
      c ∉ (run (step kind c) (register kind c false n) es).network.pendingClose.elements ∧
      c ∉ (run (step kind c) (register kind c false n) es).network.pendingHandshake.elements := by
  obtain ⟨ec, hec, -, hsucc, hfail, hopen, hpending⟩ := (inv_run hclose hpend es).of_complete hc
  exact ⟨ec, hec, fun h ↦ (hsucc h).1, hfail, hopen, hpending⟩

theorem complete_run_timeout :
    (⟨1, 0x1234, ⟨0x7f000001, 8333⟩⟩ : Channel) ∉ (⟨⟨false, []⟩, ⟨false, []⟩⟩ : P2p).pendingClose.elements ∧
      (⟨1, 0x1234, ⟨0x7f000001, 8333⟩⟩ : Channel) ∉ (⟨⟨false, []⟩, ⟨false, []⟩⟩ : P2p).pendingHandshake.elements ∧
      Complete (run (step .outbound ⟨1, 0x1234, ⟨0x7f000001, 8333⟩⟩) (register .outbound ⟨1, 0x1234, ⟨0x7f000001, 8333⟩⟩ false ⟨⟨false, []⟩, ⟨false, []⟩⟩)
          [.channelStart .success, .handshake .channelTimeout none]) ∧
      ∃ ec, (run (step .outbound ⟨1, 0x1234, ⟨0x7f000001, 8333⟩⟩) (register .outbound ⟨1, 0x1234, ⟨0x7f000001, 8333⟩⟩ false ⟨⟨false, []⟩, ⟨false, []⟩⟩)
          [.channelStart .success, .handshake .channelTimeout none]).started = [ec] ∧
        (ec = .success → (run (step .outbound ⟨1, 0x1234, ⟨0x7f000001, 8333⟩⟩) (register .outbound ⟨1, 0x1234, ⟨0x7f000001, 8333⟩⟩ false ⟨⟨false, []⟩, ⟨false, []⟩⟩)
          [.channelStart .success, .handshake .channelTimeout none]).stopped = [.success]) ∧
        (ec ≠ .success → (run (step .outbound ⟨1, 0x1234, ⟨0x7f000001, 8333⟩⟩) (register .outbound ⟨1, 0x1234, ⟨0x7f000001, 8333⟩⟩ false ⟨⟨false, []⟩, ⟨false, []⟩⟩)
          [.channelStart .success, .handshake .channelTimeout none]).stopped = [ec] ∧ (run (step .outbound ⟨1, 0x1234, ⟨0x7f000001, 8333⟩⟩) (register .outbound ⟨1, 0x1234, ⟨0x7f000001, 8333⟩⟩ false ⟨⟨false, []⟩, ⟨false, []⟩⟩)
          [.channelStart .success, .handshake .channelTimeout none]).stopCalls = [ec]) ∧
        ⟨1, 0x1234, ⟨0x7f000001, 8333⟩⟩ ∉ (run (step .outbound ⟨1, 0x1234, ⟨0x7f000001, 8333⟩⟩) (register .outbound ⟨1, 0x1234, ⟨0x7f000001, 8333⟩⟩ false ⟨⟨false, []⟩, ⟨false, []⟩⟩)
          [.channelStart .success, .handshake .channelTimeout none]).network.pendingClose.elements ∧
        ⟨1, 0x1234, ⟨0x7f000001, 8333⟩⟩ ∉ (run (step .outbound ⟨1, 0x1234, ⟨0x7f000001, 8333⟩⟩) (register .outbound ⟨1, 0x1234, ⟨0x7f000001, 8333⟩⟩ false ⟨⟨false, []⟩, ⟨false, []⟩⟩)
          [.channelStart .success, .handshake .channelTimeout none]).network.pendingHandshake.elements := by
  have hclose : (⟨1, 0x1234, ⟨0x7f000001, 8333⟩⟩ : Channel) ∉ (⟨⟨false, []⟩, ⟨false, []⟩⟩ : P2p).pendingClose.elements := by decide
  have hpend : (⟨1, 0x1234, ⟨0x7f000001, 8333⟩⟩ : Channel) ∉ (⟨⟨false, []⟩, ⟨false, []⟩⟩ : P2p).pendingHandshake.elements := by decide
  have hc : Complete (run (step .outbound ⟨1, 0x1234, ⟨0x7f000001, 8333⟩⟩) (register .outbound ⟨1, 0x1234, ⟨0x7f000001, 8333⟩⟩ false ⟨⟨false, []⟩, ⟨false, []⟩⟩)
          [.channelStart .success, .handshake .channelTimeout none]) := by
    unfold Complete
    decide
  exact ⟨hclose, hpend, hc, complete_run hclose hpend _ hc⟩

/-! ## A stopped session or a running one -/

/-- `handle_start` stops the channel only on a failure, and with it. -/
theorem stopCalls_handleStart (r : Registration) (ec : Code) :
    (handleStart c r ec).stopCalls = r.stopCalls ++ if ec.isError then [ec] else [] := by
  unfold handleStart handleRemove
  split_ifs with hec
  · simp
  · -- neither `handle_remove` nor the subscription touches the stop codes
    simp only [List.append_nil]
    split <;> rfl

theorem stopCalls_finish_isError {r : Registration} (hr : ∀ ec ∈ r.stopCalls, ec.isError)
    (ec : Code) : ∀ x ∈ (finish kind c r ec).stopCalls, x.isError := by
  -- The outbound session's `do_unpend` touches only the channel sets.
  have hcalls : (finish kind c r ec).stopCalls = r.stopCalls ++ if ec.isError then [ec] else [] := by
    cases kind <;> exact stopCalls_handleStart _ _
  rw [hcalls]
  split_ifs with herr
  · exact Code.forall_isError_concat hr herr
  · rw [List.append_nil]
    exact hr

/-- Every outcome keeps the session's stop codes failures. -/
theorem stopCalls_step {r : Registration} (hr : ∀ ec ∈ r.stopCalls, ec.isError)
    (e : RegistrationEvent) : ∀ ec ∈ (step kind c r e).stopCalls, ec.isError := by
  cases e with
  | channelStart ec =>
    simp only [step]
    split_ifs
    · exact stopCalls_finish_isError (r := { r with channelStopped := false }) hr ec
    · exact hr
    · exact hr
  | handshake ec peer =>
    simp only [step]
    split_ifs
    · apply stopCalls_finish_isError
      exact hr
    · exact hr
  | channelStop ec =>
    simp only [step]
    split_ifs
    · exact hr
    · exact hr
    · exact hr

/-- **The session's stops.** In every run of the start sequence, the session stops the channel
only with failures. -/
theorem stopCalls_run (sessionStopped : Bool) (n : P2p) (es : List RegistrationEvent) :
    ∀ ec ∈ (run (step kind c) (register kind c sessionStopped n) es).stopCalls, ec.isError := by
  refine run_invariant (step kind c) (I := fun r ↦ ∀ ec ∈ r.stopCalls, ec.isError)
    (fun _ e hr ↦ stopCalls_step hr e) es ?_
  unfold register
  split_ifs with hstop hpend
  · simp
  · cases kind with
    | outbound => exact stopCalls_finish_isError (by simp) _
    | base => simp
    | inbound => simp
  · cases kind <;> simp

end Registration

end Network
