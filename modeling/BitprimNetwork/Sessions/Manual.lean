import Mathlib.Data.Nat.Basic
import BitprimNetwork.Sessions.Registration

/-!
# Manual connections

`session_manual::connect(hostname, port, handler)` connects to one endpoint and reports to the
caller how the connection went. Each attempt asks a connector for a channel. A failure is
retried after a delay, `manual_attempt_limit` attempts in all (or without end when the limit is
zero), and the last failure goes to the handler. A connected channel is registered with two
handlers: `handle_channel_start`, which passes success on to the caller, and
`handle_channel_stop`, which connects again with a handler that ignores its result, unless the
channel was refused as already connected.

`Manual` follows one call of `connect` and the reconnections it spawns. At any time one thing is
pending: a connector attempt, a delayed retry, or a registered channel. Each carries the handler
it will call: the caller's, or the `unhandled` one of a reconnection. The registered channel's
start sequence is the one of `Registration`, for a session that overrides none of its steps.

The caller's handler is called at most once (`handled_length_le_one`): a measure, the calls
made plus those still owed, never grows. A limit `L ≥ 1` gives exactly `L` attempts before the
last failure reaches it (`run_start_failures`), and a limit of zero retries without end
(`run_failures`). But `handle_channel_start` drops the caller's handler on a failure, although
its comment promises to keep it. A channel that connects and then fails its handshake or its
registration never reaches the caller (`handled_channelHandshake`): the connection goes on with
`unhandled`, or, when `p2p` already holds a channel to the same endpoint, ends with nothing
pending (`manual_failed_channel_drops_handler`).
-/

namespace Network

open Async

/-- What a manual connection waits for, with the handler it will call: the caller's (`true`),
or the `unhandled` one of a reconnection (`false`). -/
inductive ManualStage where
  /-- `connector->connect` is in flight; `remaining` is the count `handle_connect` receives. -/
  | connecting (remaining : ℕ) (caller : Bool)
  /-- `dispatch_delayed` has queued `start_connect` with `attempts`. -/
  | delayed (attempts : ℕ) (caller : Bool)
  /-- The channel `c` is registered, and its start sequence is `r`. -/
  | registered (c : Channel) (r : Registration) (caller : Bool)
  /-- Nothing is pending. -/
  | ended
  deriving DecidableEq

/-- One manual connection. -/
structure Manual where
  /-- The session's `stopped_`. -/
  stopped : Bool
  /-- The channel collections of `p2p`. -/
  network : P2p
  /-- What the connection waits for. -/
  stage : ManualStage
  /-- The codes the caller's handler received. -/
  handled : List Code

/-- What happens to a manual connection. -/
inductive ManualEvent where
  /-- The connector calls back with `ec`, and on success with the channel `c`. -/
  | connected (ec : Code) (c : Channel)
  /-- The delayed `start_connect` runs. -/
  | retry
  /-- The registered channel starts, ends its handshake or stops. -/
  | channel (e : RegistrationEvent)
  /-- The network stops the session. -/
  | stop

namespace Manual

variable (L : ℕ)

/-- A pending step calls its handler with `ec`; only the caller's handler is recorded. -/
def notify (m : Manual) (caller : Bool) (ec : Code) : Manual :=
  if caller then { m with handled := m.handled ++ [ec] } else m

/-- `session_manual::start_connect(attempts, handler)`. -/
def startConnect (m : Manual) (attempts : ℕ) (caller : Bool) : Manual :=
  if m.stopped then { notify m caller .serviceStopped with stage := .ended }
  -- `floor_subtract(attempts, 1)`.
  else { m with stage := .connecting (attempts - 1) caller }

/-- `session_manual::connect(hostname, port, handler)`: with the caller's handler, or with
`unhandled` when `handle_channel_stop` connects again. -/
def connect (m : Manual) (caller : Bool) : Manual := startConnect m L caller

/-- `session_manual::handle_channel_stop(ec)`: connect again with `unhandled`, unless the
channel was refused as already connected. -/
def handleChannelStop (m : Manual) (ec : Code) : Manual :=
  if ec = .addressInUse then { m with stage := .ended } else connect L m false

/-- `session_manual::handle_channel_start(ec, handler)`: a failure returns, and only success
reaches the handler. -/
def handleChannelStart (m : Manual) (caller : Bool) (ec : Code) : Manual :=
  if ec.isError then m else notify m caller ec

/-- The stop handler, if the start sequence called it in going from `r` to `r'`. -/
def afterStop (m : Manual) (r r' : Registration) : Manual :=
  match r'.stopped.drop r.stopped.length with
  | ec :: _ => handleChannelStop L m ec
  | [] => m

/-- The start handler, if the start sequence called it in going from `r` to `r'`. -/
def afterStart (m : Manual) (r r' : Registration) (caller : Bool) : Manual :=
  match r'.started.drop r.started.length with
  | ec :: _ => handleChannelStart m caller ec
  | [] => m

/-- The start sequence of `c` went from `r` to `r'`, and the handlers it called in between run;
the code calls the stop handler first wherever it calls both. -/
def registrationDone (m : Manual) (c : Channel) (r r' : Registration) (caller : Bool) :
    Manual :=
  afterStart (afterStop L { m with network := r'.network, stage := .registered c r' caller } r r')
    r r' caller

/-- `session_manual::handle_connect(ec, channel, remaining, handler)`. -/
def handleConnect (m : Manual) (remaining : ℕ) (caller : Bool) (ec : Code) (c : Channel) :
    Manual :=
  if ec.isError then
    -- Retry forever if the limit is zero.
    let remaining := if L = 0 then 1 else remaining
    if 0 < remaining then { m with stage := .delayed remaining caller }
    else { notify m caller ec with stage := .ended }
  else
    registrationDone L m c (Registration.unregistered m.network)
      (Registration.register .base c m.stopped m.network) caller

/-- One event. What the connection does not wait for does not come. -/
def step (m : Manual) : ManualEvent → Manual
  | .connected ec c =>
    match m.stage with
    | .connecting remaining caller => handleConnect L m remaining caller ec c
    | _ => m
  | .retry =>
    match m.stage with
    | .delayed attempts caller => startConnect m attempts caller
    | _ => m
  | .channel e =>
    match m.stage with
    | .registered c r caller => registrationDone L m c r (r.step .base c e) caller
    | _ => m
  | .stop => { m with stopped := true }

/-- The caller calls `connect` on a running session, with `p2p`'s collections `n`. -/
def start (n : P2p) : Manual := connect L ⟨false, n, .ended, []⟩ true

/-! ## The caller's handler is called at most once -/

/-- The calls of the caller's handler that what is pending may still make. -/
def owed : ManualStage → ℕ
  | .connecting _ caller | .delayed _ caller => if caller then 1 else 0
  | .registered _ r caller => if caller ∧ r.stage ≠ .ended then 1 else 0
  | .ended => 0

variable {L}

@[simp] theorem notify_stage (m : Manual) (caller : Bool) (ec : Code) :
    (notify m caller ec).stage = m.stage := by
  unfold notify
  split_ifs <;> rfl

@[simp] theorem notify_stopped (m : Manual) (caller : Bool) (ec : Code) :
    (notify m caller ec).stopped = m.stopped := by
  unfold notify
  split_ifs <;> rfl

theorem length_notify (m : Manual) (caller : Bool) (ec : Code) :
    (notify m caller ec).handled.length = m.handled.length + if caller then 1 else 0 := by
  unfold notify
  split_ifs <;> simp

/-- A reconnection records nothing and owes the caller nothing. -/
theorem connect_unhandled (m : Manual) :
    (connect L m false).handled = m.handled ∧ owed (connect L m false).stage = 0 := by
  unfold connect startConnect
  split_ifs <;> simp [notify, owed]

theorem afterStop_handled (m : Manual) (r r' : Registration) :
    (afterStop L m r r').handled = m.handled := by
  unfold afterStop
  split
  · unfold handleChannelStop
    split_ifs
    · rfl
    · exact (connect_unhandled m).1
  · rfl

theorem owed_afterStop (m : Manual) (r r' : Registration) :
    owed (afterStop L m r r').stage ≤ owed m.stage := by
  unfold afterStop
  split
  · unfold handleChannelStop
    split_ifs
    · exact Nat.zero_le _
    · rw [(connect_unhandled m).2]
      exact Nat.zero_le _
  · exact Nat.le_refl _

@[simp] theorem afterStart_stage (m : Manual) (r r' : Registration) (caller : Bool) :
    (afterStart m r r' caller).stage = m.stage := by
  unfold afterStart handleChannelStart
  split
  · split_ifs <;> simp
  · rfl

/-- The start handler calls the caller's handler at most once, and not at all if the start
sequence did not call it. -/
theorem length_afterStart (m : Manual) (r r' : Registration) (caller : Bool) :
    (afterStart m r r' caller).handled.length ≤ m.handled.length + if caller then 1 else 0 := by
  unfold afterStart handleChannelStart
  split
  · next ec _ _ =>
    by_cases herr : ec.isError
    · rw [if_pos herr]
      exact Nat.le_add_right _ _
    · rw [if_neg herr, length_notify]
  · exact Nat.le_add_right _ _

theorem afterStart_of_started_eq {r r' : Registration} (h : r'.started = r.started)
    (m : Manual) (caller : Bool) : afterStart m r r' caller = m := by
  rw [afterStart, h, List.drop_length]

/-- The caller's calls made, and those that what is pending may still make. -/
def weight (m : Manual) : ℕ := m.handled.length + owed m.stage

/-- What the registration's handlers leave: the caller's handler is owed at most what it was,
given that the start sequence calls `handle_started` once and then has ended. -/
theorem weight_registrationDone {m : Manual} {c : Channel} {r r' : Registration}
    {caller : Bool}
    (hr : (r'.started = r.started ∧ (r'.stage = .ended ↔ r.stage = .ended)) ∨
      (r.stage ≠ .ended ∧ r'.stage = .ended ∧ ∃ ec, r'.started = r.started ++ [ec])) :
    weight (registrationDone L m c r r' caller) ≤
      m.handled.length + if caller ∧ r.stage ≠ .ended then 1 else 0 := by
  unfold registrationDone weight
  set m₁ : Manual := { m with network := r'.network, stage := .registered c r' caller } with hm₁
  have hhandled : (afterStop L m₁ r r').handled = m.handled := afterStop_handled m₁ r r'
  have hstop := owed_afterStop (L := L) m₁ r r'
  rw [afterStart_stage]
  rcases hr with ⟨hs, hend⟩ | ⟨hne, hend, ec, hs⟩
  · -- No new call of `handle_started`; the registration owes no more than before.
    rw [afterStart_of_started_eq hs, hhandled]
    have howed : owed m₁.stage ≤ if caller ∧ r.stage ≠ .ended then 1 else 0 := by
      by_cases hr : r.stage = .ended
      · simp [hm₁, owed, hr, hend.2 hr]
      · simp only [hm₁, owed]
        split_ifs <;> simp_all
    omega
  · -- `handle_started` was called: the registration has ended and owes nothing more.
    have howed : owed m₁.stage = 0 := by simp [hm₁, owed, hend]
    have hlen := length_afterStart (afterStop L m₁ r r') r r' caller
    rw [hhandled] at hlen
    simp only [hne, ne_eq, not_false_eq_true, and_true]
    omega

/-- **One step.** No event lets the caller's handler be called more often than what was
pending owed it. -/
theorem weight_step (m : Manual) (e : ManualEvent) : weight (step L m e) ≤ weight m := by
  cases e with
  | connected ec c =>
    simp only [step]
    split
    · next remaining caller hstage =>
      unfold weight handleConnect
      rw [hstage]
      by_cases herr : ec.isError
      · -- A failure is retried, or reaches the handler once no attempt remains.
        rw [if_pos herr]
        dsimp only
        generalize (if L = 0 then 1 else remaining) = k
        split_ifs
        · simp [owed]
        · rw [length_notify]
          simp [owed]
      · -- The channel is registered; `register_channel` calls no handler with success.
        rw [if_neg herr]
        refine le_trans (weight_registrationDone ?_) (by simp [Registration.unregistered, owed])
        rcases Registration.register_started .base c m.stopped m.network with
          ⟨h0, hst⟩ | ⟨hend, ec', hs⟩
        · refine .inl ⟨h0, ⟨fun h ↦ absurd (hst.symm.trans h) nofun, fun h ↦ ?_⟩⟩
          exact absurd h (by simp [Registration.unregistered])
        · exact .inr ⟨by simp [Registration.unregistered], hend, ec', hs⟩
    · exact Nat.le_refl _
  | retry =>
    simp only [step]
    split
    · next attempts caller hstage =>
      unfold weight startConnect
      rw [hstage]
      split_ifs
      · rw [length_notify]
        simp [owed]
      · simp [owed]
    · exact Nat.le_refl _
  | channel e =>
    simp only [step]
    split
    · next c r caller hstage =>
      rw [weight, weight, hstage]
      exact weight_registrationDone (Registration.step_started .base c r e)
    · exact Nat.le_refl _
  | stop => exact Nat.le_refl _

theorem weight_run (m : Manual) (es : List ManualEvent) : weight (run (step L) m es) ≤ weight m :=
  run_le_of_step_le (step L) weight weight_step m es

/-- **At most once.** In every run, the caller's handler has been called at most once. -/
theorem handled_length_le_one (n : P2p) (es : List ManualEvent) :
    (run (step L) (start L n) es).handled.length ≤ 1 := by
  have hrun := weight_run (L := L) (start L n) es
  have hstart : weight (start L n) = 1 := by simp [weight, start, connect, startConnect, owed]
  rw [weight] at hrun
  omega

/-! ## Attempts -/

/-- Failed attempts with the errors `errs`, each retried after its delay. -/
def failures (errs : List Code) (c : Channel) : List ManualEvent :=
  errs.flatMap fun ec ↦ [.connected ec c, .retry]

/-- A failed attempt and its retry. -/
theorem step_failure_retry {m : Manual} (hs : m.stopped = false) {k : ℕ} {caller : Bool}
    (hk : m.stage = .connecting k caller) {ec : Code} (hec : ec.isError) (c : Channel)
    (hpos : 0 < if L = 0 then 1 else k) :
    step L (step L m (.connected ec c)) .retry =
      { m with stage := .connecting ((if L = 0 then 1 else k) - 1) caller } := by
  simp [step, hk, handleConnect, hec, hpos, startConnect, hs]

theorem run_failures {m : Manual} (hs : m.stopped = false) {k : ℕ} {caller : Bool}
    (hk : m.stage = .connecting k caller) (hk0 : L = 0 → k = 0) {errs : List Code}
    (herr : ∀ ec ∈ errs, ec.isError) (hlen : L = 0 ∨ errs.length ≤ k) (c : Channel) :
    run (step L) m (failures errs c) =
      { m with stage := .connecting (if L = 0 then 0 else k - errs.length) caller } := by
  induction errs generalizing m k with
  | nil =>
    have hcount : (if L = 0 then 0 else k - ([] : List Code).length) = k := by
      split_ifs with hL
      · exact (hk0 hL).symm
      · rfl
    rw [hcount, ← hk]
    rfl
  | cons ec errs ih =>
    have hpos : 0 < if L = 0 then 1 else k := by
      split_ifs with hL
      · exact Nat.one_pos
      · simp only [List.length_cons, hL, false_or] at hlen
        omega
    -- One failure and its retry take one from the remaining count, and none with limit zero.
    have hround := step_failure_retry hs hk (herr ec (by simp)) c hpos
    set m' : Manual := { m with stage := .connecting ((if L = 0 then 1 else k) - 1) caller }
    have hlen' : L = 0 ∨ errs.length ≤ (if L = 0 then 1 else k) - 1 := by
      by_cases hL : L = 0
      · exact .inl hL
      · simp only [hL, false_or, if_false, List.length_cons] at hlen ⊢
        omega
    have hcount : (if L = 0 then 0 else ((if L = 0 then 1 else k) - 1) - errs.length) =
        if L = 0 then 0 else k - (ec :: errs).length := by
      by_cases hL : L = 0
      · simp [hL]
      · simp only [hL, if_false, List.length_cons]
        omega
    simp only [failures, List.flatMap_cons, List.cons_append, List.nil_append, run_cons] at ih ⊢
    rw [hround, ih (m := m') hs rfl (fun hL ↦ by simp [hL]) (fun ec' h ↦ herr ec' (by simp [h]))
      hlen', hcount]

/-- **Exactly `L` attempts.** With a limit `L ≥ 1`, the `L`-th failed attempt in a row reaches
the caller's handler with its error, and nothing is pending any more. -/
theorem run_start_failures (hL : L ≠ 0) (n : P2p) {errs : List Code}
    (herr : ∀ ec ∈ errs, ec.isError) (hlen : errs.length + 1 = L) {ec : Code}
    (hec : ec.isError) (c : Channel) :
    run (step L) (start L n) (failures errs c ++ [.connected ec c]) = ⟨false, n, .ended, [ec]⟩ := by
  have hfail := run_failures (L := L) (m := start L n) rfl rfl (fun h ↦ absurd h hL) herr
    (.inr (by omega)) c
  rw [run_concat, hfail, if_neg hL]
  -- The last attempt finds no attempt remaining.
  have hlast : L - 1 - errs.length = 0 := by omega
  simp [step, handleConnect, hec, hL, hlast, start, connect, startConnect, notify]

theorem run_start_failures_resolve :
    (2 : ℕ) ≠ 0 ∧ (∀ ec ∈ [Code.channelTimeout], ec.isError) ∧
      [Code.channelTimeout].length + 1 = 2 ∧ Code.resolveFailed.isError ∧
      run (step 2) (start 2 ⟨⟨false, []⟩, ⟨false, []⟩⟩)
          (failures [.channelTimeout] ⟨2, 0x1234, ⟨0x7f000001, 8333⟩⟩ ++ [.connected .resolveFailed ⟨2, 0x1234, ⟨0x7f000001, 8333⟩⟩]) =
        ⟨false, ⟨⟨false, []⟩, ⟨false, []⟩⟩, .ended, [.resolveFailed]⟩ := by
  have hL : (2 : ℕ) ≠ 0 := by decide
  have herr : ∀ ec ∈ [Code.channelTimeout], ec.isError := by decide
  have hlen : [Code.channelTimeout].length + 1 = 2 := rfl
  have hec : Code.resolveFailed.isError := rfl
  exact ⟨hL, herr, hlen, hec, run_start_failures hL _ herr hlen hec _⟩

/-! ## A channel that fails to start -/

/-- The connector succeeds with `c`, the channel starts, and its handshake ends with `ec`. -/
def channelHandshake (c : Channel) (ec : Code) (peer : Option VersionMessage) :
    List ManualEvent :=
  [.connected .success c, .channel (.channelStart .success), .channel (.handshake ec peer)]

/-- The start sequence of a registered channel that has started, waiting for its handshake. -/
theorem step_start_channelStart (n : P2p) (c : Channel) :
    step L (step L (start L n) (.connected .success c)) (.channel (.channelStart .success)) =
      ⟨false, n, .registered c ⟨.handshaking, n, false, false, [], [], []⟩ true, []⟩ := rfl

/-- A handshake whose end fails the start sequence: `handle_start` calls the stop handler and
then the start handler with the failure, and only the stop handler does anything. -/
theorem run_channelHandshake (n : P2p) (c : Channel) {ec : Code} (peer : Option VersionMessage)
    (hfail : (handleHandshake (handshakeComplete c) n ec).1.isError) :
    run (step L) (start L n) (channelHandshake c ec peer) =
      handleChannelStop L ⟨false, (handleHandshake (handshakeComplete c) n ec).2,
        .registered c ⟨.ended, (handleHandshake (handshakeComplete c) n ec).2, true, false,
          [(handleHandshake (handshakeComplete c) n ec).1],
          [(handleHandshake (handshakeComplete c) n ec).1],
          [(handleHandshake (handshakeComplete c) n ec).1]⟩ true, []⟩
        (handleHandshake (handshakeComplete c) n ec).1 := by
  simp only [channelHandshake, run_cons, run_nil, step_start_channelStart]
  have hstart : Registration.step .base c ⟨.handshaking, n, false, false, [], [], []⟩
      (.handshake ec peer) = ⟨.ended, (handleHandshake (handshakeComplete c) n ec).2, true, false,
        [(handleHandshake (handshakeComplete c) n ec).1],
        [(handleHandshake (handshakeComplete c) n ec).1],
        [(handleHandshake (handshakeComplete c) n ec).1]⟩ := by
    simp only [Registration.step, if_true, Registration.finish]
    exact Registration.handleStart_of_error hfail
  simp only [step, registrationDone, hstart, afterStart, afterStop, List.length_nil,
    List.drop_zero, handleChannelStart, hfail, if_true]

/-- **Dropped handler.** After a handshake whose end fails the start sequence, the caller's
handler is never called, whatever happens next: the stop handler ends the connection or
connects again with `unhandled`, and the start handler ignores the failure. -/
theorem handled_channelHandshake (n : P2p) (c : Channel) {ec : Code}
    (peer : Option VersionMessage) (hfail : (handleHandshake (handshakeComplete c) n ec).1.isError)
    (es : List ManualEvent) :
    (run (step L) (start L n) (channelHandshake c ec peer ++ es)).handled = [] := by
  have hzero : weight (run (step L) (start L n) (channelHandshake c ec peer)) = 0 := by
    rw [run_channelHandshake n c peer hfail]
    unfold handleChannelStop
    split_ifs
    · rfl
    · simp [weight, connect_unhandled]
  have hrun := weight_run (L := L) (run (step L) (start L n) (channelHandshake c ec peer)) es
  rw [← run_append, hzero, weight] at hrun
  exact List.eq_nil_of_length_eq_zero (by omega)

/-- `p2p` holds an open channel to 127.0.0.1:8333. -/
def alreadyConnected : P2p := ⟨⟨false, []⟩, ⟨false, [⟨1, 0x99, ⟨0x7f000001, 8333⟩⟩]⟩⟩

/-- A manual channel to the same endpoint. -/
def manualChannel : Channel := ⟨2, 0x1234, ⟨0x7f000001, 8333⟩⟩

/-- A manual connection to an endpoint `p2p` is already connected to: the channel connects,
starts and completes its handshake, `store` refuses it with `address_in_use`, and the connect
sequence ends without calling the caller's handler, whatever the limit and whatever follows. -/
theorem manual_failed_channel_drops_handler (L : ℕ) :
    (run (step L) (start L alreadyConnected) (channelHandshake manualChannel .success none)).stage =
        .ended ∧
      ∀ es, (run (step L) (start L alreadyConnected)
        (channelHandshake manualChannel .success none ++ es)).handled = [] := by
  have hrefused :
      (handleHandshake (handshakeComplete manualChannel) alreadyConnected .success).1 =
        .addressInUse := by decide
  have hfail :
      (handleHandshake (handshakeComplete manualChannel) alreadyConnected .success).1.isError := by
    rw [hrefused]
    rfl
  refine ⟨?_, handled_channelHandshake alreadyConnected manualChannel none hfail⟩
  rw [run_channelHandshake alreadyConnected manualChannel none hfail, handleChannelStop,
    if_pos hrefused]

end Manual

end Network
