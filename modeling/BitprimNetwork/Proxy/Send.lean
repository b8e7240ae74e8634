import Mathlib.Data.List.TakeWhile
import BitprimNetwork.Async.Sequencer
import BitprimNetwork.Proxy.Stop

/-!
# The write side of a proxy

`proxy::send(message, handler)` serialises the message and locks `do_send` on `dispatch_`: a
socket takes one write at a time, "because write may occur in multiple asynchronous steps invoked
on different threads". `do_send` starts the write, and its completion, `proxy::handle_send`,
unlocks `dispatch_` (so that the next waiting `do_send` starts its write), stops a running proxy
whose write failed, and calls the send's handler with the write's code. `send` does not test
`stopped()`: after a stop the writes still run, fail on the stopped socket, and their handlers
are still called.

## The model

`ProxySend` is the write side: the stop flag, the sequencer `dispatch_` holding the numbers of
the sends waiting, the send whose write is in flight, the number of sends made, and a log of the
stops and handler calls in order. Sends are numbered in the order they are made. The write in
flight completes with any socket error, and `proxy::stop` can come at any time, from the read
cycle, a timer or a protocol. Posting a `do_send` and its starting the write are taken as one
step: no other write can start in between, since the sequencer is held. `boost_to_error_code` is
the parameter `toCode`, and the stop decision of `handle_send` is `Proxy.handleSend`.

## What holds

`Inv` adds the sequencer's `Ledger` to two facts about the log, and every step keeps it. So in
every run the sends whose handler has been called, the one writing and the waiting ones are all
the sends, in order, each once, and a write is in flight exactly while `dispatch_` is held
(`send_ledger`). Completing the writes outstanding, with any codes, calls the handlers of all
the sends still to be handled, in the order the sends were made, each with the code of its own write
(`handlers_of_written`), stopped or not. Before the first stop every handler is called with
success (`handlers_succeed_before_stop`).
-/

namespace Network

open Async

/-- What the write side of a proxy does that others see, in order. -/
inductive SendLog where
  /-- `proxy::stop(ec)`. -/
  | stop (ec : Code)
  /-- The handler of the send numbered `i` is called with `ec`. -/
  | handled (i : ℕ) (ec : Code)
  deriving DecidableEq, Repr

namespace SendLog

/-- The handler call an entry records, if any. -/
def call? : SendLog → Option (ℕ × Code)
  | .stop _ => none
  | .handled i ec => some (i, ec)

/-- Whether an entry is a stop. -/
def isStop : SendLog → Bool
  | .stop _ => true
  | .handled _ _ => false

/-- The handler calls of a log, in order. -/
def calls (log : List SendLog) : List (ℕ × Code) := log.filterMap call?

/-- The entries of a log before its first stop. -/
def beforeStop (log : List SendLog) : List SendLog := log.takeWhile fun e ↦ !e.isStop

@[simp] theorem calls_nil : calls [] = [] := rfl

@[simp] theorem calls_append (log log' : List SendLog) :
    calls (log ++ log') = calls log ++ calls log' :=
  List.filterMap_append

@[simp] theorem calls_cons_stop (ec : Code) (log : List SendLog) :
    calls (.stop ec :: log) = calls log := rfl

@[simp] theorem calls_cons_handled (i : ℕ) (ec : Code) (log : List SendLog) :
    calls (.handled i ec :: log) = (i, ec) :: calls log := rfl

/-- After a stop, nothing appended changes what came before it. -/
theorem beforeStop_append_of_stop {log : List SendLog} {ec : Code} (h : stop ec ∈ log)
    (log' : List SendLog) : beforeStop (log ++ log') = beforeStop log := by
  unfold beforeStop
  rw [List.takeWhile_append, if_neg]
  intro hlen
  -- Were the whole log before its first stop, the stop in it would not be a stop.
  have hall : log.takeWhile (fun e ↦ !e.isStop) = log :=
    (List.takeWhile_prefix _).eq_of_length hlen
  have hmem : stop ec ∈ log.takeWhile (fun e ↦ !e.isStop) := by rw [hall]; exact h
  have hnot := List.mem_takeWhile_imp hmem
  exact Bool.false_ne_true hnot

/-- Before any stop, the whole log is before the first stop. -/
theorem beforeStop_append_of_running {log : List SendLog} (h : ∀ ec, stop ec ∉ log)
    (log' : List SendLog) : beforeStop (log ++ log') = log ++ beforeStop log' := by
  unfold beforeStop
  refine List.takeWhile_append_of_pos fun e he ↦ ?_
  cases e with
  | stop ec => exact absurd he (h ec)
  | handled i ec => rfl

/-- A log with no stop is all before its first stop. -/
theorem beforeStop_eq_self {log : List SendLog} (h : ∀ ec, stop ec ∉ log) :
    beforeStop log = log := by
  have happ := beforeStop_append_of_running h []
  have hnil : beforeStop [] = [] := rfl
  rwa [List.append_nil, hnil, List.append_nil] at happ

/-- A stop appended ends nothing that came before it. -/
theorem beforeStop_append_stop (log : List SendLog) (ec : Code) :
    beforeStop (log ++ [stop ec]) = beforeStop log := by
  by_cases h : ∃ c, stop c ∈ log
  · obtain ⟨c, hc⟩ := h
    exact beforeStop_append_of_stop hc _
  · push Not at h
    have hnil : beforeStop [stop ec] = [] := rfl
    rw [beforeStop_append_of_running h, hnil, List.append_nil, beforeStop_eq_self h]

end SendLog

/-- The write side of a proxy. -/
structure ProxySend where
  /-- `stopped_`. -/
  stopped : Bool
  /-- `dispatch_`: the `do_send` calls waiting for the socket, by the number of their send. -/
  dispatch : Sequencer ℕ
  /-- The send whose `do_send` has been posted and whose write has not completed. -/
  writing : Option ℕ
  /-- The number of sends made. -/
  sent : ℕ
  /-- The stops and the handler calls, in order. -/
  log : List SendLog

/-- What happens to the write side of a proxy. -/
inductive SendEvent where
  /-- A protocol calls `proxy::send`. -/
  | send
  /-- The write in flight completes with the socket error `ec` (zero for success). -/
  | written (ec : ℕ)
  /-- `proxy::stop(ec)`, from the read cycle, a timer or a protocol. -/
  | stop (ec : Code)
  deriving DecidableEq, Repr

namespace ProxySend

variable (toCode : ℕ → Code)

/-- A started proxy before its first send. -/
def start : ProxySend := ⟨false, Sequencer.idle, none, 0, []⟩

/-- `proxy::stop(ec)`. -/
def stop (p : ProxySend) (ec : Code) : ProxySend :=
  { p with stopped := true, log := p.log ++ [.stop ec] }

/-- `proxy::send`: `do_send` for the next send is locked on `dispatch_`; if it is posted now, its
write starts. -/
def send (p : ProxySend) : ProxySend :=
  let r := p.dispatch.lock p.sent
  { p with dispatch := r.1, writing := r.2.or p.writing, sent := p.sent + 1 }

/-- `proxy::handle_send` for the send numbered `i`: `dispatch_` is unlocked, and the `do_send` it
posts starts its write; a running proxy whose write failed stops with the code; then the send's
handler is called with it. -/
def handleSend (p : ProxySend) (i ec : ℕ) : ProxySend :=
  let r := p.dispatch.unlock
  let q := { p with dispatch := r.1, writing := r.2 }
  let q := match Proxy.handleSend toCode p.stopped ec with
    | some error => q.stop error
    | none => q
  { q with log := q.log ++ [.handled i (toCode ec)] }

/-- One event; a write completes only while one is in flight. -/
def step (p : ProxySend) : SendEvent → ProxySend
  | .send => p.send
  | .written ec =>
    match p.writing with
    | some i => p.handleSend toCode i ec
    | none => p
  | .stop ec => p.stop ec

/-- The sends whose handler is still to be called: the one writing, then the waiting ones. -/
def outstanding (p : ProxySend) : List ℕ := p.writing.toList ++ p.dispatch.queue

/-! ## What each step does -/

variable {toCode}

/-- `handle_send` decides a stop only on a running proxy, and with the write's code. -/
theorem handleSend_stop_iff {stopped : Bool} {ec : ℕ} {x : Code} :
    Proxy.handleSend toCode stopped ec = some x ↔
      stopped = false ∧ (toCode ec).isError = true ∧ x = toCode ec := by
  unfold Proxy.handleSend
  dsimp only
  cases stopped with
  | true => simp
  | false =>
    by_cases he : (toCode ec).isError = true
    · simp [he, eq_comm]
    · simp [he]

@[simp] theorem handleSend_dispatch (p : ProxySend) (i ec : ℕ) :
    (p.handleSend toCode i ec).dispatch = p.dispatch.unlock.1 := by
  unfold handleSend
  split <;> rfl

@[simp] theorem handleSend_writing (p : ProxySend) (i ec : ℕ) :
    (p.handleSend toCode i ec).writing = p.dispatch.unlock.2 := by
  unfold handleSend
  split <;> rfl

@[simp] theorem handleSend_sent (p : ProxySend) (i ec : ℕ) :
    (p.handleSend toCode i ec).sent = p.sent := by
  unfold handleSend
  split <;> rfl

/-- On a running proxy whose write failed, `handle_send` logs the stop and then the handler
call; otherwise the handler call alone. -/
theorem handleSend_log (p : ProxySend) (i ec : ℕ) :
    (p.handleSend toCode i ec).log = p.log ++
      (if p.stopped = false ∧ (toCode ec).isError = true then [.stop (toCode ec)] else []) ++
        [.handled i (toCode ec)] := by
  unfold handleSend
  split
  · next error h =>
    obtain ⟨hs, he, rfl⟩ := handleSend_stop_iff.1 h
    rw [if_pos ⟨hs, he⟩]
    rfl
  · next h =>
    have hnot : ¬(p.stopped = false ∧ (toCode ec).isError = true) := fun hc ↦ by
      rw [handleSend_stop_iff.2 ⟨hc.1, hc.2, rfl⟩] at h
      cases h
    rw [if_neg hnot, List.append_nil]

theorem handleSend_stopped (p : ProxySend) (i ec : ℕ) :
    (p.handleSend toCode i ec).stopped = (p.stopped || (toCode ec).isError) := by
  unfold handleSend
  split
  · next error h =>
    obtain ⟨hs, he, rfl⟩ := handleSend_stop_iff.1 h
    rw [hs, he]
    rfl
  · next h =>
    cases hs : p.stopped
    · -- A running proxy that does not stop had a write that succeeded.
      cases he : (toCode ec).isError
      · rfl
      · rw [handleSend_stop_iff.2 ⟨hs, he, rfl⟩] at h
        cases h
    · rfl

/-- `handle_send` makes one handler call, for its send, with its write's code. -/
theorem calls_handleSend (p : ProxySend) (i ec : ℕ) :
    SendLog.calls (p.handleSend toCode i ec).log = SendLog.calls p.log ++ [(i, toCode ec)] := by
  rw [handleSend_log]
  split_ifs <;> simp

/-! ## The invariant -/

/-- What every run from `start` keeps. -/
structure Inv (p : ProxySend) : Prop where
  /-- The sends whose handler was called, the one writing and the waiting ones are all the
  sends, in order, each once; a write is in flight exactly while `dispatch_` is held. -/
  ledger : p.dispatch.Ledger (List.range p.sent) ((SendLog.calls p.log).map Prod.fst) p.writing
  /-- The proxy is stopped exactly once `proxy::stop` has been called. -/
  stopped : p.stopped = true ↔ ∃ ec, SendLog.stop ec ∈ p.log
  /-- Before the first stop, every handler is called with success. -/
  succeeds : ∀ i ec, SendLog.handled i ec ∈ SendLog.beforeStop p.log → ec.isError = false

theorem Inv.no_stop {p : ProxySend} (hp : Inv p) (hs : p.stopped = false) :
    ∀ ec, SendLog.stop ec ∉ p.log := fun ec hec ↦ by
  rw [hp.stopped.2 ⟨ec, hec⟩] at hs
  cases hs

theorem inv_start : Inv (start : ProxySend) where
  ledger := Sequencer.ledger_idle
  stopped := by simp [start]
  succeeds _ _ h := absurd h List.not_mem_nil

theorem Inv.stop {p : ProxySend} (hp : Inv p) (ec : Code) : Inv (p.stop ec) where
  ledger := by
    have hcalls : SendLog.calls (p.log ++ [.stop ec]) = SendLog.calls p.log := by simp
    show p.dispatch.Ledger _ ((SendLog.calls (p.log ++ [.stop ec])).map Prod.fst) _
    rw [hcalls]
    exact hp.ledger
  stopped := ⟨fun _ ↦ ⟨ec, List.mem_append_right _ List.mem_cons_self⟩, fun _ ↦ rfl⟩
  succeeds i c h := by
    have h' : SendLog.handled i c ∈ SendLog.beforeStop p.log := by
      rw [← SendLog.beforeStop_append_stop p.log ec]
      exact h
    exact hp.succeeds i c h'

/-- A send locks `do_send` on `dispatch_` and is counted last. -/
theorem Inv.send {p : ProxySend} (hp : Inv p) : Inv p.send where
  ledger := by
    have h := hp.ledger.lock p.sent
    rw [← List.range_succ] at h
    exact h
  stopped := hp.stopped
  succeeds := hp.succeeds

/-- The write in flight completes: its send is handled, and the next waiting one writes. -/
theorem Inv.handleSend {p : ProxySend} (hp : Inv p) {i : ℕ} (hi : p.writing = some i) (ec : ℕ) :
    Inv (p.handleSend toCode i ec) where
  ledger := by
    have h := (hi ▸ hp.ledger).unlock
    rw [handleSend_dispatch, handleSend_writing, handleSend_sent, calls_handleSend,
      List.map_append]
    exact h
  stopped := by
    rw [handleSend_stopped, handleSend_log]
    cases hs : p.stopped
    · by_cases he : (toCode ec).isError = true
      · -- The write failed: the proxy stops, and the stop is logged.
        rw [if_pos ⟨rfl, he⟩, he]
        exact ⟨fun _ ↦ ⟨toCode ec, by simp⟩, fun _ ↦ rfl⟩
      · rw [if_neg fun hc ↦ he hc.2, Bool.eq_false_iff.2 he]
        simp [hp.no_stop hs]
    · obtain ⟨c, hc⟩ := hp.stopped.1 hs
      exact ⟨fun _ ↦ ⟨c, by simp [hc]⟩, fun _ ↦ rfl⟩
  succeeds j c h := by
    rw [handleSend_log, List.append_assoc] at h
    cases hs : p.stopped
    · -- Nothing stopped yet: the handler call is before the first stop unless the write failed.
      rw [SendLog.beforeStop_append_of_running (hp.no_stop hs)] at h
      rcases List.mem_append.1 h with h | h
      · exact hp.succeeds j c (by rwa [SendLog.beforeStop_eq_self (hp.no_stop hs)])
      · by_cases he : (toCode ec).isError = true
        · rw [if_pos ⟨hs, he⟩] at h
          exact absurd h List.not_mem_nil
        · rw [if_neg fun hc ↦ he hc.2, List.nil_append] at h
          have hc : c = toCode ec := (SendLog.handled.inj (List.mem_singleton.1 h)).2
          rw [hc]
          exact Bool.eq_false_iff.2 he
    · obtain ⟨c', hc'⟩ := hp.stopped.1 hs
      rw [SendLog.beforeStop_append_of_stop hc'] at h
      exact hp.succeeds j c h

theorem inv_step {p : ProxySend} (hp : Inv p) (e : SendEvent) : Inv (step toCode p e) := by
  cases e with
  | send => exact hp.send
  | written ec =>
    cases hw : p.writing with
    | none =>
      show Inv (match p.writing with | some i => p.handleSend toCode i ec | none => p)
      rw [hw]
      exact hp
    | some i =>
      show Inv (match p.writing with | some i => p.handleSend toCode i ec | none => p)
      rw [hw]
      exact hp.handleSend hw ec
  | stop ec => exact hp.stop ec

theorem inv_run (es : List SendEvent) : Inv (run (step toCode) start es) :=
  run_invariant (step toCode) (I := Inv) (fun _ e hp ↦ inv_step hp e) es inv_start

/-! ## The writes outstanding -/

theorem step_written_of_writing {p : ProxySend} {i : ℕ} (hi : p.writing = some i) (ec : ℕ) :
    step toCode p (.written ec) = p.handleSend toCode i ec := by
  simp only [step, hi]

theorem step_written_of_idle {p : ProxySend} (hi : p.writing = none) (ec : ℕ) :
    step toCode p (.written ec) = p := by
  simp only [step, hi]

/-- With no write in flight, nothing is outstanding: `dispatch_` is free and nothing waits. -/
theorem Inv.outstanding_of_idle {p : ProxySend} (hp : Inv p) (hi : p.writing = none) :
    p.outstanding = [] := by
  have hfree : p.dispatch.executing = false := by
    rw [← hp.ledger.held, hi]
    rfl
  rw [outstanding, hi, Sequencer.queue_eq_nil_of_not_executing hfree]
  rfl

/-- The write in flight completes, and the oldest waiting send writes next. -/
theorem outstanding_handleSend (p : ProxySend) (i ec : ℕ) :
    (p.handleSend toCode i ec).outstanding = p.dispatch.queue := by
  rw [outstanding, handleSend_writing, handleSend_dispatch, Sequencer.unlock_toList_append]

/-- Completing writes with the socket errors `cs` calls the handlers of the outstanding sends, in
order, each with its own write's code. The induction is on the completions; a completion with
nothing in flight does not come. -/
theorem calls_run_written {p : ProxySend} (hp : Inv p) (cs : List ℕ) :
    SendLog.calls (run (step toCode) p (cs.map .written)).log =
      SendLog.calls p.log ++ p.outstanding.zip (cs.map toCode) := by
  induction cs generalizing p with
  | nil => simp
  | cons c cs ih =>
    rw [List.map_cons, run_cons]
    cases hw : p.writing with
    | none =>
      rw [step_written_of_idle hw, ih hp, hp.outstanding_of_idle hw]
      rfl
    | some i =>
      rw [step_written_of_writing hw, ih (hp.handleSend hw c), calls_handleSend,
        outstanding_handleSend, outstanding, hw]
      simp

/-! ## The write side in every run -/

/-- **Sends are written one at a time, in order.** In every run, the sends whose handler has been
called, then the one whose write is in flight, then those waiting on `dispatch_`, are all the
sends made, in the order they were made, each once; and a write is in flight exactly while
`dispatch_` is held. -/
theorem send_ledger (es : List SendEvent) :
    (SendLog.calls (run (step toCode) start es).log).map Prod.fst ++
        (run (step toCode) start es).outstanding = List.range (run (step toCode) start es).sent ∧
      (run (step toCode) start es).writing.isSome =
        (run (step toCode) start es).dispatch.executing := by
  have hinv : Inv (run (step toCode) start es) := inv_run es
  refine ⟨?_, hinv.ledger.held⟩
  rw [outstanding, ← List.append_assoc]
  exact hinv.ledger.order

/-- **Every send's handler is called, in order, with its write's code.** From any point of any
run, whether the proxy has stopped or not, completing the writes with the socket errors `cs` calls
the handlers of the sends outstanding, in the order the sends were made, each with the converted
code of its own write. -/
theorem handlers_of_written (es : List SendEvent) (cs : List ℕ) :
    SendLog.calls (run (step toCode) start (es ++ cs.map .written)).log =
      SendLog.calls (run (step toCode) start es).log ++
        (run (step toCode) start es).outstanding.zip (cs.map toCode) := by
  rw [run_append]
  exact calls_run_written (inv_run es) cs

/-- **No failure before a stop.** In every run, every handler called before the first
`proxy::stop` receives success: a write that fails on a running proxy stops it before its
handler is called. -/
theorem handlers_succeed_before_stop (es : List SendEvent) :
    ∀ i ec, SendLog.handled i ec ∈ SendLog.beforeStop (run (step toCode) start es).log →
      ec.isError = false :=
  (inv_run es).succeeds

/-- Two sends on a running proxy whose first write succeeds: the first handler is called with
success before any stop. -/
theorem handlers_succeed_before_stop_two_sends :
    SendLog.handled 0 .success ∈ SendLog.beforeStop
        (run (step fun ec ↦ if ec = 0 then Code.success else Code.other ec) start
          [.send, .send, .written 0]).log ∧
      Code.success.isError = false := by
  have hmem : SendLog.handled 0 .success ∈ SendLog.beforeStop
      (run (step fun ec ↦ if ec = 0 then Code.success else Code.other ec) start
        [.send, .send, .written 0]).log := by decide
  exact ⟨hmem, handlers_succeed_before_stop _ 0 .success hmem⟩

end ProxySend

end Network
