import Mathlib.Data.List.Perm.Basic
import BitprimNetwork.Sessions.Session

/-!
# Batch connects

`session_batch::connect(handler)` races `batch_size_ = max(connect_batch_size, 1)` connection
attempts and reports one of them. The attempts share one join handler,
`synchronize(handler, batch_size_, on_success)`, and each is a `new_connect`:

* on a stopped session it calls the join handler with `channel_stopped` at once;
* otherwise it fetches an address from the pool, and `start_connect` calls the join handler at
  once with `service_stopped` when the session or the pool has stopped, with the fetch's failure
  (an empty pool ends the attempt here), or with `address_blocked` for a blacklisted address;
* otherwise it pends a new connector in `p2p`'s `pending_connect_` and connects. The connector's
  callback, `handle_connect`, unpends it and calls the join handler with the failure, or with
  success and the channel.

## The model

`Batch` is one call of `connect`. Its loop runs at once, each attempt with the outcome of its own
`fetch_address`, any code and any address. Then the connects in flight call back, in any order and
with any codes, and `p2p::stop` may come at any time. A connector and its channel are named by the
number of their attempt. `calls` is the history of what the attempts passed to the join handler;
the code keeps no such list, and the proofs read the join through it.

## What holds

The handler runs on the call that clears the join. What it then receives is the synchronizer's to
choose, and bitprim-core's choice is not in src/: the model records the clearing call as the
attempt made it, and nothing below reads it.

`Inv` is kept by `connect` and by every event: the join and the clearing calls are what the join
makes of the history (`Join.run_record`); every attempt has either called the join handler or is
connecting; and the batch's connectors in `pending_connect_` are connecting ones, all of them
while `p2p` runs (`batch_connectors_pending`). So in every run the handler is called at most once
(`batch_handler_at_most_once`), and completing the connects in flight, in any order and with any
codes, has it called exactly once (`batch_reports_after_connects`). The configured size does not
matter: `max` keeps the join from being one of zero calls, which would never complete.
-/

namespace Network

open Async

/-- The settings `session_batch` reads. -/
structure BatchSettings where
  /-- `connect_batch_size`. -/
  connectBatchSize : ℕ
  /-- `blacklists`. -/
  blacklists : List Authority

/-- `batch_size_`: `max(connect_batch_size, 1)`. -/
def BatchSettings.batchSize (cfg : BatchSettings) : ℕ := max cfg.connectBatchSize 1

theorem BatchSettings.batchSize_pos (cfg : BatchSettings) : 0 < cfg.batchSize := by
  unfold batchSize
  omega

/-- One call of `session_batch::connect`. -/
structure Batch where
  /-- The session's `stopped_`. -/
  stopped : Bool
  /-- `p2p`'s `pending_connect_`, as far as the batch's connectors go. -/
  pendingConnect : Pending ℕ
  /-- The join handler's state. -/
  join : Join
  /-- The attempts whose `connector->connect` is in flight. -/
  connecting : List ℕ
  /-- What the attempts called the join handler with, in order: the code and, with success, the
  channel. A history of the run, not a field of the code. -/
  calls : List (Code × Option ℕ)
  /-- The calls of the join handler on which `connect`'s handler ran, as the attempts made them. -/
  handled : List (Code × Option ℕ)

/-- What happens to a batch once `connect` has returned. -/
inductive BatchEvent where
  /-- Attempt `k`'s connector calls back with `ec`, and on success with its channel. -/
  | connected (k : ℕ) (ec : Code)
  /-- `p2p::stop`: the session's stop handler sets `stopped_`, then `pending_connect_` stops. -/
  | stop
  deriving DecidableEq, Repr

namespace Batch

variable (cfg : BatchSettings)

/-- The join handler, called by an attempt with `ec` and its channel, if any: `connect`'s
handler runs on the call that clears the join. -/
def joinCall (b : Batch) (ec : Code) (channel : Option ℕ) : Batch :=
  let r := b.join.call Code.success ec
  { b with
    join := r.1
    calls := b.calls ++ [(ec, channel)]
    handled := b.handled ++ if r.2 then [(ec, channel)] else [] }

/-- `session_batch::start_connect(ec, host, handler)` for attempt `k`. The code `pend` returns is
not read. -/
def startConnect (b : Batch) (k : ℕ) (ec : Code) (host : Authority) : Batch :=
  if stoppedBy b.stopped ec then b.joinCall .serviceStopped none
  else if ec.isError then b.joinCall ec none
  else if blacklisted cfg.blacklists host then b.joinCall .addressBlocked none
  else { b with pendingConnect := (b.pendingConnect.store k).2, connecting := b.connecting ++ [k] }

/-- `session_batch::new_connect(handler)` for attempt `k`, whose `fetch_address` gives
`fetched`. -/
def newConnect (b : Batch) (k : ℕ) (fetched : Code × Authority) : Batch :=
  if b.stopped then b.joinCall .channelStopped none
  else b.startConnect cfg k fetched.1 fetched.2

/-- `session_batch::connect(handler)` on a session whose `stopped_` is `stopped`, while
`pending_connect_`'s stop flag is `networkStopped`: the join, then `new_connect` for each attempt
in turn, where `fetch k` is what attempt `k`'s `fetch_address` gives. -/
def connect (stopped networkStopped : Bool) (fetch : ℕ → Code × Authority) : Batch :=
  (List.range cfg.batchSize).foldl (fun b k ↦ b.newConnect cfg k (fetch k))
    ⟨stopped, ⟨networkStopped, []⟩, Join.start .onSuccess cfg.batchSize, [], [], []⟩

/-- `session_batch::handle_connect(ec, channel, connector, handler)` for attempt `k`: `unpend`
stops the connector and takes it out of `pending_connect_`; then the join handler gets the
failure, or success and the channel. -/
def handleConnect (b : Batch) (k : ℕ) (ec : Code) : Batch :=
  let b := { b with
    pendingConnect := b.pendingConnect.remove k
    connecting := b.connecting.erase k }
  if ec.isError then b.joinCall ec none else b.joinCall .success (some k)

/-- One event; a connector calls back only while its connect is in flight. -/
def step (b : Batch) : BatchEvent → Batch
  | .connected k ec => if k ∈ b.connecting then b.handleConnect k ec else b
  | .stop => { b with stopped := true, pendingConnect := b.pendingConnect.stop }

/-! ## What each step does -/

variable {cfg}

section JoinCall

variable (b : Batch) (ec : Code) (channel : Option ℕ)

@[simp] theorem joinCall_calls : (b.joinCall ec channel).calls = b.calls ++ [(ec, channel)] := rfl

@[simp] theorem joinCall_connecting : (b.joinCall ec channel).connecting = b.connecting := rfl

@[simp] theorem joinCall_pendingConnect :
    (b.joinCall ec channel).pendingConnect = b.pendingConnect := rfl

/-- The join handler is one call of the join, logged. -/
theorem joinCall_record :
    ((b.joinCall ec channel).join, (b.joinCall ec channel).handled) =
      Join.record Code.success Prod.fst (b.join, b.handled) (ec, channel) := rfl

end JoinCall

/-- `new_connect` either ends the attempt at once, with a failure and no channel, or starts its
connector. -/
theorem newConnect_cases (b : Batch) (k : ℕ) (fetched : Code × Authority) :
    (∃ ec, ec.isError = true ∧ b.newConnect cfg k fetched = b.joinCall ec none) ∨
      b.newConnect cfg k fetched =
        { b with
          pendingConnect := (b.pendingConnect.store k).2
          connecting := b.connecting ++ [k] } := by
  unfold newConnect startConnect
  split_ifs with hs hstop herr hbl
  · exact .inl ⟨_, rfl, rfl⟩
  · exact .inl ⟨_, rfl, rfl⟩
  · exact .inl ⟨_, herr, rfl⟩
  · exact .inl ⟨_, rfl, rfl⟩
  · exact .inr rfl

/-- `handle_connect` unpends the connector and passes the code on, with the channel exactly on
success. -/
theorem handleConnect_eq (b : Batch) (k : ℕ) (ec : Code) :
    b.handleConnect k ec =
      ({ b with pendingConnect := b.pendingConnect.remove k, connecting := b.connecting.erase k } :
        Batch).joinCall ec (if ec.isError then none else some k) := by
  unfold handleConnect
  split_ifs with herr
  · rfl
  · rw [(Code.isError_eq_false_iff ec).1 (by simpa using herr)]

/-! ## The invariant -/

/-- What holds of a batch of `n` attempts once `new_connect` has run for those below `m`. -/
structure Inv (n m : ℕ) (b : Batch) : Prop where
  /-- The join and the handler's calls are what the join makes of the calls it received. -/
  record : (b.join, b.handled) =
    run (Join.record Code.success Prod.fst) (Join.start .onSuccess n, []) b.calls
  /-- A channel comes with success, and only with success. -/
  channel : ∀ c ∈ b.calls, c.2.isSome = !c.1.isError
  /-- Every attempt started has called the join handler or is connecting. -/
  count : b.calls.length + b.connecting.length = m
  connecting_lt : ∀ k ∈ b.connecting, k < m
  /-- Only connecting attempts have a connector in `pending_connect_`, ... -/
  pending : b.pendingConnect.elements.Sublist b.connecting
  /-- ... and while `p2p` runs, all of them have. -/
  running : b.pendingConnect.stopped = false → b.pendingConnect.elements = b.connecting

variable {n m : ℕ}

/-- A call of the join handler keeps the join read off the history. -/
theorem record_joinCall {b : Batch} {s : Join × List (Code × Option ℕ)}
    (h : (b.join, b.handled) = run (Join.record Code.success Prod.fst) s b.calls)
    (ec : Code) (channel : Option ℕ) :
    ((b.joinCall ec channel).join, (b.joinCall ec channel).handled) =
      run (Join.record Code.success Prod.fst) s (b.joinCall ec channel).calls := by
  rw [joinCall_record, joinCall_calls, run_concat, ← h]

theorem channel_joinCall {b : Batch} (h : ∀ c ∈ b.calls, c.2.isSome = !c.1.isError) {ec : Code}
    {channel : Option ℕ} (hc : channel.isSome = !ec.isError) :
    ∀ c ∈ (b.joinCall ec channel).calls, c.2.isSome = !c.1.isError := by
  intro c hmem
  rcases List.mem_append.1 hmem with hmem | hmem
  · exact h c hmem
  · rw [List.mem_singleton.1 hmem]
    exact hc

/-- `new_connect` for the next attempt. -/
theorem Inv.newConnect {b : Batch} (h : Inv n m b) (fetched : Code × Authority) :
    Inv n (m + 1) (b.newConnect cfg m fetched) := by
  rcases newConnect_cases b m fetched with ⟨ec, herr, heq⟩ | heq <;> rw [heq]
  · -- The attempt ends at once: one more call, nothing more connecting.
    refine ⟨record_joinCall h.record ec none, channel_joinCall h.channel (by simp [herr]), ?_,
      fun k hk ↦ Nat.lt_succ_of_lt (h.connecting_lt k hk), h.pending, h.running⟩
    simp only [joinCall_calls, joinCall_connecting, List.length_append, List.length_singleton]
    have := h.count
    omega
  · -- The connector starts; it is stored unless `pending_connect_` has stopped.
    have hfresh : m ∉ b.connecting := fun hm ↦ Nat.lt_irrefl m (h.connecting_lt m hm)
    refine ⟨h.record, h.channel, ?_, ?_, ?_, ?_⟩
    · simp only [List.length_append, List.length_singleton]
      have := h.count
      omega
    · intro k hk
      rcases List.mem_append.1 hk with hk | hk
      · exact Nat.lt_succ_of_lt (h.connecting_lt k hk)
      · rw [List.mem_singleton.1 hk]
        exact Nat.lt_succ_self m
    · rcases Pending.storeMatching_spec b.pendingConnect m (· == m) with
        ⟨-, he, -⟩ | ⟨-, he⟩
      · show (b.pendingConnect.storeMatching m _).2.elements.Sublist _
        rw [he]
        exact h.pending.append (List.Sublist.refl _)
      · show (b.pendingConnect.storeMatching m _).2.elements.Sublist _
        rw [he]
        exact h.pending.trans (List.sublist_append_left _ _)
    · intro hrun
      have hrun' : b.pendingConnect.stopped = false := by
        simpa [Pending.store] using hrun
      rcases Pending.storeMatching_spec b.pendingConnect m (· == m) with
        ⟨-, he, -⟩ | ⟨hne, -⟩
      · show (b.pendingConnect.storeMatching m _).2.elements = _
        rw [he, h.running hrun']
      · -- A running collection refuses only an element already there, and `m` is new.
        have hnot : m ∉ b.pendingConnect.elements := by rw [h.running hrun']; exact hfresh
        exact absurd (by simp [Pending.storeMatching, hrun', hnot]) hne

theorem inv_connect_range (stopped networkStopped : Bool) (fetch : ℕ → Code × Authority)
    (m : ℕ) :
    Inv cfg.batchSize m ((List.range m).foldl (fun b k ↦ b.newConnect cfg k (fetch k))
        ⟨stopped, ⟨networkStopped, []⟩, Join.start .onSuccess cfg.batchSize, [], [], []⟩) := by
  induction m with
  | zero => exact ⟨rfl, by simp, rfl, by simp, List.Sublist.refl _, fun _ ↦ rfl⟩
  | succ m ih =>
    rw [List.range_succ, List.foldl_append, List.foldl_cons, List.foldl_nil]
    exact ih.newConnect (fetch m)

/-- The loop of `connect` starts every attempt. -/
theorem inv_connect (stopped networkStopped : Bool) (fetch : ℕ → Code × Authority) :
    Inv cfg.batchSize cfg.batchSize (connect cfg stopped networkStopped fetch) :=
  inv_connect_range stopped networkStopped fetch cfg.batchSize

/-- A connector's callback: its attempt stops connecting and calls the join handler. -/
theorem Inv.handleConnect {b : Batch} (h : Inv n m b) {k : ℕ} (hk : k ∈ b.connecting)
    (ec : Code) : Inv n m (b.handleConnect k ec) := by
  rw [handleConnect_eq]
  refine ⟨record_joinCall h.record _ _, channel_joinCall h.channel ?_, ?_, ?_, ?_, ?_⟩
  · cases ec.isError <;> rfl
  · simp only [joinCall_calls, joinCall_connecting, List.length_append, List.length_singleton,
      List.length_erase_of_mem hk]
    have := h.count
    have := List.length_pos_of_mem hk
    omega
  · intro k' hk'
    exact h.connecting_lt k' (List.mem_of_mem_erase hk')
  · exact h.pending.erase k
  · intro hrun
    show (b.pendingConnect.elements.erase k) = b.connecting.erase k
    rw [h.running hrun]

/-- `p2p::stop` leaves the attempts as they are; `pending_connect_` refuses connectors from now
on. -/
theorem Inv.stop {b : Batch} (h : Inv n m b) : Inv n m (b.step .stop) :=
  ⟨h.record, h.channel, h.count, h.connecting_lt, h.pending,
    fun hrun ↦ by simp [step, Pending.stop] at hrun⟩

theorem inv_step {b : Batch} (h : Inv n m b) (e : BatchEvent) : Inv n m (b.step e) := by
  cases e with
  | connected k ec =>
    by_cases hk : k ∈ b.connecting
    · rw [step, if_pos hk]
      exact h.handleConnect hk ec
    · rw [step, if_neg hk]
      exact h
  | stop => exact h.stop

theorem inv_run (stopped networkStopped : Bool) (fetch : ℕ → Code × Authority)
    (es : List BatchEvent) :
    Inv cfg.batchSize cfg.batchSize (run step (connect cfg stopped networkStopped fetch) es) :=
  run_invariant step (I := Inv cfg.batchSize cfg.batchSize) (fun _ e h ↦ inv_step h e) es
    (inv_connect stopped networkStopped fetch)

/-- The calls the handler ran on are what the join makes of the history. -/
theorem Inv.handled_eq {b : Batch} (h : Inv n m b) :
    b.handled =
      (run (Join.record Code.success Prod.fst) (Join.start .onSuccess n, []) b.calls).2 :=
  congrArg Prod.snd h.record

/-- With no connect in flight, every attempt started has called the join handler. -/
theorem Inv.length_calls_of_ended {b : Batch} (h : Inv n m b) (hend : b.connecting = []) :
    b.calls.length = m := by
  have hcount := h.count
  rw [hend, List.length_nil, Nat.add_zero] at hcount
  exact hcount

/-- With no connect in flight, the handler has been called once. -/
theorem Inv.handled_length_of_ended {b : Batch} (h : Inv n n b) (hn : 0 < n)
    (hend : b.connecting = []) : b.handled.length = 1 := by
  have hopen : ¬(Join.start .onSuccess n).cleared := by
    rw [Join.cleared_iff, Join.start_counter, Join.start_clearance]
    omega
  have hlen : (Join.start .onSuccess n).clearance - (Join.start .onSuccess n).counter ≤
      b.calls.length := by
    rw [Join.start_clearance, Join.start_counter, h.length_calls_of_ended hend]
    omega
  rw [h.handled_eq, Join.length_run_record_of_le hopen [] hlen, List.length_nil]

/-- The connects in flight, completed in any order and with any codes, leave none in flight. -/
theorem connecting_run_connected {b : Batch} {ks : List ℕ} (hks : ks.Perm b.connecting)
    (codes : ℕ → Code) :
    (run step b (ks.map fun k ↦ .connected k (codes k))).connecting = [] := by
  -- Induction on the completions; each takes its attempt out of those connecting.
  induction ks generalizing b with
  | nil => exact hks.symm.eq_nil
  | cons k ks ih =>
    have hk : k ∈ b.connecting := hks.subset List.mem_cons_self
    rw [List.map_cons, run_cons, step, if_pos hk]
    apply ih
    rw [handleConnect_eq, joinCall_connecting]
    exact (hks.trans (List.perm_cons_erase hk)).cons_inv

/-! ## What a batch reports -/

section Runs

variable (stopped networkStopped : Bool) (fetch : ℕ → Code × Authority)

/-- **At most once.** In every run, `connect`'s handler is called at most once. -/
theorem batch_handler_at_most_once (es : List BatchEvent) :
    (run step (connect cfg stopped networkStopped fetch) es).handled.length ≤ 1 := by
  rw [(inv_run stopped networkStopped fetch es).handled_eq]
  exact Join.length_run_record_le _ [] _

/-- Two attempts connect; the handler runs on the one that calls back first, and the other
channel is dropped. -/
example :
    (run step (connect ⟨2, []⟩ false false fun _ ↦ (.success, ⟨1, 8333⟩))
      [.connected 1 .success, .connected 0 .success]).handled = [(.success, some 1)] := by
  decide

/-- **The batch reports.** Whatever has happened, once the connects in flight call back, in any
order and with any codes, `connect`'s handler has been called exactly once. -/
theorem batch_reports_after_connects (es : List BatchEvent) {ks : List ℕ}
    (hks : ks.Perm (run step (connect cfg stopped networkStopped fetch) es).connecting)
    (codes : ℕ → Code) :
    (run step (connect cfg stopped networkStopped fetch)
      (es ++ ks.map fun k ↦ .connected k (codes k))).handled.length = 1 := by
  have hinv :=
    @inv_run cfg stopped networkStopped fetch (es ++ ks.map fun k ↦ .connected k (codes k))
  have hend := connecting_run_connected hks codes
  rw [← run_append] at hend
  exact hinv.handled_length_of_ended cfg.batchSize_pos hend

/-- With the default batch of five on a running session and a pool that gives one address, the
five connectors call back in reverse order, with a timeout for odd attempts: the handler has been
called once. -/
theorem batch_reports_after_connects_default :
    [4, 3, 2, 1, 0].Perm
        (run step (connect ⟨5, []⟩ false false fun _ ↦ (.success, ⟨1, 8333⟩)) []).connecting ∧
      (run step (connect ⟨5, []⟩ false false fun _ ↦ (.success, ⟨1, 8333⟩))
        ([] ++ [4, 3, 2, 1, 0].map fun k ↦
          .connected k (if k % 2 = 1 then .channelTimeout else .success))).handled.length = 1 :=
  ⟨by decide, batch_reports_after_connects false false _ [] (by decide) _⟩

/-- **No connector escapes `p2p::stop`.** In every run, while `pending_connect_` has not
stopped, the batch's connectors in it are exactly those of the attempts connecting, so that
`p2p::stop` reaches each of them; and once no connect is in flight, none is left in it. -/
theorem batch_connectors_pending (es : List BatchEvent) :
    ((run step (connect cfg stopped networkStopped fetch) es).pendingConnect.stopped = false →
        (run step (connect cfg stopped networkStopped fetch) es).pendingConnect.elements =
          (run step (connect cfg stopped networkStopped fetch) es).connecting) ∧
      ((run step (connect cfg stopped networkStopped fetch) es).connecting = [] →
        (run step (connect cfg stopped networkStopped fetch) es).pendingConnect.elements = []) := by
  have hinv := @inv_run cfg stopped networkStopped fetch es
  refine ⟨hinv.running, fun hend ↦ ?_⟩
  have hsub := hinv.pending
  rw [hend] at hsub
  exact List.sublist_nil.1 hsub

end Runs

end Batch

end Network
