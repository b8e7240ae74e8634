import BitprimNetwork.Async.Run

/-!
# Joins: many callbacks, one completion

A join wraps a completion handler and is handed out as the callback of several asynchronous
operations. It counts the calls it receives and calls the completion exactly once: on the call
that brings the count to the clearance, or earlier on a call that its termination mode treats as
terminal (the first failure, or the first success). Every call after that is ignored.

Calls carry a result code of an arbitrary type `C` with one distinguished success value `ok`.
A join decides when its completion runs: on the call that clears it. Which code the completion
then receives is not fixed here; a model that uses a join says what it assumes of it.

The state is the count, kept at or below the clearance by construction, so that "cleared"
is simply "the count has reached the clearance". The lemmas below describe one call in each
of its three cases, and say that the completion fires exactly when a call clears a join that
was not cleared: since a cleared join stays cleared, it fires at most once over any sequence of
calls.
-/

namespace Async

/-- When a join completes before its count is reached. -/
inductive Terminate where
  /-- The first failing call completes the join. -/
  | onError
  /-- The first successful call completes the join. -/
  | onSuccess
  /-- Only the count completes the join. -/
  | onCount
  deriving DecidableEq, Repr

/-- The state of a join. -/
structure Join where
  /-- The termination mode. -/
  mode : Terminate
  /-- The number of calls that completes the join. -/
  clearance : ℕ
  /-- The calls counted so far; set to the clearance when the join completes. -/
  counter : ℕ
  counter_le : counter ≤ clearance
  deriving DecidableEq

namespace Join

variable {C : Type*} [DecidableEq C] (ok : C)

/-- A fresh join. -/
def start (mode : Terminate) (clearance : ℕ) : Join := ⟨mode, clearance, 0, Nat.zero_le _⟩

/-- The join has called its completion (or had nothing to count). -/
def cleared (j : Join) : Prop := j.counter = j.clearance

instance (j : Join) : Decidable j.cleared := inferInstanceAs (Decidable (_ = _))

/-- Whether a call with code `ec` ends the count early in mode `m`. -/
def terminal (m : Terminate) (ec : C) : Bool :=
  match m with
  | .onError => decide (ec ≠ ok)
  | .onSuccess => decide (ec = ok)
  | .onCount => false

/-- One call: the join afterwards, and whether the completion is called now. -/
def call (j : Join) (ec : C) : Join × Bool :=
  if h : j.counter = j.clearance then (j, false)
  else if terminal ok j.mode ec then (⟨j.mode, j.clearance, j.clearance, Nat.le_refl _⟩, true)
  else (⟨j.mode, j.clearance, j.counter + 1, by have := j.counter_le; omega⟩,
    decide (j.counter + 1 = j.clearance))

variable {ok}

@[simp] theorem start_counter (m : Terminate) (n : ℕ) : (start m n).counter = 0 := rfl

@[simp] theorem start_clearance (m : Terminate) (n : ℕ) : (start m n).clearance = n := rfl

@[simp] theorem start_mode (m : Terminate) (n : ℕ) : (start m n).mode = m := rfl

theorem cleared_iff (j : Join) : j.cleared ↔ j.counter = j.clearance := Iff.rfl

/-- A cleared join ignores every call. -/
theorem call_of_cleared {j : Join} (h : j.cleared) (ec : C) : j.call ok ec = (j, false) := by
  rw [cleared_iff] at h
  rw [call, dif_pos h]

/-- A terminal call completes a join that has not yet completed. -/
theorem call_of_terminal {j : Join} (h : ¬j.cleared) {ec : C} (ht : terminal ok j.mode ec) :
    (j.call ok ec).1.counter = j.clearance ∧ (j.call ok ec).2 = true := by
  rw [cleared_iff] at h
  simp [call, dif_neg h, ht]

/-- A call that is not terminal is counted, and completes the join when it is the last. -/
theorem call_of_not_terminal {j : Join} (h : ¬j.cleared) {ec : C}
    (ht : terminal ok j.mode ec = false) :
    (j.call ok ec).1.counter = j.counter + 1 ∧
      (j.call ok ec).2 = decide (j.counter + 1 = j.clearance) := by
  rw [cleared_iff] at h
  simp [call, dif_neg h, ht]

@[simp] theorem call_mode (j : Join) (ec : C) : (j.call ok ec).1.mode = j.mode := by
  unfold call; split_ifs <;> rfl

@[simp] theorem call_clearance (j : Join) (ec : C) : (j.call ok ec).1.clearance = j.clearance := by
  unfold call; split_ifs <;> rfl

/-- The completion is called exactly when the call clears a join that was not cleared. -/
theorem call_fires_iff (j : Join) (ec : C) :
    (j.call ok ec).2 = true ↔ ¬j.cleared ∧ (j.call ok ec).1.cleared := by
  unfold call cleared
  split_ifs with h ht <;> simp_all

/-- A join of one call completes on its first call, whatever the code. -/
theorem call_of_clearance_one {j : Join} (h : j.clearance = 1) (hopen : ¬j.cleared) (ec : C) :
    (j.call ok ec).1.cleared ∧ (j.call ok ec).2 = true := by
  have hzero : j.counter = 0 := by
    have := j.counter_le
    rw [cleared_iff] at hopen
    omega
  cases ht : terminal ok j.mode ec
  · obtain ⟨hcounter, hfires⟩ := call_of_not_terminal hopen ht
    rw [cleared_iff, hcounter, call_clearance, hzero, h]
    rw [hfires, hzero, h]
    exact ⟨rfl, rfl⟩
  · obtain ⟨hcounter, hfires⟩ := call_of_terminal hopen ht
    rw [cleared_iff, hcounter, call_clearance]
    exact ⟨rfl, hfires⟩

/-- Once cleared, a join stays cleared. -/
theorem cleared_call {j : Join} (h : j.cleared) (ec : C) : (j.call ok ec).1.cleared := by
  rw [call_of_cleared h]
  exact h

/-! ## Runs of calls

A join is handed to several operations, each of which calls it with its own result, and the
completion runs on the one call that clears it. `record` is a call that also logs the call that
clears the join. Over a run of calls, on a join with `k` calls still to count, that is the first
terminal call among the next `k`, or else the `k`-th call, and there is none when fewer calls come
(`run_record`). So the completion runs at most once (`length_run_record_le`), and exactly once
when `k` calls come (`length_run_record_of_le`).
-/

section Record

variable {α : Type*}

/-- A call with the result `x`, of code `code x`, that also logs `x` when it clears the join. -/
def record (ok : C) (code : α → C) (p : Join × List α) (x : α) : Join × List α :=
  let r := p.1.call ok (code x)
  (r.1, p.2 ++ if r.2 then [x] else [])

variable {code : α → C}

/-- The calls still to count before a join that has not completed clears. -/
theorem clearance_sub_counter_pos {j : Join} (h : ¬j.cleared) : 0 < j.clearance - j.counter := by
  have hle := j.counter_le
  rw [cleared_iff] at h
  omega

/-- A cleared join ignores a whole run of calls. -/
theorem run_record_of_cleared {j : Join} (h : j.cleared) (l xs : List α) :
    run (record ok code) (j, l) xs = (j, l) := by
  induction xs with
  | nil => rfl
  | cons x xs ih =>
    have hone : record ok code (j, l) x = (j, l) := by
      simp [record, call_of_cleared h]
    rw [run_cons, hone, ih]

/-- **What a run of calls completes.** On a join that has not completed, with `k` calls still to
count, the call that clears it is the first terminal call among the next `k`, or else the `k`-th
call if there is one. -/
theorem run_record {j : Join} (h : ¬j.cleared) (l xs : List α) :
    (run (record ok code) (j, l) xs).2 =
      l ++ (((xs.take (j.clearance - j.counter)).find? fun x ↦ terminal ok j.mode (code x)).or
        xs[j.clearance - j.counter - 1]?).toList := by
  induction xs generalizing j l with
  | nil => simp
  | cons x xs ih =>
    obtain ⟨k, hk⟩ : ∃ k, j.clearance - j.counter = k + 1 :=
      ⟨_, (Nat.succ_pred_eq_of_pos (clearance_sub_counter_pos h)).symm⟩
    rw [run_cons, hk, List.take_succ_cons, List.find?_cons, Nat.add_sub_cancel]
    cases ht : terminal ok j.mode (code x)
    · obtain ⟨hcounter, hfires⟩ := call_of_not_terminal h ht
      rcases k with _ | k
      · -- The last call still to count clears the join, terminal or not.
        have hcl : (j.call ok (code x)).1.cleared := by
          rw [cleared_iff, hcounter, call_clearance]
          omega
        have hlast : decide (j.counter + 1 = j.clearance) = true := by
          rw [decide_eq_true_iff]
          omega
        simp [record, hfires, hlast, run_record_of_cleared hcl]
      · -- The call is counted and the join waits for `k + 1` more.
        have hopen : ¬(j.call ok (code x)).1.cleared := by
          rw [cleared_iff, hcounter, call_clearance]
          omega
        have hnot : decide (j.counter + 1 = j.clearance) = false := by
          rw [decide_eq_false_iff_not]
          omega
        have hk' : (j.call ok (code x)).1.clearance - (j.call ok (code x)).1.counter = k + 1 := by
          rw [hcounter, call_clearance]
          omega
        have hmode : (j.call ok (code x)).1.mode = j.mode := call_mode j (code x)
        have hrun := ih hopen l
        rw [hk', hmode, Nat.add_sub_cancel] at hrun
        simpa [record, hfires, hnot] using hrun
    · -- A terminal call clears the join at once.
      obtain ⟨hcounter, hfires⟩ := call_of_terminal h ht
      have hcl : (j.call ok (code x)).1.cleared := by
        rw [cleared_iff, hcounter, call_clearance]
      simp [record, hfires, run_record_of_cleared hcl]

/-- At most one call of any run clears the join. -/
theorem length_run_record_le (j : Join) (l xs : List α) :
    (run (record ok code) (j, l) xs).2.length ≤ l.length + 1 := by
  by_cases h : j.cleared
  · rw [run_record_of_cleared h]
    exact Nat.le_succ _
  · rw [run_record h, List.length_append]
    have hopt : (((xs.take (j.clearance - j.counter)).find? fun x ↦
        terminal ok j.mode (code x)).or xs[j.clearance - j.counter - 1]?).toList.length ≤ 1 :=
      Option.length_toList_le
    omega

/-- Exactly one call clears the join in a run that makes the calls still to count. -/
theorem length_run_record_of_le {j : Join} (h : ¬j.cleared) (l : List α) {xs : List α}
    (hlen : j.clearance - j.counter ≤ xs.length) :
    (run (record ok code) (j, l) xs).2.length = l.length + 1 := by
  have hlast : (xs[j.clearance - j.counter - 1]?).isSome := by
    rw [Option.isSome_iff_ne_none, Ne, List.getElem?_eq_none_iff]
    have := clearance_sub_counter_pos h
    omega
  obtain ⟨x, hx⟩ := Option.isSome_iff_exists.1 hlast
  rw [run_record h, List.length_append, hx]
  cases (xs.take (j.clearance - j.counter)).find? fun x ↦ terminal ok j.mode (code x) <;> rfl

end Record

end Join

end Async
