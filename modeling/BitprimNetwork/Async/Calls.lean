import Mathlib.Data.List.Nodup
import Mathlib.Data.List.Perm.Basic
import Mathlib.Data.List.Range

/-!
# Numbered calls, each answered once

A service that takes calls with a completion handler, such as `start(handler)`, numbers them in
the order they are made. A call is *in flight* while it waits for some asynchronous step, with a
state saying which, and *answered* once its handler has been called with a result. A call may be
answered as soon as it is made, or move through several waiting states first.

`Calls σ ρ` records how many calls were made, the calls in flight with their states, and the
answers in order. Its one invariant, `Partitioned`, says that the in-flight calls and the answered
ones are together exactly the calls made, with none twice: no call is lost and none is answered
twice. Each operation keeps it provided the call it answers or moves is in flight, so a component
that answers a call only from a state in which it waits keeps it over every run.

The lemmas after the invariant are the frame rules a component's proofs use: an operation on one
call leaves the states of the others as they were, and answers are only ever added.

Nothing here mentions a particular component.
-/

namespace Async

/-- Calls numbered `0, 1, …` in the order they were made. -/
structure Calls (σ ρ : Type*) where
  /-- The number of calls made. -/
  count : ℕ
  /-- The calls in flight, with what each waits for. -/
  inFlight : List (ℕ × σ)
  /-- The answers, in the order they were given. -/
  answers : List (ℕ × ρ)
  deriving DecidableEq, Repr

namespace Calls

open scoped List

variable {σ ρ : Type*} (q : Calls σ ρ)

/-- No call made yet. -/
def empty : Calls σ ρ := ⟨0, [], []⟩

/-- A new call, numbered by the count of those before it, waiting in state `s`. -/
def issue (s : σ) : Calls σ ρ := ⟨q.count + 1, q.inFlight ++ [(q.count, s)], q.answers⟩

/-- A new call answered at once with `r`. -/
def answerNew (r : ρ) : Calls σ ρ := ⟨q.count + 1, q.inFlight, q.answers ++ [(q.count, r)]⟩

/-- Call `i` is answered with `r`. -/
def answer (i : ℕ) (r : ρ) : Calls σ ρ :=
  ⟨q.count, q.inFlight.filter (·.1 != i), q.answers ++ [(i, r)]⟩

/-- Call `i` now waits in state `s`. -/
def await (i : ℕ) (s : σ) : Calls σ ρ :=
  ⟨q.count, q.inFlight.filter (·.1 != i) ++ [(i, s)], q.answers⟩

/-- What a handler does with the call it handles: answers it, or leaves it waiting. -/
inductive Outcome (σ ρ : Type*) where
  /-- The call's handler is called with `r`. -/
  | answer (r : ρ)
  /-- The call now waits in state `s`. -/
  | await (s : σ)
  deriving DecidableEq, Repr

/-- Call `i` is settled as the handler decided. -/
def settle (i : ℕ) : Outcome σ ρ → Calls σ ρ
  | .answer r => q.answer i r
  | .await s => q.await i s

section Fields

variable (s : σ) (r : ρ) (i : ℕ)

@[simp] theorem settle_count (o : Outcome σ ρ) : (q.settle i o).count = q.count := by
  cases o <;> rfl

@[simp] theorem issue_count : (q.issue s).count = q.count + 1 := rfl
@[simp] theorem answerNew_count : (q.answerNew r).count = q.count + 1 := rfl
@[simp] theorem answer_count : (q.answer i r).count = q.count := rfl
@[simp] theorem await_count : (q.await i s).count = q.count := rfl

@[simp] theorem issue_inFlight : (q.issue s).inFlight = q.inFlight ++ [(q.count, s)] := rfl
@[simp] theorem answerNew_inFlight : (q.answerNew r).inFlight = q.inFlight := rfl
@[simp] theorem answer_inFlight : (q.answer i r).inFlight = q.inFlight.filter (·.1 != i) := rfl
@[simp] theorem await_inFlight :
    (q.await i s).inFlight = q.inFlight.filter (·.1 != i) ++ [(i, s)] := rfl

@[simp] theorem issue_answers : (q.issue s).answers = q.answers := rfl
@[simp] theorem answerNew_answers : (q.answerNew r).answers = q.answers ++ [(q.count, r)] := rfl
@[simp] theorem answer_answers : (q.answer i r).answers = q.answers ++ [(i, r)] := rfl
@[simp] theorem await_answers : (q.await i s).answers = q.answers := rfl

end Fields

/-- The numbers of the calls in flight. -/
def flying : List ℕ := q.inFlight.map Prod.fst

/-- The numbers of the answered calls, in the order of their answers. -/
def answered : List ℕ := q.answers.map Prod.fst

/-! ## The invariant -/

/-- The calls in flight and the answered ones are the calls made, each once. -/
def Partitioned : Prop := (q.flying ++ q.answered).Perm (List.range q.count)

/-- Taking call `i` out of flight and putting it last is a permutation, when each call is in
flight at most once. -/
theorem perm_filter_append {l : List (ℕ × σ)} (hnd : (l.map Prod.fst).Nodup) {i : ℕ}
    (hi : i ∈ l.map Prod.fst) :
    ((l.filter (·.1 != i)).map Prod.fst ++ [i]).Perm (l.map Prod.fst) := by
  have hfilter : (l.filter (·.1 != i)).map Prod.fst = (l.map Prod.fst).filter (· != i) := by
    rw [List.filter_map]
    rfl
  rw [hfilter, ← hnd.erase_eq_filter]
  exact List.perm_append_comm.trans (List.perm_cons_erase hi).symm

variable {q}

theorem Partitioned.nodup (h : q.Partitioned) : (q.flying ++ q.answered).Nodup :=
  h.nodup_iff.2 List.nodup_range

theorem Partitioned.nodup_flying (h : q.Partitioned) : q.flying.Nodup :=
  h.nodup.of_append_left

/-- A call in flight has not been answered. -/
theorem Partitioned.not_answered (h : q.Partitioned) {i : ℕ} (hi : i ∈ q.flying) :
    i ∉ q.answered :=
  fun ha ↦ (List.nodup_append.1 h.nodup).2.2 i hi i ha rfl

/-- A call waits in one state at a time. -/
theorem Partitioned.eq_of_mem (h : q.Partitioned) {i : ℕ} {s s' : σ} (hs : (i, s) ∈ q.inFlight)
    (hs' : (i, s') ∈ q.inFlight) : s = s' :=
  (Prod.ext_iff.1 (List.inj_on_of_nodup_map h.nodup_flying hs hs' rfl)).2

/-- A call in flight has been made. -/
theorem Partitioned.lt_count (h : q.Partitioned) {i : ℕ} (hi : i ∈ q.flying) : i < q.count :=
  List.mem_range.1 (h.mem_iff.1 (List.mem_append_left _ hi))

theorem partitioned_empty : (empty : Calls σ ρ).Partitioned := by
  simp [Partitioned, empty, flying, answered]

theorem Partitioned.issue (h : q.Partitioned) (s : σ) : (q.issue s).Partitioned := by
  unfold Partitioned flying answered at *
  -- The new call's number is the new last one of the range; it goes to the end of the flight.
  calc (q.issue s).inFlight.map Prod.fst ++ (q.issue s).answers.map Prod.fst
      = q.inFlight.map Prod.fst ++ ([q.count] ++ q.answers.map Prod.fst) := by simp
    _ ~ q.inFlight.map Prod.fst ++ (q.answers.map Prod.fst ++ [q.count]) :=
        List.perm_append_comm.append_left _
    _ = (q.inFlight.map Prod.fst ++ q.answers.map Prod.fst) ++ [q.count] :=
        (List.append_assoc _ _ _).symm
    _ ~ List.range (q.issue s).count := by
        rw [issue_count, List.range_succ]
        exact h.append_right _

theorem Partitioned.answerNew (h : q.Partitioned) (r : ρ) : (q.answerNew r).Partitioned := by
  unfold Partitioned flying answered at *
  simpa [List.range_succ] using h.append_right [q.count]

/-- Answering a call in flight keeps the invariant. -/
theorem Partitioned.answer (h : q.Partitioned) {i : ℕ} (hi : i ∈ q.flying) (r : ρ) :
    (q.answer i r).Partitioned := by
  have hmove := perm_filter_append h.nodup_flying hi
  unfold Partitioned flying answered at *
  calc (q.answer i r).inFlight.map Prod.fst ++ (q.answer i r).answers.map Prod.fst
      = (q.inFlight.filter (·.1 != i)).map Prod.fst ++ (q.answers.map Prod.fst ++ [i]) := by
        simp
    _ ~ (q.inFlight.filter (·.1 != i)).map Prod.fst ++ ([i] ++ q.answers.map Prod.fst) :=
        List.perm_append_comm.append_left _
    _ = ((q.inFlight.filter (·.1 != i)).map Prod.fst ++ [i]) ++ q.answers.map Prod.fst :=
        (List.append_assoc _ _ _).symm
    _ ~ List.range (q.answer i r).count := (hmove.append_right _).trans h

/-- Moving a call in flight to another state keeps the invariant. -/
theorem Partitioned.await (h : q.Partitioned) {i : ℕ} (hi : i ∈ q.flying) (s : σ) :
    (q.await i s).Partitioned := by
  have hmove := perm_filter_append h.nodup_flying hi
  unfold Partitioned flying answered at *
  calc (q.await i s).inFlight.map Prod.fst ++ (q.await i s).answers.map Prod.fst
      = ((q.inFlight.filter (·.1 != i)).map Prod.fst ++ [i]) ++ q.answers.map Prod.fst := by
        simp
    _ ~ List.range (q.await i s).count := (hmove.append_right _).trans h

theorem Partitioned.settle (h : q.Partitioned) {i : ℕ} (hi : i ∈ q.flying) (o : Outcome σ ρ) :
    (q.settle i o).Partitioned := by
  cases o with
  | answer r => exact h.answer hi r
  | await s => exact h.await hi s

/-! ## Frame rules -/

section Frame

variable {i j : ℕ} {s : σ}

theorem mem_flying_of_mem {q : Calls σ ρ} (h : (i, s) ∈ q.inFlight) : i ∈ q.flying :=
  List.mem_map_of_mem (f := Prod.fst) h

/-- The calls in flight after settling call `i`: the others as they were, and `i` if it was left
waiting. -/
theorem mem_inFlight_settle (o : Outcome σ ρ) :
    (j, s) ∈ (q.settle i o).inFlight ↔ (j, s) ∈ q.inFlight ∧ j ≠ i ∨ j = i ∧ o = .await s := by
  cases o with
  | answer r => simp [settle]
  | await s' =>
    simp only [settle, await_inFlight, List.mem_append, List.mem_filter, List.mem_singleton,
      Prod.mk.injEq, bne_iff_ne, ne_eq, Outcome.await.injEq]
    constructor
    · rintro (h | ⟨rfl, rfl⟩) <;> simp_all
    · rintro (h | ⟨rfl, rfl⟩) <;> simp_all

/-- The answers after settling call `i`: those before, and `i`'s if it was answered. -/
theorem mem_answers_settle {r : ρ} (o : Outcome σ ρ) :
    (j, r) ∈ (q.settle i o).answers ↔ (j, r) ∈ q.answers ∨ j = i ∧ o = .answer r := by
  cases o with
  | answer r' => simp [settle, eq_comm]
  | await s' => simp [settle]

/-- A call left waiting is in flight in its new state. -/
theorem mem_inFlight_settle_await : (i, s) ∈ (q.settle i (.await s : Outcome σ ρ)).inFlight := by
  simp [settle]

/-- A call answered is answered. -/
theorem mem_answered_settle_answer (r : ρ) : i ∈ (q.settle i (.answer r : Outcome σ ρ)).answered := by
  simp [settle, answered]

/-- Settling a call only adds answers. -/
theorem answers_prefix_settle (o : Outcome σ ρ) : q.answers <+: (q.settle i o).answers := by
  cases o with
  | answer r => exact List.prefix_append _ _
  | await s' => exact List.prefix_refl _

/-- Call `i` is in `q'` where it was in `q`: waiting in the same states, answered with the same
results. -/
structure Keeps (i : ℕ) (q q' : Calls σ ρ) : Prop where
  inFlight : ∀ s, (i, s) ∈ q'.inFlight ↔ (i, s) ∈ q.inFlight
  answers : ∀ r, (i, r) ∈ q'.answers ↔ (i, r) ∈ q.answers

theorem Keeps.refl (q : Calls σ ρ) : Keeps i q q :=
  ⟨fun _ ↦ .rfl, fun _ ↦ .rfl⟩

theorem Keeps.trans {q q' q'' : Calls σ ρ} (h : Keeps i q q') (h' : Keeps i q' q'') :
    Keeps i q q'' :=
  ⟨fun s ↦ (h'.inFlight s).trans (h.inFlight s), fun r ↦ (h'.answers r).trans (h.answers r)⟩

/-- A new call leaves those made before it as they were. -/
theorem keeps_issue (hi : i < q.count) (s' : σ) : Keeps i q (q.issue s') :=
  ⟨fun _ ↦ by simp [hi.ne], fun _ ↦ .rfl⟩

theorem keeps_answerNew (hi : i < q.count) (r : ρ) : Keeps i q (q.answerNew r) :=
  ⟨fun _ ↦ .rfl, fun _ ↦ by simp [hi.ne]⟩

/-- Settling one call leaves the others as they were. -/
theorem keeps_settle (hij : i ≠ j) (o : Outcome σ ρ) : Keeps i q (q.settle j o) :=
  ⟨fun _ ↦ by simp [mem_inFlight_settle, hij], fun _ ↦ by simp [mem_answers_settle, hij]⟩

/-- A call answered stays answered. -/
theorem mem_answered_of_prefix {q q' : Calls σ ρ} (h : q.answers <+: q'.answers)
    (hi : i ∈ q.answered) : i ∈ q'.answered :=
  (h.map Prod.fst).subset hi

end Frame

end Calls

end Async
