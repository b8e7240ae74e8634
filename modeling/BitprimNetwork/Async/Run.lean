import Mathlib.Data.List.Induction
import Mathlib.Order.Basic

/-!
# Runs of an event-driven component

An asynchronous component is modelled by a state and a step function that handles one event:
a completion, a timer expiry, a message. A *run* is the state reached after handling a list of
events in order, and every interleaving the scheduler can produce is one such list. The
properties proved about a component are therefore statements over all lists of events.

Three proof rules carry almost every result built on this file:

* an *inductive invariant* — true initially and kept by every step — holds after every run;
* a *variant* — a measure that no step increases — is no larger after a run than before it;
* a *simulation* — a relation between two components kept by every pair of corresponding
  steps — relates their states after every run, which is how a model of the code is shown to
  refine a more abstract one.

Nothing here mentions a particular component.
-/

namespace Async

variable {σ τ ε : Type*}

/-- The state reached from `s` by handling the events `es` in order. -/
def run (step : σ → ε → σ) (s : σ) (es : List ε) : σ :=
  es.foldl step s

section Run

variable (step : σ → ε → σ)

@[simp] theorem run_nil (s : σ) : run step s [] = s := rfl

@[simp] theorem run_cons (s : σ) (e : ε) (es : List ε) :
    run step s (e :: es) = run step (step s e) es := rfl

theorem run_append (s : σ) (es fs : List ε) :
    run step s (es ++ fs) = run step (run step s es) fs :=
  List.foldl_append

theorem run_concat (s : σ) (es : List ε) (e : ε) :
    run step s (es ++ [e]) = step (run step s es) e := by
  rw [run_append, run_cons, run_nil]

/-- **Inductive invariants.** A predicate that every step keeps holds after every run. -/
theorem run_invariant {I : σ → Prop} (hstep : ∀ s e, I s → I (step s e)) :
    ∀ {s : σ} (es : List ε), I s → I (run step s es) := by
  intro s es hs
  induction es generalizing s with
  | nil => exact hs
  | cons e es ih => exact ih (hstep s e hs)

/-- An invariant that each of the given events keeps holds after handling them. -/
theorem run_invariant_of_mem {I : σ → Prop} :
    ∀ {s : σ} (es : List ε), (∀ s, ∀ e ∈ es, I s → I (step s e)) → I s → I (run step s es) := by
  intro s es hstep hs
  induction es generalizing s with
  | nil => exact hs
  | cons e es ih =>
    exact ih (fun s e' he' ↦ hstep s e' (List.mem_cons_of_mem e he')) (hstep s e (by simp) hs)

/-- **Variants.** A measure that no step increases is no larger after a run. -/
theorem run_le_of_step_le {β : Type*} [Preorder β] (μ : σ → β) (hstep : ∀ s e, μ (step s e) ≤ μ s)
    (s : σ) (es : List ε) : μ (run step s es) ≤ μ s :=
  run_invariant step (I := fun t ↦ μ t ≤ μ s) (fun t e ht ↦ (hstep t e).trans ht) es le_rfl

/-! ### Logs

A component often records what it has done, such as the calls it made, in a list that every
step extends. An entry a run adds to such a log was added by one of its steps, and the log only grows. -/

section Log

variable {α : Type*} (log : σ → List α)

/-- An entry a run adds to the log was added by one of its steps. -/
theorem exists_step_of_mem_run {s : σ} {es : List ε} {x : α} (hx : x ∈ log (run step s es))
    (hs : x ∉ log s) :
    ∃ pre e post, es = pre ++ e :: post ∧ x ∉ log (run step s pre) ∧
      x ∈ log (step (run step s pre) e) := by
  induction es generalizing s with
  | nil => exact absurd hx hs
  | cons e es ih =>
    by_cases he : x ∈ log (step s e)
    · exact ⟨[], e, es, rfl, hs, he⟩
    · obtain ⟨pre, e', post, rfl, hpre, hpost⟩ := ih hx he
      exact ⟨e :: pre, e', post, rfl, hpre, hpost⟩

/-- A log that every step extends only grows over a run. -/
theorem prefix_run (hlog : ∀ s e, log s <+: log (step s e)) (s : σ) (es : List ε) :
    log s <+: log (run step s es) :=
  run_invariant step (I := fun t ↦ log s <+: log t) (fun t e ht ↦ ht.trans (hlog t e)) es
    (List.prefix_refl _)

end Log

end Run

/-- **Simulation.** A relation that each pair of corresponding steps keeps relates the two
runs over the same events. -/
theorem run_simulation {f : σ → ε → σ} {g : τ → ε → τ} {R : σ → τ → Prop}
    (hstep : ∀ s t e, R s t → R (f s e) (g t e)) :
    ∀ {s : σ} {t : τ} (es : List ε), R s t → R (run f s es) (run g t es) := by
  intro s t es hst
  induction es generalizing s t with
  | nil => exact hst
  | cons e es ih => exact ih (hstep s t e hst)

end Async
