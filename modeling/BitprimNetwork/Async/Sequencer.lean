import Mathlib.Data.List.Basic

/-!
# Sequencers: one action at a time, in the order asked

A sequencer serialises actions that must not overlap, such as the asynchronous writes of one
socket. `lock a` posts `a` at once if nothing holds the sequencer, and otherwise puts it at the
back of the queue. The action, once its work is done, calls `unlock`, which posts the oldest
waiting action or releases the sequencer.

## The ledger

What a sequencer is for is said by `Ledger`: the actions released by their holder so far, then
the one holding the sequencer, then the waiting ones, are exactly the actions locked, in the order
they were locked; and the sequencer is held exactly while an action runs. So the actions run one
at a time, in the order they were locked, none is lost and none runs twice. `Ledger.lock` and
`Ledger.unlock` say that each operation keeps the ledger; a component that uses a sequencer adds
the ledger to its invariant and cites these two lemmas at its own steps.

Nothing here mentions a particular component.
-/

namespace Async

/-- A sequencer: whether an action holds it, and the actions waiting for it, oldest first. -/
structure Sequencer (α : Type*) where
  /-- An action holds the sequencer. -/
  executing : Bool
  /-- The actions waiting, oldest first. -/
  queue : List α
  /-- An action waits only while another holds the sequencer. -/
  waiting_held : queue ≠ [] → executing = true

namespace Sequencer

variable {α : Type*}

/-- A sequencer that nothing holds. -/
def idle : Sequencer α := ⟨false, [], fun h ↦ absurd rfl h⟩

/-- `lock(action)`: the sequencer afterwards, and the action to post now, if any. -/
def lock (s : Sequencer α) (a : α) : Sequencer α × Option α :=
  if s.executing then (⟨true, s.queue ++ [a], fun _ ↦ rfl⟩, none)
  else (⟨true, s.queue, fun _ ↦ rfl⟩, some a)

/-- `unlock()`, by the action holding the sequencer: the oldest waiting action is posted, or the
sequencer is released. -/
def unlock (s : Sequencer α) : Sequencer α × Option α :=
  match s.queue with
  | [] => (⟨false, [], fun h ↦ absurd rfl h⟩, none)
  | a :: rest => (⟨true, rest, fun _ ↦ rfl⟩, some a)

@[simp] theorem idle_executing : (idle : Sequencer α).executing = false := rfl

@[simp] theorem idle_queue : (idle : Sequencer α).queue = [] := rfl

theorem queue_eq_nil_of_not_executing {s : Sequencer α} (h : s.executing = false) :
    s.queue = [] := by
  by_contra hne
  rw [s.waiting_held hne] at h
  cases h

/-- `unlock` posts the oldest waiting action: what it posts, then what still waits, is what
waited before. -/
theorem unlock_toList_append (s : Sequencer α) : s.unlock.2.toList ++ s.unlock.1.queue = s.queue := by
  unfold unlock
  split
  · next hq => rw [hq]; rfl
  · next a rest hq => rw [hq]; rfl

/-- The ledger of a sequencer on which the actions `locked` were locked: those `released` by
their holder, then the one `running`, then the waiting ones are the locked ones, in order; and
the sequencer is held exactly while an action runs. -/
structure Ledger (s : Sequencer α) (locked released : List α) (running : Option α) : Prop where
  order : released ++ running.toList ++ s.queue = locked
  held : running.isSome = s.executing

theorem ledger_idle : Ledger (idle : Sequencer α) [] [] none := ⟨rfl, rfl⟩

/-- Locking `a` puts it last: it runs now if nothing runs, and waits otherwise. -/
theorem Ledger.lock {s : Sequencer α} {locked released : List α} {running : Option α}
    (h : Ledger s locked released running) (a : α) :
    Ledger (s.lock a).1 (locked ++ [a]) released ((s.lock a).2.or running) := by
  unfold Sequencer.lock
  cases hx : s.executing
  · -- Nothing runs and nothing waits: `a` runs now.
    have hnone : running = none := Option.not_isSome_iff_eq_none.1 (by rw [h.held, hx]; simp)
    have hq : s.queue = [] := queue_eq_nil_of_not_executing hx
    refine ⟨?_, rfl⟩
    have horder := h.order
    rw [hnone, hq] at horder
    rw [if_neg Bool.false_ne_true, Option.some_or, hq, ← horder]
    simp
  · -- `a` waits behind the queue.
    refine ⟨?_, ?_⟩
    · show released ++ (none.or running).toList ++ (s.queue ++ [a]) = locked ++ [a]
      rw [Option.none_or, ← h.order]
      simp only [List.append_assoc]
    · show (none.or running).isSome = true
      rw [Option.none_or, h.held, hx]

/-- The running action unlocks: it is released, and the oldest waiting action, if any, runs. -/
theorem Ledger.unlock {s : Sequencer α} {locked released : List α} {a : α}
    (h : Ledger s locked released (some a)) :
    Ledger s.unlock.1 locked (released ++ [a]) s.unlock.2 := by
  have horder := h.order
  unfold Sequencer.unlock
  split
  · next hq =>
    rw [hq] at horder
    exact ⟨by simpa using horder, rfl⟩
  · next b rest hq =>
    rw [hq] at horder
    exact ⟨by simpa using horder, rfl⟩

/-- Every action locked is released, running or waiting, and counted once. -/
theorem Ledger.length_eq {s : Sequencer α} {locked released : List α} {running : Option α}
    (h : Ledger s locked released running) :
    released.length + running.toList.length + s.queue.length = locked.length := by
  rw [← h.order, List.length_append, List.length_append]

/-- The actions are released in the order they were locked. -/
theorem Ledger.released_prefix {s : Sequencer α} {locked released : List α}
    {running : Option α} (h : Ledger s locked released running) : released <+: locked := by
  rw [← h.order, List.append_assoc]
  exact List.prefix_append _ _

end Sequencer

end Async
