import Mathlib.Data.List.Nodup
import BitprimNetwork.Core

/-!
# Broadcasting a message

`p2p::broadcast(message, handle_channel, handle_complete)` copies the collection of open
channels and sends the message on each of them. A join of bitprim-core in `on_count` mode wraps
`handle_complete`, with the number of channels copied as its count, and the send handler of
every channel, `p2p::handle_send`, calls `handle_channel` with the send's code and the channel,
then the join.

## The model

The channels are the indices `0, …, n - 1` of the copy. Each send completes once, with any code,
in any order; a completion of a send that has completed already, or of no send, does not come.
`calls` records the calls made to the caller's two handlers, in order. The join calls
`handle_complete` with a code of its own choosing, which src/ does not show, so the model records
only that `handle_complete` ran. The invariant `Inv` says what a broadcast has done once the sends
`done` have completed: their `handle_channel` calls in order, then `handle_complete` if they are
all `n` of them and there is at least one.

## What holds

In every run (`calls_run`) each channel's `handle_channel` comes at most once, with its send's
code, and `handle_complete` at most once, last. A run in which every send completes
(`calls_of_complete`) calls `handle_channel` once per channel and then, with at least one
channel, `handle_complete` once. With no channel the join is built with a count of zero: it is
cleared from the start, nothing calls it, and `handle_complete` is never called
(`broadcast_without_channels_never_completes`).
-/

namespace Network

open Async

/-- A call of `p2p::broadcast` to one of the caller's handlers. -/
inductive BroadcastCall where
  /-- `handle_channel(ec, channel)`, for the channel at index `channel` of the copy. -/
  | channel (channel : ℕ) (ec : Code)
  /-- `handle_complete`, with the code the join chooses. -/
  | complete
  deriving DecidableEq, Repr

/-- The send to the channel at index `channel` of the copy completes with `code`. -/
structure SendResult where
  /-- The channel's index in the copy. -/
  channel : ℕ
  /-- The send's code. -/
  code : Code
  deriving DecidableEq, Repr

/-- The `handle_channel` call for a completed send. -/
def SendResult.channelCall (r : SendResult) : BroadcastCall := .channel r.channel r.code

/-- A broadcast in progress. -/
structure Broadcast where
  /-- `join_handler`, around `handle_complete`. -/
  join : Join
  /-- The channels whose send has not completed. -/
  pending : List ℕ
  /-- The calls made to the caller's handlers, in order. -/
  calls : List BroadcastCall

/-- `p2p::broadcast` on a copy of `n` channels: the join counts `n` calls, and every channel has
a send in flight. -/
def broadcast (n : ℕ) : Broadcast := ⟨Join.start .onCount n, List.range n, []⟩

namespace Broadcast

/-- `p2p::handle_send` for the send to `channel`: `handle_channel`, then the join, which calls
`handle_complete` when it clears. -/
def handleSend (b : Broadcast) (channel : ℕ) (ec : Code) : Broadcast :=
  let r := b.join.call Code.success ec
  { b with
    join := r.1
    calls := b.calls ++ [.channel channel ec] ++ if r.2 then [.complete] else [] }

/-- A send completes; only one in flight does. -/
def step (b : Broadcast) (r : SendResult) : Broadcast :=
  if r.channel ∈ b.pending then
    { b.handleSend r.channel r.code with pending := b.pending.erase r.channel }
  else b

theorem step_of_not_pending {b : Broadcast} {r : SendResult} (hr : r.channel ∉ b.pending) :
    step b r = b :=
  if_neg hr

/-! ## The invariant -/

variable {n : ℕ}

/-- The broadcast to `n` channels after the sends `done` completed, in that order. -/
structure Inv (n : ℕ) (b : Broadcast) (done : List SendResult) : Prop where
  /-- Every channel has completed its send or has it in flight, and not both. -/
  perm : (done.map SendResult.channel ++ b.pending).Perm (List.range n)
  mode : b.join.mode = .onCount
  clearance : b.join.clearance = n
  counter : b.join.counter = done.length
  /-- `handle_channel` for each completed send, then `handle_complete` once all have. -/
  calls : b.calls = done.map SendResult.channelCall ++
    if done.length = n ∧ 0 < n then [.complete] else []

theorem inv_broadcast (n : ℕ) : Inv n (broadcast n) [] where
  perm := by
    rw [List.map_nil, List.nil_append]
    exact List.Perm.refl _
  mode := rfl
  clearance := rfl
  counter := rfl
  calls := by
    rw [List.map_nil, List.nil_append, List.length_nil]
    split_ifs with h
    · omega
    · rfl

theorem Inv.length_add {b : Broadcast} {done : List SendResult} (hb : Inv n b done) :
    done.length + b.pending.length = n := by
  have hlen := hb.perm.length_eq
  rw [List.length_append, List.length_map, List.length_range] at hlen
  exact hlen

/-- A send in flight completes: its `handle_channel` is called, and `handle_complete` too if it
is the last. -/
theorem inv_step_pending {b : Broadcast} {done : List SendResult} (hb : Inv n b done)
    {r : SendResult} (hr : r.channel ∈ b.pending) : Inv n (step b r) (done ++ [r]) := by
  have hlen := hb.length_add
  have hpos : 0 < b.pending.length := List.length_pos_of_mem hr
  have hopen : ¬b.join.cleared := by
    rw [Join.cleared_iff, hb.counter, hb.clearance]
    omega
  -- The join counts the call, and fires on the `n`-th.
  have hcall : (b.join.call Code.success r.code).1.counter = b.join.counter + 1 ∧
      (b.join.call Code.success r.code).2 = decide (b.join.counter + 1 = b.join.clearance) :=
    Join.call_of_not_terminal hopen (by rw [hb.mode]; rfl)
  unfold step
  rw [if_pos hr]
  constructor
  · rw [List.map_append, List.map_singleton, List.append_assoc, List.singleton_append]
    exact ((List.perm_cons_erase hr).symm.append_left _).trans hb.perm
  · exact (Join.call_mode _ _).trans hb.mode
  · exact (Join.call_clearance _ _).trans hb.clearance
  · show (b.join.call Code.success r.code).1.counter = (done ++ [r]).length
    rw [hcall.1, hb.counter, List.length_append, List.length_singleton]
  · show b.calls ++ [.channel r.channel r.code] ++
        (if (b.join.call Code.success r.code).2 then [BroadcastCall.complete] else []) = _
    rw [hb.calls, if_neg (by omega), List.append_nil, hcall.2, hb.counter, hb.clearance,
      List.map_append, List.map_singleton, List.length_append, List.length_singleton]
    by_cases hlast : done.length + 1 = n
    · rw [if_pos (decide_eq_true hlast), if_pos ⟨hlast, by omega⟩]
      rfl
    · rw [if_neg (by simpa using hlast), if_neg (fun h ↦ hlast h.1)]
      rfl

/-- **Every run.** The sends that completed, some of the events in order, are what the
broadcast has done. -/
theorem inv_run {b : Broadcast} {done : List SendResult} (hb : Inv n b done)
    (es : List SendResult) : ∃ t, t.Sublist es ∧ Inv n (run step b es) (done ++ t) := by
  induction es generalizing b done with
  | nil =>
    refine ⟨[], List.Sublist.refl _, ?_⟩
    rw [List.append_nil]
    exact hb
  | cons r es ih =>
    rw [run_cons]
    by_cases hr : r.channel ∈ b.pending
    · obtain ⟨t, ht, hinv⟩ := ih (inv_step_pending hb hr)
      refine ⟨r :: t, ht.cons_cons r, ?_⟩
      rw [← List.singleton_append, ← List.append_assoc]
      exact hinv
    · rw [step_of_not_pending hr]
      obtain ⟨t, ht, hinv⟩ := ih hb
      exact ⟨t, ht.cons r, hinv⟩

/-- A run whose sends are to distinct channels of the copy, none completed yet, completes every
one of them. -/
theorem inv_run_of_nodup {b : Broadcast} {done : List SendResult} (hb : Inv n b done)
    {es : List SendResult} (hnodup : ((done ++ es).map SendResult.channel).Nodup)
    (hlt : ∀ r ∈ es, r.channel < n) : Inv n (run step b es) (done ++ es) := by
  induction es generalizing b done with
  | nil =>
    rw [List.append_nil]
    exact hb
  | cons r es ih =>
    rw [run_cons]
    -- The send to `r.channel` is in flight: the channel is in the copy, and has not completed.
    have hr : r.channel ∈ b.pending := by
      have hmem : r.channel ∈ done.map SendResult.channel ++ b.pending :=
        hb.perm.mem_iff.2 (List.mem_range.2 (hlt r List.mem_cons_self))
      have hnew : r.channel ∉ done.map SendResult.channel := by
        rw [List.map_append, List.map_cons, List.nodup_middle, List.nodup_cons] at hnodup
        exact fun h ↦ hnodup.1 (List.mem_append_left _ h)
      exact (List.mem_append.1 hmem).resolve_left hnew
    have hinv := ih (inv_step_pending hb hr)
      (by rwa [List.append_assoc, List.singleton_append])
      (fun r' hr' ↦ hlt r' (List.mem_cons_of_mem _ hr'))
    rwa [List.append_assoc, List.singleton_append] at hinv

/-! ## The handler calls -/

/-- **The calls of any run.** Whatever completions come, the handler calls are `handle_channel`
for some of them in order, each to a distinct channel of the copy, then `handle_complete` once
if there were `n`, and at least one. -/
theorem calls_run (n : ℕ) (es : List SendResult) :
    ∃ done : List SendResult, done.Sublist es ∧ (done.map SendResult.channel).Nodup ∧
      (∀ r ∈ done, r.channel < n) ∧
      (run step (broadcast n) es).calls = done.map SendResult.channelCall ++
        if done.length = n ∧ 0 < n then [.complete] else [] := by
  obtain ⟨done, hsub, hinv⟩ := inv_run (inv_broadcast n) es
  rw [List.nil_append] at hinv
  have hnodup : (done.map SendResult.channel ++ (run step (broadcast n) es).pending).Nodup :=
    hinv.perm.nodup_iff.2 List.nodup_range
  refine ⟨done, hsub, hnodup.sublist (List.sublist_append_left _ _), ?_, hinv.calls⟩
  intro r hr
  have hmem : r.channel ∈ List.range n :=
    hinv.perm.subset (List.mem_append_left _ (List.mem_map_of_mem hr))
  exact List.mem_range.1 hmem

/-- **A run in which every send completes.** The handler calls are `handle_channel` for each
channel, in the order the sends completed and each with its send's code, then `handle_complete`
once; with no channel there is no call at all. -/
theorem calls_of_complete {es : List SendResult}
    (hes : (es.map SendResult.channel).Perm (List.range n)) :
    (run step (broadcast n) es).calls =
      es.map SendResult.channelCall ++ if 0 < n then [.complete] else [] := by
  have hnodup : (es.map SendResult.channel).Nodup := hes.nodup_iff.2 List.nodup_range
  have hlt : ∀ r ∈ es, r.channel < n :=
    fun r hr ↦ List.mem_range.1 (hes.subset (List.mem_map_of_mem hr))
  have hinv := inv_run_of_nodup (inv_broadcast n) (by rwa [List.nil_append]) hlt
  rw [List.nil_append] at hinv
  have hlen : es.length = n := by
    have := hes.length_eq
    rwa [List.length_map, List.length_range] at this
  rw [hinv.calls]
  simp only [hlen, true_and]

theorem calls_of_complete_two :
    List.Perm (([⟨1, .success⟩, ⟨0, .channelStopped⟩] : List SendResult).map SendResult.channel)
        (List.range 2) ∧
      (run step (broadcast 2) [⟨1, .success⟩, ⟨0, .channelStopped⟩]).calls =
        ([⟨1, .success⟩, ⟨0, .channelStopped⟩] : List SendResult).map SendResult.channelCall ++
          if 0 < 2 then [.complete] else [] := by
  have hes : List.Perm (([⟨1, .success⟩, ⟨0, .channelStopped⟩] : List SendResult).map
      SendResult.channel) (List.range 2) := by decide
  exact ⟨hes, calls_of_complete hes⟩

/-- **No channel, no completion.** Broadcast to an empty copy, `handle_complete` is never called,
whatever happens next. -/
theorem broadcast_without_channels_never_completes (es : List SendResult) :
    (run step (broadcast 0) es).calls = [] := by
  obtain ⟨done, -, -, hlt, hcalls⟩ := calls_run 0 es
  have hnil : done = [] :=
    List.eq_nil_iff_forall_not_mem.2 fun r hr ↦ Nat.not_lt_zero _ (hlt r hr)
  rw [hcalls, hnil]
  rfl

end Broadcast

end Network
