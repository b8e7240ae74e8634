import BitprimNetwork.Core
import BitprimNetwork.Data.CircularBuffer

/-!
# The host pool

`hosts` keeps the addresses the node may connect to in a circular buffer of
`capacity_ = min(max_address, host_pool_capacity)` entries; a capacity of zero disables it, and
the buffer itself then gets one slot because a circular buffer cannot have none. `start` loads
the hosts file, one authority per line, `stop` saves it and clears the buffer, `store` adds an
address and `store(list)` a sample of a peer's addresses, `remove` drops one, and the two
`fetch` calls read the pool. Two entries are the same host when their ip and port agree, which
is what `hosts::find` compares.

The header promises that duplicate addresses are discarded. `store`, `store(list)` and `remove`
keep that promise (`keysNodup_step`), but `start` pushes every line of the file without looking
for it in the buffer, so a file that names a host twice, or a file loaded onto a buffer that a
failed `stop` left full, puts duplicates in the pool; a `remove` then leaves a copy behind.
-/

namespace Network

/-- `message::network_address`. -/
structure NetworkAddress where
  /-- When the address was last seen. -/
  timestamp : ℕ
  /-- The services the address advertises. -/
  services : ℕ
  /-- The ip address, as a number. -/
  ip : ℕ
  /-- The port. -/
  port : ℕ
  deriving DecidableEq, Repr

/-- What `hosts::find` compares: the ip and the port. -/
def NetworkAddress.key (a : NetworkAddress) : ℕ × ℕ := (a.ip, a.port)

/-- `authority::to_network_address()`: no timestamp and no services. -/
def Authority.toNetworkAddress (a : Authority) : NetworkAddress := ⟨0, 0, a.ip, a.port⟩

/-- bitprim-core's `max_address`, the most addresses one message may carry. -/
def maxAddress : ℕ := 1000

/-- The host pool, for `capacity_ = capacity`. The buffer has `max(capacity_, 1)` slots. -/
structure Hosts (capacity : ℕ) where
  /-- `buffer_`. -/
  buffer : CircularBuffer NetworkAddress
  /-- `stopped_`. -/
  stopped : Bool
  buffer_capacity : buffer.capacity = max capacity 1

namespace Hosts

variable {c : ℕ}

/-- The pool that `hosts(settings)` constructs: empty and stopped. -/
def create (hostPoolCapacity : ℕ) : Hosts (min maxAddress hostPoolCapacity) where
  buffer := CircularBuffer.empty (max (min maxAddress hostPoolCapacity) 1) (by omega)
  stopped := true
  buffer_capacity := rfl

/-- The same pool with a buffer of the same capacity. -/
def withBuffer (h : Hosts c) (b : CircularBuffer NetworkAddress)
    (hb : b.capacity = h.buffer.capacity) : Hosts c :=
  ⟨b, h.stopped, hb.trans h.buffer_capacity⟩

/-- `disabled_`. -/
def disabled (_ : Hosts c) : Bool := c == 0

/-- `find(host) != buffer_.end()`. -/
def found (b : CircularBuffer NetworkAddress) (a : NetworkAddress) : Bool :=
  b.items.any (·.key == a.key)

/-- The body that `store` and `store(list)` share: push the address unless it is found. -/
def insertNew (b : CircularBuffer NetworkAddress) (a : NetworkAddress) :
    CircularBuffer NetworkAddress :=
  if found b a then b else b.pushBack a

/-- The lines of the hosts file pushed by `start`: those with a nonzero port, unchecked. -/
def loadLines (b : CircularBuffer NetworkAddress) (lines : List Authority) :
    CircularBuffer NetworkAddress :=
  lines.foldl (fun b host ↦ if host.port ≠ 0 then b.pushBack host.toNetworkAddress else b) b

@[simp] theorem insertNew_capacity (b : CircularBuffer NetworkAddress) (a : NetworkAddress) :
    (insertNew b a).capacity = b.capacity := by
  unfold insertNew; split_ifs <;> simp

theorem loadLines_capacity (b : CircularBuffer NetworkAddress) (lines : List Authority) :
    (loadLines b lines).capacity = b.capacity := by
  induction lines generalizing b with
  | nil => rfl
  | cons host lines ih =>
    simp only [loadLines, List.foldl_cons] at ih ⊢
    rw [ih]
    split_ifs <;> simp

/-- `hosts::start()` on what the file stream gave: `none` when it is bad, otherwise its lines
parsed as authorities. A bad stream still leaves the pool started. -/
def start (h : Hosts c) (file : Option (List Authority)) : Code × Hosts c :=
  if h.disabled then (.success, h)
  else if !h.stopped then (.operationFailed, h)
  else
    match file with
    | none => (.fileSystem, { h with stopped := false })
    | some lines =>
      (.success, { h.withBuffer (loadLines h.buffer lines) (loadLines_capacity _ _) with
        stopped := false })

/-- `hosts::stop()`, with whether the output stream is bad. A bad stream leaves the buffer as
it is. -/
def stop (h : Hosts c) (fileBad : Bool) : Code × Hosts c :=
  if h.disabled then (.success, h)
  else if h.stopped then (.success, h)
  else if fileBad then (.fileSystem, { h with stopped := true })
  else (.success, { h.withBuffer h.buffer.clear rfl with stopped := true })

/-- `hosts::remove(host)`: the first entry found goes. -/
def remove (h : Hosts c) (a : NetworkAddress) : Code × Hosts c :=
  if h.disabled then (.notFound, h)
  else if h.stopped then (.serviceStopped, h)
  else if found h.buffer a then
    (.success, h.withBuffer (h.buffer.eraseFirst (·.key == a.key)) rfl)
  else (.notFound, h)

section Store

variable (isValid : NetworkAddress → Bool)

/-- `hosts::store(host)`; `isValid` is bitprim-core's `network_address::is_valid`. Neither an
invalid nor a known address is an error. -/
def store (h : Hosts c) (a : NetworkAddress) : Code × Hosts c :=
  if h.disabled then (.success, h)
  else if !isValid a then (.success, h)
  else if h.stopped then (.serviceStopped, h)
  else (.success, h.withBuffer (insertNew h.buffer a) (insertNew_capacity _ _))

/-- The indices `store(list)` visits: from 0 in steps of `step` while below `usable`. -/
def sampleIndices (usable step : ℕ) : List ℕ :=
  List.range' 0 ((usable + step - 1) / step) step

/-- The loop of `store(list)` over the sampled addresses. -/
def storeSample (b : CircularBuffer NetworkAddress) (hosts : List NetworkAddress)
    (indices : List ℕ) : CircularBuffer NetworkAddress :=
  indices.foldl (fun b i ↦
    match hosts[i]? with
    | some a => if !isValid a then b else insertNew b a
    | none => b) b

theorem storeSample_capacity (b : CircularBuffer NetworkAddress) (hosts : List NetworkAddress)
    (indices : List ℕ) : (storeSample isValid b hosts indices).capacity = b.capacity := by
  induction indices generalizing b with
  | nil => rfl
  | cons i indices ih =>
    simp only [storeSample, List.foldl_cons] at ih ⊢
    rw [ih]
    split
    · split_ifs <;> simp
    · rfl

/-- `hosts::store(list, handler)`, with the draw `random` of `pseudo_random::next(1, usable)`;
the result is the code the handler receives. -/
def storeList (h : Hosts c) (hosts : List NetworkAddress) (random : ℕ) : Code × Hosts c :=
  if h.disabled || hosts.isEmpty then (.success, h)
  else if h.stopped then (.serviceStopped, h)
  else
    -- Accept between 1 and all of the peer's addresses, but at least as many as are missing.
    let usable := min hosts.length h.buffer.capacity
    let accept := max (h.buffer.capacity - h.buffer.size) random
    let step := max (usable / accept) 1
    (.success, h.withBuffer (storeSample isValid h.buffer hosts (sampleIndices usable step))
      (storeSample_capacity _ _ _ _))

end Store

/-- `hosts::count()`. -/
def count (h : Hosts c) : ℕ := h.buffer.size

/-- `hosts::fetch(out)`, with the draw `index` of `pseudo_random::next(0, size - 1)`. -/
def fetch (h : Hosts c) (index : ℕ) : Code × Option NetworkAddress :=
  if h.disabled then (.notFound, none)
  else if h.stopped then (.serviceStopped, none)
  else if h.buffer.items.isEmpty then (.notFound, none)
  else (.success, h.buffer.items[index]?)

/-- `hosts::fetch(out_list)`, with the draw `divisor` of `pseudo_random::next(1, 20)`: the
first entries, before `pseudo_random::shuffle` permutes them. -/
def fetchList (h : Hosts c) (divisor : ℕ) : Code × List NetworkAddress :=
  if h.disabled then (.notFound, [])
  else if h.stopped then (.serviceStopped, [])
  else if h.buffer.items.isEmpty then (.notFound, [])
  else (.success, h.buffer.items.take (min h.buffer.size c / divisor))

/-! ## Runs of host operations -/

/-- The calls a run of the pool is made of, with every outcome the code leaves open. -/
inductive Event where
  | start (file : Option (List Authority))
  | stop (fileBad : Bool)
  | store (a : NetworkAddress)
  | storeList (hosts : List NetworkAddress) (random : ℕ)
  | remove (a : NetworkAddress)
  | fetch (index : ℕ)
  | fetchList (divisor : ℕ)

/-- One call; the fetches leave the pool as it is. -/
def step (isValid : NetworkAddress → Bool) (h : Hosts c) : Event → Hosts c
  | .start file => (h.start file).2
  | .stop fileBad => (h.stop fileBad).2
  | .store a => (h.store isValid a).2
  | .storeList hosts random => (h.storeList isValid hosts random).2
  | .remove a => (h.remove a).2
  | .fetch _ => h
  | .fetchList _ => h

/-! ## Starting and stopping -/

/-- `hosts::start()` leaves the pool running, unless it is disabled. -/
theorem start_running (h : Hosts c) (file : Option (List Authority)) :
    (h.start file).2.stopped = false ∨ h.disabled = true := by
  unfold start
  split_ifs with hdis hrun
  · exact .inr hdis
  · exact .inl (by simpa using hrun)
  · cases file <;> exact .inl rfl

/-! ## Duplicates -/

/-- No two entries of the pool are the same host. -/
def KeysNodup (h : Hosts c) : Prop := h.buffer.KeysNodup NetworkAddress.key

theorem keysNodup_insertNew {b : CircularBuffer NetworkAddress}
    (hb : b.KeysNodup NetworkAddress.key) (a : NetworkAddress) :
    (insertNew b a).KeysNodup NetworkAddress.key := by
  unfold insertNew
  split_ifs with hf
  · exact hb
  · refine CircularBuffer.keysNodup_pushBack _ hb fun y hy hyk ↦ hf ?_
    simp only [found, List.any_eq_true, beq_iff_eq]
    exact ⟨y, hy, hyk⟩

theorem keysNodup_storeSample (isValid : NetworkAddress → Bool) (hosts : List NetworkAddress)
    (indices : List ℕ) {b : CircularBuffer NetworkAddress} (hb : b.KeysNodup NetworkAddress.key) :
    (storeSample isValid b hosts indices).KeysNodup NetworkAddress.key := by
  induction indices generalizing b with
  | nil => exact hb
  | cons i indices ih =>
    simp only [storeSample, List.foldl_cons] at ih ⊢
    apply ih
    split
    · split_ifs
      · exact hb
      · exact keysNodup_insertNew hb _
    · exact hb

/-- **Every call but `start` keeps the hosts distinct.** -/
theorem keysNodup_step (isValid : NetworkAddress → Bool) {h : Hosts c} (hh : h.KeysNodup)
    {e : Event} (he : ∀ file, e ≠ .start file) : (step isValid h e).KeysNodup := by
  cases e with
  | start file => exact absurd rfl (he file)
  | stop fileBad =>
    simp only [step, stop]
    split_ifs
    · exact hh
    · exact hh
    · exact hh
    · exact CircularBuffer.keysNodup_clear _ _
  | store a =>
    simp only [step, store]
    split_ifs
    · exact hh
    · exact hh
    · exact hh
    · exact keysNodup_insertNew hh a
  | storeList hosts random =>
    simp only [step, storeList]
    split_ifs
    · exact hh
    · exact hh
    · exact keysNodup_storeSample isValid hosts _ hh
  | remove a =>
    simp only [step, remove]
    split_ifs
    · exact hh
    · exact hh
    · exact CircularBuffer.keysNodup_eraseFirst _ hh _
    · exact hh
  | fetch index => exact hh
  | fetchList divisor => exact hh

/-- A run that does not `start` the pool keeps its hosts distinct. -/
theorem keysNodup_run (isValid : NetworkAddress → Bool) {h : Hosts c} (hh : h.KeysNodup)
    (es : List Event) (hes : ∀ file, .start file ∉ es) :
    (Async.run (step isValid) h es).KeysNodup :=
  (Async.run_invariant_of_mem (I := KeysNodup) _ es
    (fun _ _ he hx ↦ keysNodup_step isValid hx fun file hfile ↦ hes file (hfile ▸ he)) hh)

theorem keysNodup_run_store :
    (create 1000).KeysNodup ∧ (∀ file, Event.start file ∉ [.store ⟨0, 1, 0x7f000001, 8333⟩]) ∧
      (Async.run (step fun _ ↦ true) (create 1000) [.store ⟨0, 1, 0x7f000001, 8333⟩]).KeysNodup := by
  have hh : (create 1000).KeysNodup := CircularBuffer.keysNodup_empty _ _ _
  have hes : ∀ file, Event.start file ∉ [.store ⟨0, 1, 0x7f000001, 8333⟩] := by simp
  exact ⟨hh, hes, keysNodup_run _ hh _ hes⟩

/-- `remove` reports success only when it erased the host, and on a pool without duplicates no
entry with the host's ip and port remains. -/
theorem remove_success_key_ne {h : Hosts c} (hh : h.KeysNodup) {a : NetworkAddress}
    (hs : (h.remove a).1 = .success) : ∀ y ∈ (h.remove a).2.buffer.items, y.key ≠ a.key := by
  unfold remove at hs ⊢
  split_ifs at hs ⊢
  exact CircularBuffer.eraseFirst_key_ne _ hh a.key

/-! ## Storing a peer's addresses

`store(list)` reads a sample of the peer's addresses: `usable` of them at most, every `step`-th
from the first, where `step` is how many there are per address it means to `accept`. The loop
advances with `ceiling_add`, so it ends even where `index + step` would overflow. Its body is
`insertNew`, and the batch being no longer than the buffer, no address it pushes is evicted by a
later one: every valid address read that the pool did not hold is there at the end. An address
the pool *did* hold can be evicted, by the pushes of the same batch. -/

/-- The largest `size_t`, `2 ^ 64 - 1`. -/
def sizeMax : ℕ := 18446744073709551615

/-- bitprim-core's `ceiling_add`: `size_t` addition that saturates at the largest value. -/
def ceilingAdd (left right : ℕ) : ℕ :=
  if left > sizeMax - right then sizeMax else left + right

/-- The `for` loop of `store(list)`: the indices it reads from `index` on, while below `usable`,
advancing by `ceiling_add(index, step)`; `none` if it has not ended within `fuel` turns. -/
def sampleLoop (usable step : ℕ) : ℕ → ℕ → Option (List ℕ)
  | 0, _ => none
  | fuel + 1, index =>
    if index < usable then (sampleLoop usable step fuel (ceilingAdd index step)).map (index :: ·)
    else some []

/-- `usable` of `store(list)`: the peer's addresses, up to the buffer's capacity. -/
def usable (h : Hosts c) (hosts : List NetworkAddress) : ℕ := min hosts.length h.buffer.capacity

/-- `accept` of `store(list)`: the draw, but at least the buffer's gap. -/
def accept (h : Hosts c) (random : ℕ) : ℕ := max (h.buffer.capacity - h.buffer.size) random

/-- `step` of `store(list)`: addresses per address accepted, at least one. -/
def sampleStep (h : Hosts c) (hosts : List NetworkAddress) (random : ℕ) : ℕ :=
  max (h.usable hosts / h.accept random) 1

/-- The number of visits from `index`: one, then those from `index + step`. -/
theorem visits_succ {usable step index : ℕ} (hstep : 0 < step) (h : index < usable) :
    (usable - index + step - 1) / step = (usable - (index + step) + step - 1) / step + 1 := by
  by_cases hfar : index + step < usable
  · rw [show usable - index + step - 1 = (usable - (index + step) + step - 1) + step by omega,
      Nat.add_div_right _ hstep]
  · -- The last visit: `index + step` is past the end.
    have hone : (usable - index + step - 1) / step = 1 := Nat.div_eq_of_lt_le (by omega) (by omega)
    have hzero : (usable - (index + step) + step - 1) / step = 0 := Nat.div_eq_of_lt (by omega)
    rw [hone, hzero]

/-- **The loop ends.** From any `index`, with more turns than visits left, the loop reads every
`step`-th index below `usable`; `ceiling_add` saturating past `usable` ends it too. -/
theorem sampleLoop_eq {usable step : ℕ} (hstep : 0 < step) (husable : usable ≤ sizeMax) :
    ∀ fuel index, (usable - index + step - 1) / step < fuel →
      sampleLoop usable step fuel index =
        some (List.range' index ((usable - index + step - 1) / step) step) := by
  intro fuel
  induction fuel with
  | zero =>
    intro index hfuel
    exact absurd hfuel (Nat.not_lt_zero _)
  | succ fuel ih =>
    intro index hfuel
    rw [sampleLoop]
    split_ifs with hlt
    · rw [visits_succ hstep hlt] at hfuel ⊢
      rw [List.range'_succ]
      unfold ceilingAdd
      split_ifs with hsat
      · -- `ceiling_add` saturates: `index` is the last index read.
        have hlast : (usable - (index + step) + step - 1) / step = 0 := Nat.div_eq_of_lt (by omega)
        rw [hlast] at hfuel ⊢
        obtain ⟨fuel, rfl⟩ : ∃ f, fuel = f + 1 := ⟨fuel - 1, by omega⟩
        rw [sampleLoop, if_neg (by omega)]
        rfl
      · rw [ih (index + step) (by omega)]
        rfl
    · have hnone : (usable - index + step - 1) / step = 0 := Nat.div_eq_of_lt (by omega)
      rw [hnone]
      rfl

/-- The loop reads at most `usable` indices. -/
theorem length_sampleIndices_le {usable step : ℕ} (hstep : 0 < step) :
    (sampleIndices usable step).length ≤ usable := by
  have hle : usable ≤ usable * step := Nat.le_mul_of_pos_right usable hstep
  rw [sampleIndices, List.length_range', ← Nat.lt_succ_iff, Nat.div_lt_iff_lt_mul hstep,
    Nat.succ_mul]
  omega

/-- The loop run from 0 with `usable + 1` turns reads exactly `sampleIndices`. -/
theorem sampleLoop_sampleIndices {usable step : ℕ} (hstep : 0 < step) (husable : usable ≤ sizeMax) :
    sampleLoop usable step (usable + 1) 0 = some (sampleIndices usable step) := by
  have hvisits : (usable - 0 + step - 1) / step < usable + 1 := by
    have hlen : (sampleIndices usable step).length ≤ usable := length_sampleIndices_le hstep
    rw [sampleIndices, List.length_range'] at hlen
    rw [Nat.sub_zero]
    omega
  rw [sampleLoop_eq hstep husable _ _ hvisits, sampleIndices, Nat.sub_zero]

theorem lt_of_mem_sampleIndices {usable step i : ℕ} (hstep : 0 < step)
    (hi : i ∈ sampleIndices usable step) : i < usable := by
  obtain ⟨j, hj, rfl⟩ := List.mem_range'.1 hi
  have hle : (j + 1) * step ≤ usable + step - 1 := (Nat.le_div_iff_mul_le hstep).1 hj
  rw [Nat.add_mul, Nat.one_mul] at hle
  rw [Nat.zero_add, Nat.mul_comm]
  omega

/-- The addresses the loop reads are no more than the buffer holds. -/
theorem length_filterMap_sampleIndices_le (h : Hosts c) (hosts : List NetworkAddress) {step : ℕ}
    (hstep : 0 < step) (f : ℕ → Option NetworkAddress) :
    ((sampleIndices (h.usable hosts) step).filterMap f).length ≤ h.buffer.capacity :=
  calc ((sampleIndices (h.usable hosts) step).filterMap f).length
      ≤ (sampleIndices (h.usable hosts) step).length := List.length_filterMap_le _ _
    _ ≤ h.usable hosts := length_sampleIndices_le hstep
    _ ≤ h.buffer.capacity := Nat.min_le_right _ _

/-- The loop reads at least `min(accept, usable)` indices: "always accept at least the amount we
are short if available". -/
theorem min_le_length_sampleIndices {usable accept : ℕ} (haccept : 0 < accept) :
    min accept usable ≤ (sampleIndices usable (max (usable / accept) 1)).length := by
  rw [sampleIndices, List.length_range']
  by_cases hlt : accept < usable
  · -- `step = usable / accept`, and `accept` steps fit below `usable`.
    have hq : 1 ≤ usable / accept := (Nat.one_le_div_iff haccept).2 (Nat.le_of_lt hlt)
    have hfit := Nat.mul_div_le usable accept
    rw [Nat.max_eq_left hq]
    have hacc : accept ≤ (usable + usable / accept - 1) / (usable / accept) :=
      (Nat.le_div_iff_mul_le (by omega)).2 (by omega)
    omega
  · -- `step = 1`: every index below `usable` is read.
    have hq : usable / accept ≤ 1 := Nat.div_le_of_le_mul (by omega)
    rw [Nat.max_eq_right hq, Nat.div_one]
    omega

theorem found_iff {b : CircularBuffer NetworkAddress} {a : NetworkAddress} :
    found b a = true ↔ ∃ y ∈ b.items, y.key = a.key := by
  simp only [found, List.any_eq_true, beq_iff_eq]

/-- A run of `insertNew` pushes some of its addresses, no more than it is given, and every
address it is given was held before or is the key of one it pushed. -/
theorem foldl_insertNew_pushes (b : CircularBuffer NetworkAddress) (as : List NetworkAddress) :
    ∃ ps : List NetworkAddress, ps.length ≤ as.length ∧
      (as.foldl insertNew b).items = (ps.foldl CircularBuffer.pushBack b).items ∧
      ∀ a ∈ as, found b a = true ∨ ∃ p ∈ ps, p.key = a.key := by
  induction as generalizing b with
  | nil => exact ⟨[], Nat.le_refl _, rfl, fun a ha ↦ absurd ha List.not_mem_nil⟩
  | cons a as ih =>
    rw [List.foldl_cons]
    by_cases hf : found b a
    · -- `a` is held: nothing is pushed for it.
      have hb : insertNew b a = b := if_pos hf
      obtain ⟨ps, hlen, hitems, hfound⟩ := ih b
      refine ⟨ps, ?_, by rw [hb]; exact hitems, ?_⟩
      · rw [List.length_cons]
        omega
      · intro x hx
        rcases List.mem_cons.1 hx with rfl | hx
        · exact .inl hf
        · exact hfound x hx
    · have hb : insertNew b a = b.pushBack a := if_neg hf
      obtain ⟨ps, hlen, hitems, hfound⟩ := ih (b.pushBack a)
      refine ⟨a :: ps, ?_, by rw [hb, hitems]; rfl, ?_⟩
      · rw [List.length_cons, List.length_cons]
        omega
      · intro x hx
        rcases List.mem_cons.1 hx with rfl | hx
        · exact .inr ⟨x, List.mem_cons_self, rfl⟩
        · rcases hfound x hx with hx' | ⟨p, hp, hpk⟩
          · -- Held after the push: it is `a`, or it was held before.
            obtain ⟨y, hy, hyk⟩ := found_iff.1 hx'
            rcases CircularBuffer.mem_pushBack hy with rfl | hy
            · exact .inr ⟨y, List.mem_cons_self, hyk⟩
            · exact .inl (found_iff.2 ⟨y, hy, hyk⟩)
          · exact .inr ⟨p, List.mem_cons_of_mem _ hp, hpk⟩

/-- **No address of a batch evicts another.** A run of `insertNew` no longer than the buffer
leaves every address it was given and the buffer did not hold in the buffer. -/
theorem found_foldl_insertNew {b : CircularBuffer NetworkAddress} {as : List NetworkAddress}
    (hlen : as.length ≤ b.capacity) {a : NetworkAddress} (ha : a ∈ as)
    (hnew : found b a = false) : found (as.foldl insertNew b) a = true := by
  obtain ⟨ps, hps, hitems, hfound⟩ := foldl_insertNew_pushes b as
  obtain ⟨p, hp, hpk⟩ := (hfound a ha).resolve_left (by rw [hnew]; exact Bool.false_ne_true)
  have hsuffix : ps <:+ (ps.foldl CircularBuffer.pushBack b).items :=
    CircularBuffer.suffix_foldl_pushBack (by omega)
  rw [found_iff, hitems]
  exact ⟨p, hsuffix.subset hp, hpk⟩

/-- `insertNew` gives no key a second entry. -/
theorem count_insertNew (b : CircularBuffer NetworkAddress) (a : NetworkAddress) (k : ℕ × ℕ) :
    ((insertNew b a).items.map NetworkAddress.key).count k ≤
      max ((b.items.map NetworkAddress.key).count k) 1 := by
  unfold insertNew
  split_ifs with hf
  · exact Nat.le_max_left _ _
  · obtain ⟨l, hl, heq⟩ := CircularBuffer.pushBack_items b a
    have hsub : (l.map NetworkAddress.key).count k ≤ (b.items.map NetworkAddress.key).count k :=
      (hl.map _).count_le k
    rw [heq, List.map_append, List.count_append, List.map_singleton, List.count_singleton]
    split_ifs with hk
    · -- The pushed key is new, so it was nowhere in the buffer.
      have hzero : (b.items.map NetworkAddress.key).count k = 0 := by
        rw [List.count_eq_zero]
        intro hmem
        obtain ⟨y, hy, hyk⟩ := List.mem_map.1 hmem
        exact hf (found_iff.2 ⟨y, hy, hyk.trans (beq_iff_eq.1 hk).symm⟩)
      omega
    · omega

theorem count_foldl_insertNew (b : CircularBuffer NetworkAddress) (as : List NetworkAddress)
    (k : ℕ × ℕ) :
    ((as.foldl insertNew b).items.map NetworkAddress.key).count k ≤
      max ((b.items.map NetworkAddress.key).count k) 1 := by
  induction as generalizing b with
  | nil => exact Nat.le_max_left _ _
  | cons a as ih =>
    rw [List.foldl_cons]
    have hstep := count_insertNew b a k
    have hrest := ih (insertNew b a)
    omega

section Store

variable (isValid : NetworkAddress → Bool)

/-- The loop of `store(list)` is a run of `insertNew` over the valid addresses it reads. -/
theorem storeSample_eq_foldl (b : CircularBuffer NetworkAddress) (hosts : List NetworkAddress)
    (indices : List ℕ) :
    storeSample isValid b hosts indices =
      (indices.filterMap fun i ↦ hosts[i]?.filter isValid).foldl insertNew b := by
  induction indices generalizing b with
  | nil => rfl
  | cons i indices ih =>
    rw [List.filterMap_cons]
    simp only [storeSample, List.foldl_cons] at ih ⊢
    rcases hi : hosts[i]? with _ | a
    · exact ih b
    · rw [Option.filter_some]
      by_cases hv : isValid a
      · rw [if_pos hv, List.foldl_cons, ← ih]
        simp [hv]
      · rw [if_neg hv, ← ih]
        simp [hv]

theorem storeList_of_running {h : Hosts c} (hc : c ≠ 0) (hrun : h.stopped = false)
    {hosts : List NetworkAddress} (hne : hosts ≠ []) (random : ℕ) :
    h.storeList isValid hosts random =
      (.success, h.withBuffer (storeSample isValid h.buffer hosts
        (sampleIndices (h.usable hosts) (h.sampleStep hosts random))) (storeSample_capacity _ _ _ _)) := by
  have hd : h.disabled = false := by simp [disabled, hc]
  have he : hosts.isEmpty = false := List.isEmpty_eq_false_iff.2 hne
  unfold storeList
  rw [if_neg (by simp [hd, he]), if_neg (by simp [hrun])]
  rfl

/-- On a running, enabled pool, `store(list)` leaves the buffer a run of `insertNew` over the
valid addresses at the sampled indices. -/
theorem storeList_buffer_of_running {h : Hosts c} (hc : c ≠ 0) (hrun : h.stopped = false)
    {hosts : List NetworkAddress} (hne : hosts ≠ []) (random : ℕ) :
    (h.storeList isValid hosts random).2.buffer =
      ((sampleIndices (h.usable hosts) (h.sampleStep hosts random)).filterMap
        fun i ↦ hosts[i]?.filter isValid).foldl insertNew h.buffer := by
  rw [storeList_of_running isValid hc hrun hne random]
  exact storeSample_eq_foldl isValid _ _ _

/-- What `store(list)` does on a running, enabled pool. -/
structure StoresSample (h : Hosts c) (hosts : List NetworkAddress) (random : ℕ) : Prop where
  /-- `capacity - size()` does not wrap around. -/
  size_le : h.buffer.size ≤ h.buffer.capacity
  /-- `usable / accept` divides by a positive number. -/
  accept_pos : 0 < h.accept random
  /-- The `for` loop ends, having read the sampled indices. -/
  loop_ends : sampleLoop (h.usable hosts) (h.sampleStep hosts random) (h.usable hosts + 1) 0 =
    some (sampleIndices (h.usable hosts) (h.sampleStep hosts random))
  /-- Every index read is an index of the peer's list. -/
  index_lt : ∀ i ∈ sampleIndices (h.usable hosts) (h.sampleStep hosts random), i < hosts.length
  /-- The indices read are distinct, ... -/
  nodup : (sampleIndices (h.usable hosts) (h.sampleStep hosts random)).Nodup
  /-- ... and at least `min(accept, usable)` of them. -/
  length_ge :
    min (h.accept random) (h.usable hosts) ≤
      (sampleIndices (h.usable hosts) (h.sampleStep hosts random)).length
  /-- Every valid address read that the pool did not hold is in it afterwards. -/
  stores_new : ∀ i ∈ sampleIndices (h.usable hosts) (h.sampleStep hosts random), ∀ a,
    hosts[i]? = some a → isValid a = true → found h.buffer a = false →
      found (h.storeList isValid hosts random).2.buffer a = true
  /-- No key gains a second entry. -/
  count_le : ∀ k, ((h.storeList isValid hosts random).2.buffer.items.map NetworkAddress.key).count k ≤
    max ((h.buffer.items.map NetworkAddress.key).count k) 1
  /-- The handler is called with success. -/
  code : (h.storeList isValid hosts random).1 = .success

/-- **`store(list)` on a running pool.** For every list the peer sends, every buffer of a
running, enabled pool and every draw from 1 on, `store(list)` reads a spread of at least
`min(accept, usable)` distinct indices in range, in a loop that ends; it keeps every valid
address it reads that the pool did not hold, gives no host a second entry, and calls its
handler with success. -/
theorem storeList_storesSample {hostPoolCapacity : ℕ} (h : Hosts (min maxAddress hostPoolCapacity))
    (henabled : min maxAddress hostPoolCapacity ≠ 0) (hrun : h.stopped = false)
    {hosts : List NetworkAddress} (hne : hosts ≠ []) {random : ℕ} (hrandom : 0 < random) :
    StoresSample isValid h hosts random := by
  have hcap : h.buffer.capacity = min maxAddress hostPoolCapacity := by
    rw [h.buffer_capacity]
    omega
  have hsize : maxAddress ≤ sizeMax := by decide
  have husable : h.usable hosts ≤ sizeMax := by
    have := Nat.min_le_right hosts.length h.buffer.capacity
    have := Nat.min_le_left maxAddress hostPoolCapacity
    unfold usable
    omega
  have haccept : 0 < h.accept random := by
    unfold accept
    omega
  have hstep : 0 < h.sampleStep hosts random := by
    unfold sampleStep
    omega
  have hstore := storeList_of_running isValid henabled hrun hne random
  have hbuffer := storeList_buffer_of_running isValid henabled hrun hne random
  -- The visited valid addresses are a batch no longer than the buffer.
  have hbatch := length_filterMap_sampleIndices_le h hosts hstep fun i ↦ hosts[i]?.filter isValid
  refine ⟨h.buffer.size_le, haccept, sampleLoop_sampleIndices hstep husable, ?_, ?_,
    min_le_length_sampleIndices haccept, ?_, ?_, by rw [hstore]⟩
  · intro i hi
    exact Nat.lt_of_lt_of_le (lt_of_mem_sampleIndices hstep hi) (Nat.min_le_left _ _)
  · rw [sampleIndices]
    exact List.nodup_range' _ hstep
  · intro i hi a ha hv hnew
    rw [hbuffer]
    refine found_foldl_insertNew hbatch (List.mem_filterMap.2 ⟨i, hi, ?_⟩) hnew
    rw [ha, Option.filter_some, if_pos hv]
  · intro k
    rw [hbuffer]
    exact count_foldl_insertNew _ _ k

end Store

/-- `1.2.3.4:8333`. -/
def knownHost : NetworkAddress := ⟨0, 1, 0x01020304, 8333⟩

/-- `5.6.7.8:8333`. -/
def otherKnownHost : NetworkAddress := ⟨0, 1, 0x05060708, 8333⟩

/-- `9.10.11.12:8333`. -/
def newHost : NetworkAddress := ⟨0, 1, 0x090a0b0c, 8333⟩

/-- A running pool of capacity two, full: `knownHost` at the front, then `otherKnownHost`. -/
def fullPool : Hosts (min maxAddress 2) where
  buffer := ⟨2, [knownHost, otherKnownHost], Nat.zero_lt_two, Nat.le_refl 2⟩
  stopped := false
  buffer_capacity := rfl

/-- The full pool takes `knownHost` and `newHost` with the draw 2. -/
theorem storeList_storesSample_fullPool :
    (min maxAddress 2 ≠ 0 ∧ fullPool.stopped = false ∧ [knownHost, newHost] ≠ [] ∧ 0 < 2) ∧
      StoresSample (fun _ ↦ true) fullPool [knownHost, newHost] 2 := by
  have hargs : min maxAddress 2 ≠ 0 ∧ fullPool.stopped = false ∧ [knownHost, newHost] ≠ [] ∧
      0 < 2 :=
    ⟨by decide, rfl, List.cons_ne_nil _ _, Nat.zero_lt_two⟩
  exact ⟨hargs, storeList_storesSample (fun _ ↦ true) fullPool hargs.1 hargs.2.1 hargs.2.2.1
    hargs.2.2.2⟩

/-- **A host the pool held is evicted by the batch that reads it.** The full pool gets
`knownHost` and `newHost` with the draw 2, so both indices are read. `knownHost` is held and
skipped; pushing `newHost` then evicts it from the front of the buffer. -/
theorem storeList_evicts_read_host :
    0 ∈ sampleIndices (fullPool.usable [knownHost, newHost])
        (fullPool.sampleStep [knownHost, newHost] 2) ∧
      [knownHost, newHost][0]? = some knownHost ∧
      found fullPool.buffer knownHost = true ∧
      found (fullPool.storeList (fun _ ↦ true) [knownHost, newHost] 2).2.buffer knownHost = false := by
  decide

/-! ## A file that names a host twice -/

/-- `1.2.3.4:8333`. -/
def listedHost : Authority := ⟨0x01020304, 8333⟩

/-- A pool of 1000 addresses started on a hosts file that lists `1.2.3.4:8333` on two lines. -/
def startedOnRepeatedLine : Hosts (min maxAddress 1000) :=
  ((create 1000).start (some [listedHost, listedHost])).2

/-- `start` pushes both lines, so the pool holds the host twice; `remove` then succeeds and
leaves the second copy in the pool. -/
theorem hosts_start_keeps_duplicates :
    startedOnRepeatedLine.buffer.items =
        [listedHost.toNetworkAddress, listedHost.toNetworkAddress] ∧
      (startedOnRepeatedLine.remove listedHost.toNetworkAddress).1 = .success ∧
      listedHost.toNetworkAddress ∈
        (startedOnRepeatedLine.remove listedHost.toNetworkAddress).2.buffer.items := by
  decide

end Hosts

end Network
