import Mathlib.Data.List.Nodup

/-!
# Circular buffers

A circular buffer has a fixed positive capacity and holds its elements in insertion order. A
push at the back of a full buffer overwrites the front element, so the buffer never holds more
than its capacity; erasing an element keeps the order of the others. This is the view of
`boost::circular_buffer` that its users see: the order of `begin()` to `end()`.

The buffer is a structure whose fields carry the bound, so every operation states once that it
keeps it. Over the view the file proves what keyed stores need: an element pushed under a key
the buffer does not hold leaves all keys distinct, and erasing the first element with a key
removes the only one there is.
-/

/-- A circular buffer of positive capacity, viewed front to back. -/
structure CircularBuffer (α : Type) where
  /-- The fixed capacity. -/
  capacity : ℕ
  /-- The elements, front first. -/
  items : List α
  capacity_pos : 0 < capacity
  length_le : items.length ≤ capacity

namespace CircularBuffer

variable {α β : Type}

/-- An empty buffer. -/
def empty (capacity : ℕ) (h : 0 < capacity) : CircularBuffer α :=
  ⟨capacity, [], h, Nat.zero_le _⟩

/-- `size()`. -/
def size (b : CircularBuffer α) : ℕ := b.items.length

/-- `push_back(x)`: a full buffer first drops its front element. -/
def pushBack (b : CircularBuffer α) (x : α) : CircularBuffer α :=
  if h : b.items.length < b.capacity then
    ⟨b.capacity, b.items ++ [x], b.capacity_pos, by
      rw [List.length_append, List.length_singleton]
      omega⟩
  else
    ⟨b.capacity, b.items.tail ++ [x], b.capacity_pos, by
      rw [List.length_append, List.length_tail, List.length_singleton]
      have := b.capacity_pos
      have := b.length_le
      omega⟩

/-- `erase(find_if(begin(), end(), p))`: the first element satisfying `p` goes. -/
def eraseFirst (b : CircularBuffer α) (p : α → Bool) : CircularBuffer α :=
  ⟨b.capacity, b.items.eraseP p, b.capacity_pos,
    Nat.le_trans List.length_eraseP_le b.length_le⟩

/-- `clear()`. -/
def clear (b : CircularBuffer α) : CircularBuffer α := empty b.capacity b.capacity_pos

@[simp] theorem empty_items (n : ℕ) (h : 0 < n) : (empty n h : CircularBuffer α).items = [] := rfl

@[simp] theorem empty_capacity (n : ℕ) (h : 0 < n) :
    (empty n h : CircularBuffer α).capacity = n := rfl

@[simp] theorem pushBack_capacity (b : CircularBuffer α) (x : α) :
    (b.pushBack x).capacity = b.capacity := by
  unfold pushBack; split <;> rfl

@[simp] theorem eraseFirst_capacity (b : CircularBuffer α) (p : α → Bool) :
    (b.eraseFirst p).capacity = b.capacity := rfl

@[simp] theorem clear_capacity (b : CircularBuffer α) : b.clear.capacity = b.capacity := rfl

@[simp] theorem clear_items (b : CircularBuffer α) : b.clear.items = [] := rfl

@[simp] theorem eraseFirst_items (b : CircularBuffer α) (p : α → Bool) :
    (b.eraseFirst p).items = b.items.eraseP p := rfl

theorem size_le (b : CircularBuffer α) : b.size ≤ b.capacity := b.length_le

/-- What a push keeps: the elements after it are the pushed one and some of those before. -/
theorem pushBack_items (b : CircularBuffer α) (x : α) :
    ∃ l, l.Sublist b.items ∧ (b.pushBack x).items = l ++ [x] := by
  unfold pushBack
  split
  · exact ⟨b.items, List.Sublist.refl _, rfl⟩
  · exact ⟨b.items.tail, List.tail_sublist _, rfl⟩

/-- A push into a buffer with room appends. -/
theorem pushBack_items_of_lt {b : CircularBuffer α} (h : b.items.length < b.capacity) (x : α) :
    (b.pushBack x).items = b.items ++ [x] := by
  simp [pushBack, h]

theorem mem_pushBack {b : CircularBuffer α} {x y : α} (hy : y ∈ (b.pushBack x).items) :
    y = x ∨ y ∈ b.items := by
  obtain ⟨l, hl, heq⟩ := pushBack_items b x
  rw [heq, List.mem_append, List.mem_singleton] at hy
  exact hy.elim (fun h ↦ .inr (hl.subset h)) .inl

/-! ## Windows

A run of pushes keeps a window: the last `capacity` of the elements held and pushed, in order.
So the elements of a run of at most `capacity` pushes are all still there at its end. -/

/-- A push keeps the last `capacity` of the elements and the pushed one. -/
theorem pushBack_items_eq_drop (b : CircularBuffer α) (x : α) :
    (b.pushBack x).items = (b.items ++ [x]).drop (b.items.length + 1 - b.capacity) := by
  have hle := b.length_le
  unfold pushBack
  split
  · next hlt => rw [show b.items.length + 1 - b.capacity = 0 by omega, List.drop_zero]
  · -- A full buffer: the window drops the front element.
    next hfull =>
    have hne : b.items ≠ [] := List.ne_nil_of_length_pos (by have := b.capacity_pos; omega)
    rw [show b.items.length + 1 - b.capacity = 1 by omega, List.drop_one,
      List.tail_append_of_ne_nil hne]

/-- **The window of a run of pushes.** -/
theorem foldl_pushBack_items (b : CircularBuffer α) (xs : List α) :
    (xs.foldl pushBack b).items =
      (b.items ++ xs).drop (b.items.length + xs.length - b.capacity) := by
  induction xs generalizing b with
  | nil =>
    have hle := b.length_le
    rw [List.foldl_nil, List.append_nil, List.length_nil,
      show b.items.length + 0 - b.capacity = 0 by omega, List.drop_zero]
  | cons x xs ih =>
    have hle := b.length_le
    have hdrop : b.items.length + 1 - b.capacity ≤ (b.items ++ [x]).length := by
      rw [List.length_append, List.length_singleton]
      omega
    have hlen : (b.pushBack x).items.length = b.items.length + 1 - (b.items.length + 1 - b.capacity) := by
      rw [pushBack_items_eq_drop, List.length_drop, List.length_append, List.length_singleton]
    rw [List.foldl_cons, ih, hlen, pushBack_items_eq_drop, pushBack_capacity,
      ← List.drop_append_of_le_length hdrop, List.drop_drop, List.append_assoc,
      List.singleton_append, List.length_cons]
    congr 1
    omega

/-- A run of at most `capacity` pushes leaves every pushed element in the buffer, in order at
its back. -/
theorem suffix_foldl_pushBack {b : CircularBuffer α} {xs : List α} (h : xs.length ≤ b.capacity) :
    xs <:+ (xs.foldl pushBack b).items := by
  rw [foldl_pushBack_items, List.drop_append_of_le_length (by omega)]
  exact List.suffix_append _ _

/-! ## Keyed buffers -/

section Keyed

variable (key : α → β)

/-- No two elements share a key. -/
def KeysNodup (b : CircularBuffer α) : Prop := (b.items.map key).Nodup

theorem keysNodup_empty (n : ℕ) (h : 0 < n) : KeysNodup key (empty n h : CircularBuffer α) :=
  List.nodup_nil

theorem keysNodup_clear (b : CircularBuffer α) : KeysNodup key b.clear := List.nodup_nil

/-- Pushing an element whose key the buffer does not hold keeps the keys distinct. -/
theorem keysNodup_pushBack {b : CircularBuffer α} (hb : KeysNodup key b) {x : α}
    (hx : ∀ y ∈ b.items, key y ≠ key x) : KeysNodup key (b.pushBack x) := by
  obtain ⟨l, hl, heq⟩ := pushBack_items b x
  unfold KeysNodup
  rw [heq, List.map_append, List.nodup_append]
  refine ⟨(hl.map key).nodup hb, List.nodup_singleton _, ?_⟩
  simp only [List.map_cons, List.map_nil, List.mem_singleton, List.mem_map]
  rintro _ ⟨y, hy, rfl⟩ _ rfl
  exact hx y (hl.subset hy)

theorem keysNodup_eraseFirst {b : CircularBuffer α} (hb : KeysNodup key b) (p : α → Bool) :
    KeysNodup key (b.eraseFirst p) :=
  ((List.eraseP_sublist).map key).nodup hb

variable [BEq β] [LawfulBEq β]

/-- Erasing the first element with a key, from a list with distinct keys, leaves none with it. -/
theorem eraseP_key_ne {l : List α} (hl : (l.map key).Nodup) (k : β) :
    ∀ y ∈ l.eraseP (key · == k), key y ≠ k := by
  induction l with
  | nil => simp
  | cons a l ih =>
    rw [List.map_cons, List.nodup_cons] at hl
    by_cases ha : key a = k
    · -- `a` is the one erased; the keys being distinct, no other element has its key.
      rw [List.eraseP_cons_of_pos (by simpa using ha)]
      intro y hy hyk
      exact hl.1 (List.mem_map.mpr ⟨y, hy, hyk.trans ha.symm⟩)
    · rw [List.eraseP_cons_of_neg (by simpa using ha), List.forall_mem_cons]
      exact ⟨ha, ih hl.2⟩

theorem eraseFirst_key_ne {b : CircularBuffer α} (hb : KeysNodup key b) (k : β) :
    ∀ y ∈ (b.eraseFirst (key · == k)).items, key y ≠ k :=
  eraseP_key_ne key hb k

end Keyed

end CircularBuffer
