import BitprimNetwork.Core

/-!
# The pending collections of bitprim-core

`p2p` keeps its channels in three `pending<Element>` collections of bitprim-core: the
connectors in progress, the outbound channels whose handshake is in progress, and the open
channels (`pending_close_`). A collection is a vector of elements and a stopped flag.
`store(element, match)` refuses an element when the collection is stopped or when an element
already there matches; `store(element)` matches the element itself. `remove` erases the element
if it is there, and `exists(match)` asks whether some element matches.

This file states that behaviour, which the network code relies on but does not define, and the
one property of `store` the sessions need: an element stored under a key is the only one there
with that key, for as long as every insertion goes through `store`.
-/

namespace Network

/-- A `pending<Element>` collection. -/
structure Pending (α : Type) where
  /-- `stop` has been called; nothing is stored any more. -/
  stopped : Bool
  /-- The elements, in insertion order. -/
  elements : List α
  deriving DecidableEq, Repr

namespace Pending

variable {α : Type}

/-- An empty collection that has not been stopped. -/
def empty : Pending α := ⟨false, []⟩

/-- `exists(match)`. -/
def existsMatch (p : Pending α) (finder : α → Bool) : Bool := p.elements.any finder

/-- `store(element, match)`: refused when stopped or when an element matches. -/
def storeMatching (p : Pending α) (x : α) (finder : α → Bool) : Code × Pending α :=
  if p.stopped then (.serviceStopped, p)
  else if p.elements.any finder then (.addressInUse, p)
  else (.success, { p with elements := p.elements ++ [x] })

/-- `store(element)`: refused when stopped or when the element is already there. -/
def store [DecidableEq α] (p : Pending α) (x : α) : Code × Pending α :=
  p.storeMatching x (· == x)

/-- `remove(element)`. -/
def remove [DecidableEq α] (p : Pending α) (x : α) : Pending α :=
  { p with elements := p.elements.erase x }

/-- `stop(ec)`: the collection refuses everything from now on. -/
def stop (p : Pending α) : Pending α := { p with stopped := true }

@[simp] theorem storeMatching_stopped (p : Pending α) (x : α) (finder : α → Bool) :
    (p.storeMatching x finder).2.stopped = p.stopped := by
  unfold storeMatching
  split_ifs <;> rfl

@[simp] theorem remove_stopped [DecidableEq α] (p : Pending α) (x : α) : (p.remove x).stopped = p.stopped := rfl

/-- What `store(element, match)` does: it succeeds exactly when it inserts. -/
theorem storeMatching_spec (p : Pending α) (x : α) (finder : α → Bool) :
    ((p.storeMatching x finder).1 = .success ∧
        (p.storeMatching x finder).2.elements = p.elements ++ [x] ∧ p.stopped = false ∧
        ∀ y ∈ p.elements, finder y = false) ∨
      ((p.storeMatching x finder).1 ≠ .success ∧ (p.storeMatching x finder).2 = p) := by
  unfold storeMatching
  split_ifs with hs hm
  · exact .inr ⟨nofun, rfl⟩
  · exact .inr ⟨nofun, rfl⟩
  · refine .inl ⟨rfl, rfl, by simpa using hs, ?_⟩
    simpa using hm

section Remove

variable [DecidableEq α]

theorem mem_remove_of_ne {p : Pending α} {x y : α} (hy : y ∈ p.elements) (hne : y ≠ x) :
    y ∈ (p.remove x).elements :=
  (List.mem_erase_of_ne hne).mpr hy

theorem mem_of_mem_remove {p : Pending α} {x y : α} (hy : y ∈ (p.remove x).elements) :
    y ∈ p.elements :=
  List.mem_of_mem_erase hy

/-- After `remove(x)` a collection without duplicates no longer holds `x`. -/
theorem not_mem_remove {p : Pending α} (hnd : p.elements.Nodup) (x : α) :
    x ∉ (p.remove x).elements :=
  hnd.not_mem_erase

@[simp] theorem count_remove (p : Pending α) (x : α) :
    (p.remove x).elements.count x = p.elements.count x - 1 :=
  List.count_erase_self

/-- A store of an element that is not there inserts it once exactly when it succeeds. -/
theorem count_storeMatching {p : Pending α} {x : α} (hx : x ∉ p.elements) (finder : α → Bool) :
    (p.storeMatching x finder).2.elements.count x =
      if (p.storeMatching x finder).1 = .success then 1 else 0 := by
  rcases storeMatching_spec p x finder with ⟨hs, he, -, -⟩ | ⟨hs, he⟩
  · rw [hs, if_pos rfl, he, List.count_append, List.count_eq_zero.mpr hx,
      List.count_singleton_self]
  · rw [if_neg hs, he]
    exact List.count_eq_zero.mpr hx

end Remove

end Pending

end Network
