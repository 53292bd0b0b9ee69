import Mathlib.Logic.Function.Basic
import Mathlib.Data.Nat.Notation

/-!
# A store of cells that are shared by reference

Two parties that hold the ends of one channel, or two owners of one counted
object, are modelled by a *reference* each into a store of cells. References are
handed out in order and never reused, so a reference is also a date of birth:
the cells below `Store.next` exist, and the next cell allocated is newer than all
of them.
-/

/-- **A store**: its cells by reference, and the reference the next cell gets. -/
structure Store (α : Type*) where
  /-- The reference of the next cell. -/
  next : ℕ
  /-- The cells. -/
  cell : ℕ → α

namespace Store

variable {α : Type*} (h : Store α) (r q : ℕ) (a : α) (f : α → α)

/-- The store after one more cell, which gets the reference `h.next`. -/
def alloc : Store α where
  next := h.next + 1
  cell := Function.update h.cell h.next a

/-- The store after its cell `r` changed. -/
def modify : Store α where
  next := h.next
  cell := Function.update h.cell r (f (h.cell r))

@[simp] theorem alloc_next : (h.alloc a).next = h.next + 1 := rfl

@[simp] theorem alloc_cell_self : (h.alloc a).cell h.next = a := Function.update_self ..

@[simp] theorem modify_next : (h.modify r f).next = h.next := rfl

@[simp] theorem modify_cell_self : (h.modify r f).cell r = f (h.cell r) := Function.update_self ..

variable {r q}

/-- An older cell does not see an allocation. -/
theorem alloc_cell_of_ne (hr : r ≠ h.next) : (h.alloc a).cell r = h.cell r :=
  Function.update_of_ne hr ..

theorem alloc_cell_of_lt (hr : r < h.next) : (h.alloc a).cell r = h.cell r :=
  h.alloc_cell_of_ne a (Nat.ne_of_lt hr)

/-- The other cells do not see a change. -/
theorem modify_cell_of_ne (hq : q ≠ r) : (h.modify r f).cell q = h.cell q :=
  Function.update_of_ne hq ..

/-- What every cell keeps is kept by a change. -/
theorem modify_cell_congr {β : Type*} (g : α → β) (hg : g (f (h.cell r)) = g (h.cell r)) (q : ℕ) :
    g ((h.modify r f).cell q) = g (h.cell q) := by
  rcases eq_or_ne q r with rfl | hq
  · rw [modify_cell_self, hg]
  · rw [modify_cell_of_ne h f hq]

/-- A change is what it does to the cell. -/
theorem modify_congr {f g : α → α} (hfg : f (h.cell r) = g (h.cell r)) :
    h.modify r f = h.modify r g := by
  rw [modify, modify, hfg]

theorem modify_eq_self {f : α → α} (hf : f (h.cell r) = h.cell r) : h.modify r f = h := by
  rw [modify, hf, Function.update_eq_self]

end Store
