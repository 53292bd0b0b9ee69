import Mathlib.Algebra.BigOperators.Group.Finset.Basic
import PicoquicRs.Lib.Store

/-!
# What the cells of a store hold together

Where each cell of a store holds something that can be added up – a multiset of the things
it owns, say – the cells hold the sum together (`Store.total`). A change of one cell moves
the sum by what this cell has lost and won.
-/

namespace Store

variable {α M : Type*} [AddCommMonoid M] (h : Store α)

/-- **What the cells hold together**, for the cells that were allocated. -/
def total (f : α → M) : M := ∑ r ∈ Finset.range h.next, f (h.cell r)

variable {h' : Store α} {f : α → M} {g : α → α} {r : ℕ}

/-- Two stores whose cells show the same hold the same. -/
theorem total_congr (hn : h'.next = h.next) (hc : ∀ r, f (h'.cell r) = f (h.cell r)) :
    h'.total f = h.total f := by
  rw [total, total, hn]
  exact Finset.sum_congr rfl fun r _ => hc r

/-- A new cell holds what it was made with. -/
theorem total_alloc (a : α) : (h.alloc a).total f = h.total f + f a := by
  rw [total, alloc_next, Finset.sum_range_succ, alloc_cell_self]
  refine congrArg (· + f a) (Finset.sum_congr rfl fun q hq => ?_)
  rw [alloc_cell_of_lt h a (Finset.mem_range.mp hq)]

/-- **A change of one cell.** -/
theorem total_modify (hr : r < h.next) :
    (h.modify r g).total f + f (h.cell r) = h.total f + f (g (h.cell r)) := by
  have hmem : r ∈ Finset.range h.next := Finset.mem_range.mpr hr
  have hrest : ∑ q ∈ (Finset.range h.next).erase r, f ((h.modify r g).cell q) =
      ∑ q ∈ (Finset.range h.next).erase r, f (h.cell q) := by
    refine Finset.sum_congr rfl ?_
    intro q hq
    rw [modify_cell_of_ne h g (Finset.ne_of_mem_erase hq)]
  rw [total, modify_next, total, ← Finset.add_sum_erase _ _ hmem, hrest, modify_cell_self,
    ← Finset.add_sum_erase _ _ hmem]
  ac_rfl

/-- A change that the cell does not show. -/
theorem total_modify_of_eq (hg : f (g (h.cell r)) = f (h.cell r)) :
    (h.modify r g).total f = h.total f :=
  h.total_congr rfl fun q => h.modify_cell_congr g f hg q

end Store
