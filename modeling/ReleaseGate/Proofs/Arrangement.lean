import Mathlib.Data.List.Permutation

/-!
# Lists in another order

* `arrange`: the entries of a list in the order of given places.
* `arrange_range`, `arrange_perm`: all places in order give the list, and in any order the same
  entries.
-/

namespace ReleaseGate

/-- The entries of a list at the given places, one after the other. -/
def arrange {α : Type} (order : List Nat) (xs : List α) : List α := order.filterMap (xs[·]?)

section Arrange

variable {α β : Type} {order : List Nat} {xs : List α}

theorem arrange_range (xs : List α) : arrange (List.range xs.length) xs = xs := by
  induction xs with
  | nil => rfl
  | cons x xs ih =>
    rw [arrange, List.length_cons, List.range_succ_eq_map]
    show x :: List.filterMap _ (List.map _ _) = _
    rw [List.filterMap_map]
    exact congrArg (x :: ·) ih

/-- All places in any order give all entries in that order. -/
theorem arrange_perm (h : order.Perm (List.range xs.length)) : (arrange order xs).Perm xs := by
  have hperm := h.filterMap (xs[·]?)
  rwa [← arrange, ← arrange, arrange_range] at hperm

theorem arrange_map (f : α → β) (order : List Nat) (xs : List α) :
    arrange order (xs.map f) = (arrange order xs).map f := by
  rw [arrange, arrange, List.map_filterMap]
  exact List.filterMap_congr fun i _ => List.getElem?_map

end Arrange

end ReleaseGate
