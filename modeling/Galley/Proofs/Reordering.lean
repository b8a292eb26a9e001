import Mathlib.Data.List.Basic

/-!
Reorderings that keep related items in order.

A reordering takes the items of a list by their places, so that an item that occurs twice
counts twice. Items that are related pairwise stand in the reordered list as they stand in
the list (`Reordered.filter_eq`).
-/

namespace Galley

/-- The second list holds the items of the first one, each taken from its place, and two
related items follow each other there as they do in the first list. -/
def Reordered {α : Type} (related : α → α → Prop) (xs ys : List α) : Prop :=
  ∃ placed : List (α × Nat), placed.Perm xs.zipIdx ∧ placed.map Prod.fst = ys ∧
    placed.Pairwise fun a b => related a.1 b.1 → a.2 < b.2

namespace Reordered

variable {α : Type} {related : α → α → Prop} {xs ys : List α}

theorem perm (h : Reordered related xs ys) : ys.Perm xs := by
  obtain ⟨placed, hperm, rfl, -⟩ := h
  have hitems := hperm.map Prod.fst
  rwa [List.zipIdx_map_fst] at hitems

theorem mem_iff (h : Reordered related xs ys) {a : α} : a ∈ ys ↔ a ∈ xs :=
  h.perm.mem_iff

/-- The places in a list increase. -/
theorem pairwise_zipIdx (xs : List α) (n : Nat) :
    (xs.zipIdx n).Pairwise fun a b => a.2 < b.2 := by
  have hplaces : ((xs.zipIdx n).map Prod.snd).Pairwise (· < ·) := by
    rw [List.zipIdx_map_snd]
    exact List.pairwise_lt_range'
  exact List.pairwise_map.mp hplaces

/-- Items that are all related to each other keep their order. -/
theorem filter_eq {p : α → Bool} (h : Reordered related xs ys)
    (hp : ∀ a b, p a = true → p b = true → related a b) : ys.filter p = xs.filter p := by
  obtain ⟨placed, hperm, rfl, hpairs⟩ := h
  let q : α × Nat → Bool := fun a => p a.1
  have hplaced : (placed.filter q).Pairwise fun a b => a.2 < b.2 := by
    have hboth := hpairs.filter q
    refine hboth.imp_of_mem fun {a b} ha hb hab => ?_
    exact hab (hp a.1 b.1 (List.mem_filter.mp ha).2 (List.mem_filter.mp hb).2)
  have hgiven : (xs.zipIdx.filter q).Pairwise fun a b => a.2 < b.2 :=
    (pairwise_zipIdx xs 0).filter q
  -- Two lists of the same pairs with increasing places are the same list.
  have hsame : placed.filter q = xs.zipIdx.filter q := by
    refine (hperm.filter q).eq_of_pairwise ?_ hplaced hgiven
    intro a b _ _ hab hba
    omega
  calc (placed.map Prod.fst).filter p
      = (placed.filter q).map Prod.fst := List.filter_map
    _ = (xs.zipIdx.filter q).map Prod.fst := by rw [hsame]
    _ = (xs.zipIdx.map Prod.fst).filter p := List.filter_map.symm
    _ = xs.filter p := by rw [List.zipIdx_map_fst]

end Reordered

end Galley
