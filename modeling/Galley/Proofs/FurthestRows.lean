import Galley.Proofs.GridWays

/-!
Rows of furthest places.

A row holds how far a number of changes gets on each of its diagonals (`IsRow`). The diagonals of
the next round start as far as one more change gets (`IsRow.starts`), and common items lead from
there to the next row (`IsRow.glide`). A search meets the other one where both get to the same
place or past each other (`IsRow.exists_of_meets`, `IsRow.meets_of_le`).
-/

open scoped List

namespace Galley.Diff

variable {α : Type} {as bs cs : List α} {d e x y : Nat}

/-! ### Furthest places -/

/-- A change leads to a place, or it is the start. -/
inductive Arrives (as bs : List α) : Nat → Nat → Nat → Prop
  | start : Arrives as bs 0 0 0
  | remove {d x y : Nat} (h : Reaches as bs d x y) : Arrives as bs (d + 1) (x + 1) y
  | add {d x y : Nat} (h : Reaches as bs d x y) : Arrives as bs (d + 1) x (y + 1)

theorem Arrives.reaches (h : Arrives as bs d x y) : Reaches as bs d x y := by
  cases h with
  | start => exact .start
  | remove h => exact h.remove
  | add h => exact h.add

/-- Of the places with a property, one is the furthest on its diagonal. -/
structure Furthest (P : Nat → Nat → Prop) (x y : Nat) : Prop where
  holds : P x y
  le : ∀ {x' y' : Nat}, P x' y' → x' + y = x + y' → x' ≤ x

section Common

variable [DecidableEq α]

theorem getElem?_of_lt_commonLead {n : Nat} (h : n < commonLead as bs) :
    ∃ a, as[n]? = some a ∧ bs[n]? = some a := by
  have hlt := Nat.lt_of_lt_of_le h (commonLead_le_left as bs)
  have htake := congrArg (·[n]?) (take_commonLead as bs)
  simp only [List.getElem?_take_of_lt h] at htake
  exact ⟨as[n], List.getElem?_eq_getElem hlt, htake ▸ List.getElem?_eq_getElem hlt⟩

theorem ne_of_getElem?_commonLead {a b : α} (ha : as[commonLead as bs]? = some a)
    (hb : bs[commonLead as bs]? = some b) : a ≠ b := by
  have hzero := commonLead_drop as bs
  rw [List.drop_eq_getElem?_toList_append (l := as), List.drop_eq_getElem?_toList_append (l := bs),
    ha, hb] at hzero
  rintro rfl
  simp [commonLead] at hzero

theorem Reaches.glide {n : Nat} (h : Reaches as bs d x y)
    (hn : n ≤ commonLead (as.drop x) (bs.drop y)) : Reaches as bs d (x + n) (y + n) := by
  induction n with
  | zero => exact h
  | succ n ih =>
      obtain ⟨a, ha, hb⟩ := getElem?_of_lt_commonLead hn
      rw [List.getElem?_drop] at ha hb
      exact .pass ha hb (ih (Nat.le_of_succ_le hn))

/-- From the furthest place a change leads to, common items lead to the furthest place. -/
theorem Furthest.glide (h : Furthest (Arrives as bs d) x y) :
    Furthest (Reaches as bs d) (x + commonLead (as.drop x) (bs.drop y))
      (y + commonLead (as.drop x) (bs.drop y)) := by
  refine ⟨h.holds.reaches.glide (Nat.le_refl _), ?_⟩
  have hstop (a : α) (ha : as[x + commonLead (as.drop x) (bs.drop y)]? = some a)
      (hb : bs[y + commonLead (as.drop x) (bs.drop y)]? = some a) : False := by
    rw [← List.getElem?_drop] at ha hb
    exact ne_of_getElem?_commonLead ha hb rfl
  generalize commonLead (as.drop x) (bs.drop y) = n at hstop ⊢
  intro x' y' hreach hdiag
  induction hreach with
  | start => exact Nat.zero_le _
  | remove hreach =>
      have hle := h.le (.remove hreach) (by omega)
      omega
  | add hreach =>
      have hle := h.le (.add hreach) (by omega)
      omega
  | @pass d x' y' a ha hb hreach ih =>
      have hle := ih h (by omega)
      by_contra hlt
      obtain ⟨rfl, rfl⟩ : x' = x + n ∧ y' = y + n := by omega
      exact hstop a ha hb

end Common

/-! ### Rows -/

/-- A row holds the furthest place with a property on every second diagonal. -/
structure IsRow (P : Nat → Nat → Prop) (d : Nat) (row : List Nat) : Prop where
  length : row.length = d + 1
  furthest : ∀ {i x : Nat}, row[i]? = some x → ∃ y, x + 2 * i = y + d ∧ Furthest P x y

theorem length_innerStarts (row : List Nat) : (innerStarts row).length = row.length := by
  fun_induction innerStarts row with
  | case1 further nearer row ih => simpa using ih
  | case2 row => rfl

/-- A diagonal between two others starts at the further of the two places that a change leads to,
the last one at the last place. -/
theorem getElem?_innerStarts {row : List Nat} {i x : Nat} (h : (innerStarts row)[i]? = some x) :
    (∃ further nearer, row[i]? = some further ∧ row[i + 1]? = some nearer ∧
        x = max further (nearer + 1)) ∨
      row[i]? = some x ∧ i + 1 = row.length := by
  fun_induction innerStarts row generalizing i with
  | case1 further nearer row ih =>
      cases i with
      | zero =>
          refine .inl ⟨further, nearer, rfl, rfl, ?_⟩
          simp only [List.getElem?_cons_zero, Option.some.injEq] at h
          split at h <;> omega
      | succ i =>
          rcases ih h with hinner | ⟨hlast, hlen⟩
          · exact .inl hinner
          · exact .inr ⟨hlast, congrArg (· + 1) hlen⟩
  | case2 row hshort =>
      match row, hshort with
      | [_], _ =>
          obtain ⟨hi, -⟩ := List.getElem?_eq_some_iff.mp h
          exact .inr ⟨h, Nat.le_antisymm hi (Nat.le_add_left _ _)⟩
      | first :: second :: row, hshort => exact absurd rfl (hshort first second row)

namespace IsRow

variable {P : Nat → Nat → Prop} {row : List Nat}

/-- The diagonals of the next round start at the furthest places that one more change leads
to. -/
theorem starts (h : IsRow (Reaches as bs d) d row) :
    IsRow (Arrives as bs (d + 1)) (d + 1) (Diff.starts row) := by
  obtain ⟨first, rest, rfl⟩ := List.exists_cons_of_length_eq_add_one h.length
  refine ⟨congrArg (· + 1) ((length_innerStarts _).trans h.length), ?_⟩
  intro i x hx
  -- the first diagonal is only reached by removing, the last one only by adding
  cases i with
  | zero =>
      obtain rfl : first + 1 = x := by simpa [Diff.starts] using hx
      obtain ⟨y, hy, hfirst⟩ := h.furthest (i := 0) rfl
      refine ⟨y, by omega, .remove hfirst.holds, ?_⟩
      intro x' y' harrives hdiag
      cases harrives with
      | remove hreach =>
          have hle := hfirst.le hreach (by omega)
          omega
      | add hreach =>
          have hle := hreach.left_le
          omega
  | succ i =>
      rcases getElem?_innerStarts hx with ⟨further, nearer, hfurther, hnearer, rfl⟩ | ⟨hlast, hlen⟩
      · obtain ⟨y, hy, hreach⟩ := h.furthest hfurther
        obtain ⟨y', hy', hreach'⟩ := h.furthest hnearer
        have hle {u v : Nat} (harrives : Arrives as bs (d + 1) u v)
            (hdiag : u + 2 * (i + 1) = v + (d + 1)) : u ≤ max further (nearer + 1) := by
          cases harrives with
          | remove hreach =>
              have hle := hreach'.le hreach (by omega)
              omega
          | add hreach₁ =>
              have hle := hreach.le hreach₁ (by omega)
              omega
        rcases Nat.le_total (nearer + 1) further with hmax | hmax
        · rw [Nat.max_eq_left hmax] at hle ⊢
          exact ⟨y + 1, by omega, .add hreach.holds, fun harrives _ => hle harrives (by omega)⟩
        · rw [Nat.max_eq_right hmax] at hle ⊢
          exact ⟨y', by omega, .remove hreach'.holds, fun harrives _ => hle harrives (by omega)⟩
      · obtain ⟨y, hy, hreach⟩ := h.furthest hlast
        have hlen' := h.length
        refine ⟨y + 1, by omega, .add hreach.holds, ?_⟩
        intro x' y' harrives hdiag
        cases harrives with
        | remove hreach' =>
            have hle := hreach'.right_le
            omega
        | add hreach' => exact hreach.le hreach' (by omega)

theorem starts_nil : IsRow (Arrives as bs 0) 0 (Diff.starts []) := by
  refine ⟨rfl, ?_⟩
  intro i x hx
  obtain ⟨hi, hzero⟩ := List.getElem?_eq_some_iff.mp hx
  obtain rfl : i = 0 := Nat.lt_one_iff.mp hi
  obtain rfl : 0 = x := hzero
  refine ⟨0, rfl, .start, ?_⟩
  intro x' y' harrives hdiag
  cases harrives
  exact Nat.le_refl 0

end IsRow

/-- Where one is on a diagonal. -/
theorem across_eq (x y : Nat) : across x ((x : Int) - y) = y := by
  rw [across]
  omega

theorem getElem?_diagonals {k : Int} {i : Nat} :
    (diagonals d)[i]? = some k ↔ i ≤ d ∧ k = d - 2 * i := by
  rw [diagonals, List.getElem?_map, Option.map_eq_some_iff]
  constructor
  · rintro ⟨j, hj, rfl⟩
    obtain ⟨hi, hj⟩ := List.getElem?_eq_some_iff.mp hj
    rw [List.getElem_range] at hj
    rw [List.length_range] at hi
    exact ⟨Nat.le_of_lt_succ hi, by rw [hj]⟩
  · rintro ⟨hi, rfl⟩
    exact ⟨i, List.getElem?_range (Nat.lt_succ_of_le hi), rfl⟩

theorem IsRow.exists_getElem? {P : Nat → Nat → Prop} {row : List Nat} {i : Nat}
    (h : IsRow P d row) (hi : i ≤ d) : ∃ x, row[i]? = some x := by
  have hlt : i < row.length := by
    rw [h.length]
    exact Nat.lt_succ_of_le hi
  exact ⟨row[i], List.getElem?_eq_getElem hlt⟩

variable [DecidableEq α] in
/-- Common items lead from the furthest places after a change to the furthest places. -/
theorem IsRow.glide {row : List Nat} (h : IsRow (Arrives as bs d) d row) :
    IsRow (Reaches as bs d) d (List.zipWith (Diff.glide as bs) row (diagonals d)) := by
  refine ⟨by simp [diagonals, h.length], ?_⟩
  intro i z hz
  obtain ⟨x, k, hx, hk, rfl⟩ := List.getElem?_zipWith_eq_some.mp hz
  obtain ⟨y, hy, harrives⟩ := h.furthest hx
  obtain rfl : k = x - y := by
    obtain ⟨-, rfl⟩ := getElem?_diagonals.mp hk
    omega
  rw [Diff.glide, across_eq]
  exact ⟨_, by omega, harrives.glide⟩

/-! ### Meetings -/

/-- A place is on a diagonal of the row with its number of changes. -/
theorem Reaches.exists_index (h : Reaches as bs d x y) : ∃ i ≤ d, x + 2 * i = y + d := by
  obtain ⟨cs, has, hbs, hlen⟩ := h.exists_common
  have hx := length_le_of_sublist_take has
  have hy := length_le_of_sublist_take hbs
  exact ⟨y - cs.length, by omega, by omega⟩

section Meetings

variable {row : List Nat} {total other : Nat}

/-- A search meets the other one on a diagonal if the other one gets to a place there, or past
it. -/
theorem IsRow.exists_of_meets (h : IsRow (Reaches as bs e) e row)
    (hmeets : meets total ((total : Int) - other) row ((x : Int) - y) x = true) :
    ∃ x' y', Reaches as bs e x' y' ∧ total + y + y' = other + x + x' ∧ total ≤ x + x' := by
  rw [meets, h.length] at hmeets
  simp only [Bool.and_eq_true, decide_eq_true_eq, beq_iff_eq] at hmeets
  obtain ⟨⟨hrange, heven⟩, hmeets⟩ := hmeets
  split at hmeets
  · rename_i x' hx'
    obtain ⟨y', hy', hfurthest⟩ := h.furthest hx'
    exact ⟨x', y', hfurthest.holds, by omega, of_decide_eq_true hmeets⟩
  · cases hmeets

theorem IsRow.meets_of_le {x' y' : Nat} (h : IsRow (Reaches as bs e) e row)
    (hreach : Reaches as bs e x' y') (hdiag : total + y + y' = other + x + x')
    (hle : total ≤ x + x') :
    meets total ((total : Int) - other) row ((x : Int) - y) x = true := by
  obtain ⟨i, hi, hindex⟩ := hreach.exists_index
  obtain ⟨v, hv⟩ := h.exists_getElem? hi
  obtain ⟨w, hw, hfurthest⟩ := h.furthest hv
  have hle' := hfurthest.le hreach (by omega)
  have hplace :
      ((((e + 1 : Nat) : Int) - 1 - ((total : Int) - other - ((x : Int) - y))) / 2).toNat = i := by
    omega
  rw [meets, h.length]
  simp only [hplace, hv, Bool.and_eq_true, decide_eq_true_eq, beq_iff_eq]
  omega

end Meetings

end Galley.Diff
