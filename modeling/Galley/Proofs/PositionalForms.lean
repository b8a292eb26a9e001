import Galley.Number.Decimal
import Galley.Proofs.Numerals
import Mathlib.Algebra.Order.Field.Power
import Mathlib.Algebra.Order.Field.Rat
import Mathlib.Data.Rat.Cast.Order
import Mathlib.Tactic.FieldSimp
import Mathlib.Tactic.Linarith
import Mathlib.Tactic.Positivity

/-!
The digits that numbers are written with.

Whole numbers are written without zeros in front of them, and they are read back
(`Number.readWhole?_renderWhole`). A number of another kind is written with the digits of a
decimal that has no zero to drop behind its point: the search for digits either ends on a grid
where there are few of them (`Binary64.le_of_gridPoint?`), and then all zeros at the end are
dropped, or takes the number as a whole number, which has no digits behind the point. So every
number is written without a plus sign, an exponent or a zero that could be left out
(`Number.isPositional_renderWhole`, `Binary64.isPositional_positional`).
-/

namespace Galley

namespace Number

/-- A whole number without zeros in front of it. -/
structure IsPlain (s : List Char) : Prop where
  digits : IsDigits s
  front : s.head? = some '0' → s = ['0']

/-- Digits with a point or without, and no zero that could be left out. -/
inductive IsShort : List Char → Prop where
  | whole {digits : List Char} : IsPlain digits → IsShort digits
  | pointed {digits places : List Char} : IsPlain digits → IsDigits places →
      places.getLast? ≠ some '0' → IsShort (digits ++ '.' :: places)

/-- A number as it is written without an exponent. -/
inductive IsPositional : List Char → Prop where
  | positive {s : List Char} : IsShort s → IsPositional s
  | negative {s : List Char} : IsShort s → IsPositional ('-' :: s)
  | infinite : IsPositional "inf".toList
  | negativeInfinite : IsPositional "-inf".toList
  | nan : IsPositional "NaN".toList

/-! ### Whole numbers -/

section Digits

variable {n : Nat}

theorem isDigits_decimalDigits (n : Nat) : IsDigits (decimalDigits n) :=
  ⟨Nat.toDigits_ne_nil, List.all_eq_true.mpr fun _ hc =>
    Nat.isDigit_of_mem_toDigits (by decide) (by decide) hc⟩

theorem head?_decimalDigits (h : n ≠ 0) : (decimalDigits n).head? ≠ some '0' := by
  induction n using Nat.strong_induction_on with
  | h n ih =>
      rw [decimalDigits, Nat.toDigits_eq_if (by decide)]
      split
      · simpa using h
      · rename_i hge
        obtain ⟨c, rest, hcons⟩ := List.exists_cons_of_ne_nil (Nat.toDigits_ne_nil (n := n / 10))
        have := ih (n / 10) (by omega) (by omega)
        rw [decimalDigits, hcons] at this
        rw [hcons]
        exact this

theorem isPlain_decimalDigits (n : Nat) : IsPlain (decimalDigits n) := by
  refine ⟨isDigits_decimalDigits n, ?_⟩
  intro hhead
  by_cases hzero : n = 0
  · rw [hzero]
    rfl
  · exact absurd hhead (head?_decimalDigits hzero)

theorem getLast?_decimalDigits (h : n % 10 ≠ 0) : (decimalDigits n).getLast? ≠ some '0' := by
  rw [decimalDigits, Nat.toDigits_eq_if (by decide)]
  split
  · simpa using fun hzero => h (by omega)
  · simpa using h

/-- A whole number is written without a plus sign and without zeros in front of it. -/
theorem isPositional_renderWhole (n : Int) : IsPositional (renderWhole n).toList := by
  rw [renderWhole, String.toList_ofList]
  split
  · exact .negative (.whole (isPlain_decimalDigits _))
  · exact .positive (.whole (isPlain_decimalDigits _))

/-- A whole number that is written is read back. -/
theorem readWhole?_renderWhole (n : Int) : readWhole? (renderWhole n).toList = some n := by
  have hdigits := isDigits_decimalDigits n.natAbs
  have hread := readDigits?_of_isDigits hdigits
  rw [decimalDigits, Nat.ofDigitChars_ten_toDigits, ← decimalDigits] at hread
  rw [renderWhole, String.toList_ofList]
  by_cases hneg : n < 0
  · have hsign : readSign ('-' :: decimalDigits n.natAbs) = (true, decimalDigits n.natAbs) := rfl
    simp only [if_pos hneg, List.cons_append, List.nil_append, readWhole?, hsign, hread]
    change some (-(n.natAbs : ℤ)) = some n
    rw [Int.ofNat_natAbs_of_nonpos hneg.le, neg_neg]
  · have hsign := readSign_eq_self hdigits.head_ne_sign
    simp only [if_neg hneg, List.nil_append, readWhole?, hsign, hread]
    change some (n.natAbs : ℤ) = some n
    rw [Int.natAbs_of_nonneg (not_lt.mp hneg)]

end Digits

end Number

namespace Binary64

open Number

/-- A decimal `d · 10^e` without zeros that could be dropped behind its point. -/
structure Trimmed (d : Nat) (e : Int) : Prop where
  zero : d = 0 → e = 0
  last : e < 0 → d % 10 ≠ 0

/-! ### The point -/

section Point

variable {d point : Nat} {e : Int}

theorem all_zeros (n : Nat) : (zeros n).all Char.isDigit = true := by
  rw [zeros, List.all_replicate]
  simp [Char.isDigit]

/-- Zeros behind the digits of a whole number. -/
theorem isShort_append_zeros {n : Nat} (h : d = 0 → n = 0) :
    IsShort (decimalDigits d ++ zeros n) := by
  have hdigits := isDigits_decimalDigits d
  refine .whole ⟨⟨by simp [hdigits.1], ?_⟩, ?_⟩
  · rw [List.all_append, hdigits.2, all_zeros]
    rfl
  · by_cases hd : d = 0
    · rw [h hd, zeros, List.replicate_zero, List.append_nil]
      exact (isPlain_decimalDigits d).front
    · rw [List.head?_append_of_ne_nil _ hdigits.1]
      exact fun hhead => absurd hhead (head?_decimalDigits hd)

/-- A point inside the digits. -/
theorem isShort_split (hlast : d % 10 ≠ 0) (hpos : 0 < point)
    (hlt : point < (decimalDigits d).length) :
    IsShort ((decimalDigits d).take point ++ '.' :: (decimalDigits d).drop point) := by
  have hall := (isDigits_decimalDigits d).2
  rw [← List.take_append_drop point (decimalDigits d), List.all_append, Bool.and_eq_true] at hall
  have hplain : IsPlain ((decimalDigits d).take point) := by
    refine ⟨⟨?_, hall.1⟩, ?_⟩
    · rw [← List.length_pos_iff, List.length_take]
      omega
    · rw [List.head?_take, if_neg (by omega)]
      exact fun hhead => absurd hhead (head?_decimalDigits fun hzero => hlast (by rw [hzero]))
  refine .pointed hplain ⟨?_, hall.2⟩ ?_
  · rw [← List.length_pos_iff, List.length_drop]
    omega
  · rw [List.getLast?_drop, if_neg (by omega)]
    exact getLast?_decimalDigits hlast

/-- A point in front of the digits, and zeros between the two. -/
theorem isShort_zeros_append (hlast : d % 10 ≠ 0) (n : Nat) :
    IsShort ('0' :: '.' :: (zeros n ++ decimalDigits d)) := by
  have hdigits := isDigits_decimalDigits d
  have hzero : IsPlain ['0'] := isPlain_decimalDigits 0
  refine .pointed hzero ⟨by simp [hdigits.1], ?_⟩ ?_
  · rw [List.all_append, hdigits.2, all_zeros]
    rfl
  · rw [List.getLast?_append_of_ne_nil _ hdigits.1]
    exact getLast?_decimalDigits hlast

/-- Wherever the point of a trimmed decimal is, no zero could be left out. -/
theorem isShort_placePoint (h : Trimmed d e) : IsShort (placePoint (decimalDigits d) e []) := by
  rw [placePoint]
  split
  · rw [List.append_nil]
    exact isShort_append_zeros fun hzero => by rw [h.zero hzero]; rfl
  · rename_i he
    have hlast := h.last (by omega)
    split
    · exact isShort_split hlast (by omega) (by omega)
    · exact isShort_zeros_append hlast _

end Point

/-! ### Zeros at the end -/

section Zeros

/-- All zeros at the end are dropped if there may be no more than are tried, and none are behind
the point of a whole number. -/
theorem trimmed_dropZeros {fuel d : Nat} {e : Int}
    (h : d ≠ 0 ∧ d < 10 ^ fuel ∨ 0 ≤ e ∧ (d = 0 → e = 0)) :
    Trimmed (dropZeros fuel d e).1 (dropZeros fuel d e).2 := by
  fun_induction dropZeros fuel d e with
  | case1 d e => exact ⟨by omega, by omega⟩
  | case2 fuel d e hend ih =>
      simp only [Bool.and_eq_true, bne_iff_ne, beq_iff_eq] at hend
      rw [pow_succ] at h
      exact ih (by omega)
  | case3 fuel d e hend =>
      simp only [Bool.and_eq_true, bne_iff_ne, beq_iff_eq] at hend
      exact ⟨by omega, by omega⟩

end Zeros

/-! ### The search for digits -/

section Search

variable {num low high den : Nat} {closed : Bool} {place lead : Int} {d : Nat}

/-- The search ends on one of the grids that it looks at, or with the whole number. -/
theorem searchGrid_cases (fuel count : Nat) :
    searchGrid num low high den closed lead fuel count = (num / den, 0) ∨
      ∃ d c : Nat, c < count + fuel ∧ gridPoint? num low high den closed (lead + 1 - c) = some d ∧
        searchGrid num low high den closed lead fuel count = (d, lead + 1 - c) := by
  fun_induction searchGrid num low high den closed lead fuel count with
  | case1 count => exact .inl rfl
  | case2 fuel count place d h =>
      exact .inr ⟨d, count, by omega, h, rfl⟩
  | case3 fuel count place h ih =>
      rcases ih with ih | ⟨d, c, hc, hpoint, heq⟩
      · exact .inl ih
      · exact .inr ⟨d, c, by omega, hpoint, heq⟩

/-- The power of ten below the one that is found is too small, whether the search ends there or
runs out. -/
theorem scaleUp_gt {fuel s : Nat} (h : num * 10 ^ (s - 1) < den) :
    num * 10 ^ (scaleUp num den fuel s - 1) < den := by
  fun_induction scaleUp num den fuel s with
  | case1 s => exact h
  | case2 fuel s hle => exact h
  | case3 fuel s hle ih => exact ih (by simpa using hle)

theorem one_le_scaleUp {fuel s : Nat} (h : 1 ≤ s) : 1 ≤ scaleUp num den fuel s := by
  fun_induction scaleUp num den fuel s with
  | case1 s => exact h
  | case2 fuel s hle => exact h
  | case3 fuel s hle ih => exact ih (by omega)

/-- A number is less than the power of ten behind its leading place. -/
theorem lt_leadingPlace (hden : 0 < den) : (num : ℚ) < den * 10 ^ (leadingPlace num den + 1) := by
  rw [leadingPlace]
  split
  · have hdigits : num / den < 10 ^ digitCount (num / den) :=
      (Nat.length_toDigits_le_iff (by decide) Nat.length_toDigits_pos).mp le_rfl
    rw [sub_add_cancel, zpow_natCast]
    exact_mod_cast (Nat.div_lt_iff_lt_mul hden).mp hdigits |>.trans_eq (Nat.mul_comm _ _)
  · rename_i hlt
    have hscale : num * 10 ^ (scaleUp num den 400 1 - 1) < den := scaleUp_gt (by simpa using hlt)
    have hone : 1 ≤ scaleUp num den 400 1 := one_le_scaleUp le_rfl
    have hplace : -(scaleUp num den 400 1 : ℤ) + 1 = -((scaleUp num den 400 1 - 1 : ℕ) : ℤ) := by
      omega
    rw [hplace, zpow_neg, zpow_natCast, ← div_eq_mul_inv, lt_div_iff₀ (by positivity)]
    exact_mod_cast hscale

/-- On a grid, a number stands before the power of ten that it is less than. -/
theorem lt_of_grid {count : Nat} (hnum : (num : ℚ) < den * 10 ^ (place + count)) :
    num * (if place < 0 then Nat.pow 10 (-place).toNat else 1) <
      10 ^ count * (if place < 0 then den else den * Nat.pow 10 place.toNat) := by
  rw [zpow_add₀ (by norm_num), zpow_natCast] at hnum
  split
  · have hplace : (10 : ℚ) ^ place = ((10 : ℚ) ^ (-place).toNat)⁻¹ := by
      rw [← zpow_natCast, ← zpow_neg, Int.toNat_of_nonneg (by omega), neg_neg]
    have hlt : (num : ℚ) * 10 ^ (-place).toNat < 10 ^ count * den := by
      rw [hplace] at hnum
      field_simp at hnum
      linarith
    exact_mod_cast hlt
  · have hplace : (10 : ℚ) ^ place = (10 : ℚ) ^ place.toNat := by
      rw [← zpow_natCast, Int.toNat_of_nonneg (by omega)]
    have hlt : (num : ℚ) * 1 < 10 ^ count * (den * 10 ^ place.toNat) := by
      rw [hplace] at hnum
      linarith
    exact_mod_cast hlt

/-- A grid point that is taken is not zero, and at most the power of ten that the number is less
than on the grid. -/
theorem le_of_gridPoint? {count : Nat} (h : gridPoint? num low high den closed place = some d)
    (hlow : 0 < low) (hnum : (num : ℚ) < den * 10 ^ (place + count)) : d ≠ 0 ∧ d ≤ 10 ^ count := by
  have hgrid := lt_of_grid hnum
  have hup : 0 < if place < 0 then Nat.pow 10 (-place).toNat else 1 := by
    split
    · exact Nat.pow_pos (by decide)
    · decide
  simp only [gridPoint?] at h
  generalize (if place < 0 then Nat.pow 10 (-place).toNat else 1) = up at h hgrid hup
  generalize (if place < 0 then den else den * Nat.pow 10 place.toNat) = down at h hgrid
  have hbelow : num * up / down < 10 ^ count :=
    Nat.div_lt_of_lt_mul (hgrid.trans_eq (Nat.mul_comm _ _))
  generalize num * up / down = below at h hbelow
  -- zero is outside of the interval, as this starts behind it
  have hinside {n high : Nat} (h : (if closed = true then
      decide (low * up ≤ n * down) && decide (n * down ≤ high)
      else decide (low * up < n * down) && decide (n * down < high)) = true) : n ≠ 0 := by
    rintro rfl
    have hpositive : 0 < low * up := Nat.mul_pos hlow hup
    cases closed with
    | true =>
        simp only [if_true, Bool.and_eq_true, decide_eq_true_eq] at h
        omega
    | false => simp at h
  split at h
  · rename_i hfirst _
    have hne := hinside hfirst
    split at h <;> cases h <;> omega
  · rename_i hfirst _
    have hne := hinside hfirst
    cases h
    omega
  · cases h
    omega
  · cases h

theorem significand_pos {x : Binary64} (h : x.isZero = false) : 0 < x.significand := by
  rw [significand]
  split
  · rename_i hexponent
    simp only [isZero, hexponent, Bool.true_and, beq_eq_false_iff_ne, ne_eq] at h
    omega
  · omega

/-- The digits of a number are found on a grid with few of them, or the number is taken as a whole
number; either way the zeros behind the point are dropped. -/
theorem trimmed_searchGrid (hden : 0 < den) (hlow : 0 < low) :
    let found := searchGrid num low high den closed (leadingPlace num den) 18 1
    Trimmed (dropZeros 20 found.1 found.2).1 (dropZeros 20 found.1 found.2).2 := by
  intro found
  apply trimmed_dropZeros
  rcases @searchGrid_cases num low high den closed (leadingPlace num den) 18 1 with
    hwhole | ⟨d, count, hcount, hpoint, hgrid⟩
  · refine .inr ?_
    rw [show found = (num / den, 0) from hwhole]
    exact ⟨le_rfl, fun _ => rfl⟩
  · refine .inl ?_
    rw [show found = (d, leadingPlace num den + 1 - count) from hgrid]
    have hnum := @lt_leadingPlace num den hden
    rw [← sub_add_cancel (leadingPlace num den + 1) (count : ℤ)] at hnum
    obtain ⟨hne, hle⟩ := le_of_gridPoint? hpoint hlow hnum
    exact ⟨hne, hle.trans_lt (Nat.pow_lt_pow_right (by decide) (by omega))⟩

theorem trimmed_shortest {x : Binary64} (h : x.isZero = false) :
    Trimmed x.shortest.1 x.shortest.2 := by
  have hsignificand := significand_pos h
  apply trimmed_searchGrid
  · split
    · exact Nat.pow_pos (by decide)
    · decide
  · apply Nat.mul_pos
    · split <;> omega
    · split
      · decide
      · exact Nat.pow_pos (by decide)

/-- A number is written without a plus sign, an exponent, or a zero that could be left out. -/
theorem isPositional_positional (x : Binary64) : IsPositional x.positional := by
  rw [positional]
  split
  · exact .nan
  · dsimp only
    split
    · cases x.negative with
      | false => exact .infinite
      | true => exact .negativeInfinite
    · have hshort {digits : List Char} (h : IsShort digits) :
          IsPositional ((if x.negative = true then ['-'] else []) ++ digits) := by
        cases x.negative with
        | false => exact .positive h
        | true => exact .negative h
      split
      · exact hshort (.whole (isPlain_decimalDigits 0))
      · rename_i hzero
        exact hshort (isShort_placePoint (trimmed_shortest (by simpa using hzero)))

end Search

end Binary64

end Galley
