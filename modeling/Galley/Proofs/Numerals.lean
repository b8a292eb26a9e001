import Galley.Settings.Environment
import Mathlib.Data.List.TakeWhile

/-!
Texts that are read as numbers.

A numeral is a decimal, with a sign, a point and a power of ten where it has them, or the name
of a number that is not finite (`Number.IsNumeral`). These are the texts of variables that are
read as numbers (`Settings.isSome_readNumber?_iff`).
-/

namespace Galley

namespace Number

/-! ### Numerals -/

/-- A sign, or none. -/
def IsSign (s : List Char) : Prop :=
  s = [] ∨ s = ['+'] ∨ s = ['-']

/-- A text of some form behind a sign, or without one. -/
def Signed (form : List Char → Prop) (s : List Char) : Prop :=
  ∃ sign body, s = sign ++ body ∧ IsSign sign ∧ form body

/-- One digit or more. -/
def IsDigits (s : List Char) : Prop :=
  s ≠ [] ∧ s.all Char.isDigit = true

/-- The end of a decimal: nothing, or a power of ten. -/
inductive IsExponent : List Char → Prop where
  | none : IsExponent []
  | power {e : Char} {s : List Char} : e = 'e' ∨ e = 'E' → Signed IsDigits s → IsExponent (e :: s)

/-- Digits, with a point or without, in front of an exponent. A point may be the first or the
last of them. -/
inductive IsDecimal : List Char → Prop where
  | whole {digits exponent : List Char} : IsDigits digits → IsExponent exponent →
      IsDecimal (digits ++ exponent)
  | pointed {before after exponent : List Char} : IsDigits (before ++ after) →
      IsExponent exponent → IsDecimal (before ++ '.' :: (after ++ exponent))

/-- A name of a number that is not finite, in any letter case. -/
def IsSpecial (s : List Char) : Prop :=
  s.map Char.toLower = "inf".toList ∨ s.map Char.toLower = "infinity".toList ∨
    s.map Char.toLower = "nan".toList

def IsNumeral (s : List Char) : Prop :=
  Signed IsDecimal s ∨ Signed IsSpecial s

section Readers

variable {s rest : List Char} {c : Char} {form : List Char → Prop}

/-! ### Signs -/

theorem isSign_of_readSign (s : List Char) :
    ∃ sign, IsSign sign ∧ s = sign ++ (readSign s).2 := by
  unfold readSign
  split
  · exact ⟨['-'], .inr (.inr rfl), rfl⟩
  · exact ⟨['+'], .inr (.inl rfl), rfl⟩
  · exact ⟨[], .inl rfl, rfl⟩

/-- A text that does not start with a sign is left as it is. -/
theorem readSign_eq_self (h : ∀ c ∈ s.head?, c ≠ '-' ∧ c ≠ '+') : readSign s = (false, s) := by
  unfold readSign
  split
  · exact absurd rfl (h _ rfl).1
  · exact absurd rfl (h _ rfl).2
  · rfl

theorem readSign_append {sign : List Char} (hsign : IsSign sign)
    (h : ∀ c ∈ s.head?, c ≠ '-' ∧ c ≠ '+') : (readSign (sign ++ s)).2 = s := by
  rcases hsign with rfl | rfl | rfl
  · rw [List.nil_append, readSign_eq_self h]
  · rfl
  · rfl

/-- The rest behind a sign has a form just when the text has it, but for the sign. -/
theorem readSign_iff (hform : ∀ body, form body → ∀ c ∈ body.head?, c ≠ '-' ∧ c ≠ '+') :
    form (readSign s).2 ↔ Signed form s := by
  constructor
  · intro h
    obtain ⟨sign, hsign, hs⟩ := isSign_of_readSign s
    exact ⟨sign, _, hs, hsign, h⟩
  · rintro ⟨sign, body, rfl, hsign, h⟩
    rw [readSign_append hsign (hform body h)]
    exact h

/-- The first character of a text behind a sign, or without one. -/
theorem Signed.head {p : Char → Prop} (h : Signed form s)
    (hform : ∀ body, form body → ∀ c ∈ body.head?, p c) :
    ∀ c ∈ s.head?, c = '+' ∨ c = '-' ∨ p c := by
  obtain ⟨sign, body, rfl, rfl | rfl | rfl, hbody⟩ := h
  · exact fun c hc => .inr (.inr (hform body hbody c hc))
  · exact fun c hc => .inl (Option.some.inj hc).symm
  · exact fun c hc => .inr (.inl (Option.some.inj hc).symm)

/-! ### Digits -/

theorem IsDigits.head (h : IsDigits s) : ∀ c ∈ s.head?, c.isDigit = true := by
  intro c hc
  exact List.all_eq_true.mp h.2 c (List.mem_of_mem_head? hc)

theorem IsDigits.head_ne_sign (h : IsDigits s) : ∀ c ∈ s.head?, c ≠ '-' ∧ c ≠ '+' := by
  intro c hc
  have hdigit := h.head c hc
  constructor <;> rintro rfl <;> cases hdigit

theorem digitValue?_eq (c : Char) :
    digitValue? 10 c = if c.isDigit = true then some (c.toNat - 48) else none := by
  have hdigit : c.isDigit = true ↔ 48 ≤ c.toNat ∧ c.toNat ≤ 57 := Char.isDigit_iff_toNat
  simp only [digitValue?, hdigit, Bool.and_eq_true, decide_eq_true_eq, Char.le_def,
    UInt32.le_iff_toNat_le]
  change (if (if _ then _ else if 97 ≤ c.toNat ∧ c.toNat ≤ 122 then c.toNat - 87
    else if 65 ≤ c.toNat ∧ c.toNat ≤ 90 then c.toNat - 55 else 10) < 10 then _ else _) = _
  grind

theorem foldlM_digitValue? (s : List Char) (n : Nat) :
    s.foldlM (fun acc c => (digitValue? 10 c).map (acc * 10 + ·)) n =
      if s.all Char.isDigit then some (Nat.ofDigitChars 10 s n) else none := by
  induction s generalizing n with
  | nil => rfl
  | cons c s ih =>
      rw [List.foldlM_cons, digitValue?_eq, List.all_cons]
      by_cases hdigit : c.isDigit = true
      · have hzero : '0'.toNat = 48 := rfl
        rw [if_pos hdigit, hdigit, Bool.true_and, Nat.ofDigitChars_cons, hzero, Nat.mul_comm 10]
        exact ih _
      · simp [hdigit]

theorem readDigits?_of_isDigits (h : IsDigits s) :
    readDigits? 10 s = some (Nat.ofDigitChars 10 s 0) := by
  rw [readDigits?, if_neg (by simpa using h.1), foldlM_digitValue?, if_pos h.2]

theorem isSome_readDigits?_iff : (readDigits? 10 s).isSome = true ↔ IsDigits s := by
  constructor
  · intro h
    rw [readDigits?, foldlM_digitValue?] at h
    cases s with
    | nil => cases h
    | cons c s =>
        refine ⟨List.cons_ne_nil c s, ?_⟩
        by_contra hdigits
        rw [if_neg hdigits] at h
        cases h
  · intro h
    rw [readDigits?_of_isDigits h]
    rfl

theorem isSome_readWhole?_iff : (readWhole? s).isSome = true ↔ Signed IsDigits s := by
  rw [← readSign_iff fun body h => h.head_ne_sign, ← isSome_readDigits?_iff, readWhole?]
  obtain ⟨negative, digits⟩ := readSign s
  dsimp only
  cases readDigits? 10 digits <;> rfl

/-! ### Decimals -/

theorem isSome_readExponent?_iff : (readExponent? s).isSome = true ↔ Signed IsDigits s := by
  rw [← readSign_iff fun body h => h.head_ne_sign, readExponent?]
  simp [IsDigits]

theorem IsExponent.head (h : IsExponent s) : ∀ c ∈ s.head?, c.isDigit = false ∧ c ≠ '.' := by
  cases h with
  | none => simp
  | power he hpower =>
      rintro c hc
      obtain rfl := Option.some.inj hc
      rcases he with rfl | rfl <;> decide

/-- Digits are cut off up to the first other character. -/
theorem span_digits {digits : List Char} (hdigits : digits.all Char.isDigit = true)
    (hrest : ∀ c ∈ rest.head?, c.isDigit = false) :
    (digits ++ rest).takeWhile Char.isDigit = digits ∧
      (digits ++ rest).dropWhile Char.isDigit = rest := by
  rw [List.all_eq_true] at hdigits
  rw [List.takeWhile_append_of_pos hdigits, List.dropWhile_append_of_pos hdigits]
  cases rest with
  | nil => simp
  | cons c rest => simp [hrest c rfl]

theorem isExponent_cons_iff {e : Char} :
    IsExponent (e :: rest) ↔ (e = 'e' ∨ e = 'E') ∧ Signed IsDigits rest := by
  constructor
  · rintro (_ | ⟨he, hpower⟩)
    exact ⟨he, hpower⟩
  · rintro ⟨he, hpower⟩
    exact .power he hpower

/-- What is read from the parts of a decimal is there when the digits are, and the rest is an
exponent. -/
theorem isSome_parts_iff {before after : List Char} {value : Nat} {places : Int} :
    (if (before ++ after).isEmpty = true then none else
      match rest with
      | [] => some (value, -places)
      | e :: rest =>
        if (e == 'e' || e == 'E') = true then
          (readExponent? rest).bind fun power => some (value, power - places)
        else none).isSome = true ↔ before ++ after ≠ [] ∧ IsExponent rest := by
  by_cases hnil : before ++ after = []
  · simp [hnil]
  · rw [if_neg (by simpa using hnil)]
    simp only [ne_eq, hnil, not_false_eq_true, true_and]
    cases rest with
    | nil => simpa using IsExponent.none
    | cons e rest =>
        rw [isExponent_cons_iff, ← isSome_readExponent?_iff]
        by_cases he : e = 'e' ∨ e = 'E'
        · dsimp only
          rw [if_pos (by simpa using he)]
          cases readExponent? rest <;> simp [he]
        · simp [he]

/-- A decimal is digits, a point and digits, with an exponent behind them. -/
theorem isSome_readDecimal?_of_point (h : s.dropWhile Char.isDigit = '.' :: rest) :
    (readDecimal? s).isSome = true ↔
      s.takeWhile Char.isDigit ++ rest.takeWhile Char.isDigit ≠ [] ∧
        IsExponent (rest.dropWhile Char.isDigit) := by
  rw [readDecimal?, h]
  exact isSome_parts_iff

theorem isSome_readDecimal?_of_no_point (h : ∀ rest, s.dropWhile Char.isDigit ≠ '.' :: rest) :
    (readDecimal? s).isSome = true ↔
      s.takeWhile Char.isDigit ++ [] ≠ [] ∧ IsExponent (s.dropWhile Char.isDigit) := by
  rw [readDecimal?]
  split
  rename_i after digits hcut
  split at hcut
  · exact absurd ‹_› (h _)
  · cases hcut
    exact isSome_parts_iff

theorem isSome_readDecimal?_iff : (readDecimal? s).isSome = true ↔ IsDecimal s := by
  constructor
  · intro h
    rw [← List.takeWhile_append_dropWhile (p := Char.isDigit) (l := s)]
    -- The digits are cut off first; only a point behind them can lead to more digits.
    by_cases hpoint : ∃ rest, s.dropWhile Char.isDigit = '.' :: rest
    · obtain ⟨rest, hpoint⟩ := hpoint
      obtain ⟨hne, hexponent⟩ := (isSome_readDecimal?_of_point hpoint).mp h
      rw [hpoint, ← List.takeWhile_append_dropWhile (p := Char.isDigit) (l := rest)]
      refine .pointed ⟨hne, ?_⟩ hexponent
      simp
    · obtain ⟨hne, hexponent⟩ :=
        (isSome_readDecimal?_of_no_point fun rest hrest => hpoint ⟨rest, hrest⟩).mp h
      exact .whole ⟨by simpa using hne, List.all_takeWhile⟩ hexponent
  · rintro (⟨hdigits, hexponent⟩ | ⟨hdigits, hexponent⟩)
    · rename_i digits exponent
      obtain ⟨htake, hdrop⟩ := span_digits hdigits.2 fun c hc => (hexponent.head c hc).1
      rw [isSome_readDecimal?_of_no_point, htake, hdrop, List.append_nil]
      · exact ⟨hdigits.1, hexponent⟩
      · rintro rest hrest
        rw [hdrop] at hrest
        subst hrest
        exact (hexponent.head '.' rfl).2 rfl
    · rename_i before after exponent
      have hall := hdigits.2
      rw [List.all_append, Bool.and_eq_true] at hall
      obtain ⟨htake, hdrop⟩ := @span_digits ('.' :: (after ++ exponent)) before hall.1 (by simp)
      obtain ⟨htake', hdrop'⟩ := span_digits hall.2 fun c hc => (hexponent.head c hc).1
      rw [isSome_readDecimal?_of_point hdrop, htake, htake', hdrop']
      exact ⟨hdigits.1, hexponent⟩

theorem IsDecimal.head (h : IsDecimal s) : ∀ c ∈ s.head?, c.isDigit = true ∨ c = '.' := by
  cases h with
  | @whole digits exponent hdigits hexponent =>
      obtain ⟨d, rest, rfl⟩ := List.exists_cons_of_ne_nil hdigits.1
      exact fun c hc => .inl (hdigits.head c hc)
  | @pointed before after exponent hdigits hexponent =>
      cases before with
      | nil => exact fun c hc => .inr (Option.some.inj hc).symm
      | cons d before => exact fun c hc => .inl (hdigits.head c hc)

theorem isSome_readBinary?_iff : (readBinary? s).isSome = true ↔ Signed IsDecimal s := by
  have hsign (body : List Char) (h : IsDecimal body) : ∀ c ∈ body.head?, c ≠ '-' ∧ c ≠ '+' := by
    intro c hc
    rcases h.head c hc with hdigit | rfl
    · constructor <;> rintro rfl <;> cases hdigit
    · decide
  rw [← readSign_iff hsign, ← isSome_readDecimal?_iff, readBinary?, Option.isSome_map]

/-- Whole numbers are decimals. -/
theorem Signed.isDecimal (h : Signed IsDigits s) : Signed IsDecimal s := by
  obtain ⟨sign, body, rfl, hsign, hbody⟩ := h
  exact ⟨sign, body, rfl, hsign, by simpa using IsDecimal.whole hbody .none⟩

theorem IsSpecial.head (h : IsSpecial s) :
    ∀ c ∈ s.head?, c.toLower = 'i' ∨ c.toLower = 'n' := by
  intro c hc
  obtain ⟨rest, rfl⟩ := List.head?_eq_some_iff.mp hc
  rcases h with h | h | h
  · exact .inl (List.cons.inj h).1
  · exact .inl (List.cons.inj h).1
  · exact .inr (List.cons.inj h).1

/-- The first character of a numeral. -/
theorem IsNumeral.head (h : IsNumeral s) : ∀ c ∈ s.head?,
    c = '+' ∨ c = '-' ∨ c.isDigit = true ∨ c = '.' ∨ c.toLower = 'i' ∨ c.toLower = 'n' := by
  intro c hc
  rcases h with h | h
  · have hhead := h.head (fun body hbody => hbody.head) c hc
    exact hhead.imp_right fun h => h.imp_right fun h => h.imp_right .inl
  · have hhead := h.head (fun body hbody => hbody.head) c hc
    exact hhead.imp_right fun h => h.imp_right fun h => .inr (.inr h)

end Readers

end Number

namespace Settings

open Number

variable {s : List Char}

theorem isSome_readSpecial?_iff : (readSpecial? s).isSome = true ↔ Signed IsSpecial s := by
  have hsign (body : List Char) (h : IsSpecial body) : ∀ c ∈ body.head?, c ≠ '-' ∧ c ≠ '+' := by
    intro c hc
    constructor <;> rintro rfl <;> exact absurd (h.head _ hc) (by decide)
  rw [← readSign_iff hsign, readSpecial?]
  obtain ⟨negative, rest⟩ := readSign s
  simp only [IsSpecial, beq_iff_eq, Bool.or_eq_true, ← or_assoc]
  split
  · rename_i hinfinite
    exact iff_of_true rfl (.inl hinfinite)
  · rename_i hinfinite
    split
    · rename_i hnan
      exact iff_of_true rfl (.inr hnan)
    · rename_i hnan
      exact iff_of_false Bool.false_ne_true (not_or.mpr ⟨hinfinite, hnan⟩)

/-- The texts that are read as numbers are the numerals. -/
theorem isSome_readNumber?_iff : (readNumber? s).isSome = true ↔ IsNumeral s := by
  rw [IsNumeral, ← isSome_readBinary?_iff, ← isSome_readSpecial?_iff]
  fun_cases readNumber? s with
  | case1 n h =>
      have hwhole : (readWhole? s).isSome = true := by
        obtain ⟨hread, -⟩ := Option.filter_eq_some_iff.mp h
        rw [hread]
        rfl
      have hbinary := isSome_readBinary?_iff.mpr (isSome_readWhole?_iff.mp hwhole).isDecimal
      simp [hbinary]
  | case2 h => simp [Option.orElse_eq_or]

end Settings

end Galley
