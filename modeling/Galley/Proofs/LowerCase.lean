import Galley.Text.LetterCase
import Mathlib.Tactic.ByContra

/-!
Texts in lower case.

A lower-case text stays as it is when its letters are put in lower case once more
(`Text.toLower_eq_self_of_mem`). A word of ASCII characters is the lower case of a text when
the text is the word but for the case of its letters (`Text.toLower_eq_iff`). A `k` in the word
would not do: the Kelvin sign, too, has the lower case `k`.
-/

namespace Galley.Text

def IsAscii (c : Char) : Prop :=
  c.toNat < 0x80

instance (c : Char) : Decidable (IsAscii c) :=
  inferInstanceAs (Decidable (_ < _))

section Chars

variable {c : Char}

theorem toLower_of_not_isUpper (h : ¬ c.isUpper) : c.toLower = c :=
  dif_neg (mt decide_eq_true h)

/-- A capital letter of ASCII stands 32 places before its small letter. -/
theorem toNat_toLower_of_isUpper (h : c.isUpper) :
    (0x41 ≤ c.toNat ∧ c.toNat ≤ 0x5A) ∧ c.toLower.toNat = c.toNat + 0x20 := by
  have hbounds : 'A'.val ≤ c.val ∧ c.val ≤ 'Z'.val := of_decide_eq_true h
  have hrange : 0x41 ≤ c.toNat ∧ c.toNat ≤ 0x5A :=
    ⟨UInt32.le_iff_toNat_le.mp hbounds.1, UInt32.le_iff_toNat_le.mp hbounds.2⟩
  refine ⟨hrange, ?_⟩
  have hsum : c.val.toNat + 0x20 < 2 ^ 32 :=
    Nat.lt_of_le_of_lt (Nat.add_le_add_right hrange.2 _) (by decide)
  exact (congrArg Char.toNat (dif_pos hbounds)).trans
    ((UInt32.toNat_add ..).trans (Nat.mod_eq_of_lt hsum))

theorem isLower_toLower (h : c.isUpper) : c.toLower.isLower := by
  obtain ⟨⟨hfirst, hlast⟩, hsmall⟩ := toNat_toLower_of_isUpper h
  have hrange : 0x61 ≤ c.toLower.toNat ∧ c.toLower.toNat ≤ 0x7A := by omega
  exact Bool.and_eq_true_iff.mpr ⟨decide_eq_true (UInt32.le_iff_toNat_le.mpr hrange.1),
    decide_eq_true (UInt32.le_iff_toNat_le.mpr hrange.2)⟩

theorem toLower_toLower (c : Char) : c.toLower.toLower = c.toLower := by
  by_cases h : c.isUpper
  · obtain ⟨⟨hfirst, -⟩, hsmall⟩ := toNat_toLower_of_isUpper h
    refine toLower_of_not_isUpper fun hupper => ?_
    obtain ⟨⟨-, hlast⟩, -⟩ := toNat_toLower_of_isUpper hupper
    omega
  · rw [toLower_of_not_isUpper h, toLower_of_not_isUpper h]

theorem toLower_of_not_isAscii (h : ¬ IsAscii c) : c.toLower = c := by
  refine toLower_of_not_isUpper fun hupper => h ?_
  obtain ⟨⟨-, hlast⟩, -⟩ := toNat_toLower_of_isUpper hupper
  exact Nat.lt_of_le_of_lt hlast (by decide)

theorem lowerOf_of_isAscii (h : IsAscii c) : lowerOf c = [c.toLower] :=
  if_pos h

/-! ### Characters beyond ASCII -/

/-- All characters of a run have lower-case characters beyond ASCII, or `k` is the only
one. -/
def CaseRun.LeadsOut (r : CaseRun) : Prop :=
  (0x80 ≤ r.first + r.distance ∧ r.last + r.distance < 0xD800) ∨
    (0xE000 ≤ r.first + r.distance ∧ r.last + r.distance < 0x110000) ∨
    (r.first = r.last ∧ r.first + r.distance = 'k'.toNat)

instance (r : CaseRun) : Decidable r.LeadsOut :=
  inferInstanceAs (Decidable (_ ∨ _))

theorem leadsOut_of_mem_lowerRuns : ∀ r ∈ lowerRuns, r.LeadsOut := by
  decide

theorem leadsOut_of_mem_lowerRunsLate : ∀ r ∈ lowerRunsLate, r.LeadsOut := by
  decide

theorem ofNat_shift_of_leadsOut {runs : List CaseRun} (hruns : ∀ r ∈ runs, r.LeadsOut)
    (h : ¬ IsAscii c) :
    ¬ IsAscii (Char.ofNat (shift runs c.toNat)) ∨ Char.ofNat (shift runs c.toNat) = 'k' := by
  have hvalid {n : Nat} (hn : 0x80 ≤ n) (hchar : n.isValidChar) : ¬ IsAscii (Char.ofNat n) := by
    have hnat : (Char.ofNat n).toNat = n := by
      rw [Char.ofNat, dif_pos hchar]
      rfl
    rw [IsAscii, hnat]
    omega
  rw [shift]
  split
  · rename_i r hr
    have hmem := hruns r (List.mem_of_find?_eq_some hr)
    have hholds := List.find?_some hr
    simp only [CaseRun.holds, Bool.and_eq_true, decide_eq_true_eq] at hholds
    obtain ⟨⟨hfirst, hlast⟩, -⟩ := hholds
    rcases hmem with ⟨hlow, hhigh⟩ | ⟨hlow, hhigh⟩ | ⟨hone, hk⟩
    · exact .inl (hvalid (by omega) (.inl (by omega)))
    · exact .inl (hvalid (by omega) (.inr (by omega)))
    · rw [show ((c.toNat : Int) + r.distance).toNat = 'k'.toNat by omega]
      exact .inr rfl
  · rw [Char.ofNat_toNat]
    exact .inl h

theorem lowerOf_of_not_isAscii (h : ¬ IsAscii c) :
    (∀ d ∈ lowerOf c, d.toLower = d) ∧ ∃ d ∈ lowerOf c, ¬ IsAscii d ∨ d = 'k' := by
  have heq : lowerOf c = if c.toNat == 0x130 then ['i', Char.ofNat 0x307]
      else [Char.ofNat (shift (if c.toNat < 0x1E00 then lowerRuns else lowerRunsLate) c.toNat)] :=
    if_neg h
  rw [heq]
  split
  · have hmark : ¬ IsAscii (Char.ofNat 0x307) := by decide
    refine ⟨?_, _, List.mem_cons_of_mem _ (List.mem_singleton_self _), .inl hmark⟩
    rw [List.forall_mem_cons]
    exact ⟨rfl, by simp⟩
  · have hout : ∀ r ∈ if c.toNat < 0x1E00 then lowerRuns else lowerRunsLate, r.LeadsOut := by
      split
      · exact leadsOut_of_mem_lowerRuns
      · exact leadsOut_of_mem_lowerRunsLate
    have hd := ofNat_shift_of_leadsOut hout h
    refine ⟨?_, _, List.mem_singleton_self _, hd⟩
    simp only [List.mem_singleton, forall_eq]
    rcases hd with hd | hd
    · exact toLower_of_not_isAscii hd
    · rw [hd]
      rfl

end Chars

/-! ### Texts -/

section Texts

variable {s word before : List Char}

/-- The lower case of a character, wherever it stands. -/
theorem toLowerFrom_cons (before : List Char) (c : Char) (cs : List Char) :
    ∃ low, toLowerFrom before (c :: cs) = low ++ toLowerFrom (c :: before) cs ∧
      (IsAscii c → low = [c.toLower]) ∧ (∀ d ∈ low, d.toLower = d) ∧
      (¬ IsAscii c → ∃ d ∈ low, ¬ IsAscii d ∨ d = 'k') := by
  rw [toLowerFrom]
  refine ⟨_, rfl, ?_⟩
  by_cases hsigma : c.toNat = 0x3A3
  · have hc : ¬ IsAscii c := by
      rw [IsAscii, hsigma]
      decide
    simp only [hsigma, beq_self_eq_true, if_true, List.mem_singleton, forall_eq, exists_eq_left]
    refine ⟨fun h => absurd h hc, ?_, fun _ => .inl ?_⟩
    · split <;> decide
    · split <;> decide
  · simp only [beq_eq_false_iff_ne.mpr hsigma, Bool.false_eq_true, if_false]
    by_cases hc : IsAscii c
    · rw [lowerOf_of_isAscii hc]
      exact ⟨fun _ => rfl, List.forall_mem_singleton.mpr (toLower_toLower c),
        fun h => absurd hc h⟩
    · exact ⟨fun h => absurd h hc, (lowerOf_of_not_isAscii hc).1,
        fun _ => (lowerOf_of_not_isAscii hc).2⟩

theorem toLowerFrom_of_isAscii (h : ∀ c ∈ s, IsAscii c) :
    toLowerFrom before s = s.map Char.toLower := by
  induction s generalizing before with
  | nil => rfl
  | cons c cs ih =>
      obtain ⟨hc, hcs⟩ := List.forall_mem_cons.mp h
      obtain ⟨low, heq, hlow, -⟩ := toLowerFrom_cons before c cs
      rw [heq, hlow hc, ih hcs]
      rfl

theorem toLower_eq_self_of_mem_toLowerFrom {d : Char} (h : d ∈ toLowerFrom before s) :
    d.toLower = d := by
  induction s generalizing before with
  | nil => simp [toLowerFrom] at h
  | cons c cs ih =>
      obtain ⟨low, heq, -, hlow, -⟩ := toLowerFrom_cons before c cs
      rw [heq, List.mem_append] at h
      rcases h with h | h
      · exact hlow d h
      · exact ih h

/-- The characters of a lower-case text are in lower case. -/
theorem toLower_eq_self_of_mem {d : Char} (h : d ∈ toLower s) : d.toLower = d :=
  toLower_eq_self_of_mem_toLowerFrom h

theorem exists_mem_toLowerFrom {c : Char} (hmem : c ∈ s) (h : ¬ IsAscii c) :
    ∃ d ∈ toLowerFrom before s, ¬ IsAscii d ∨ d = 'k' := by
  induction s generalizing before with
  | nil => cases hmem
  | cons c' cs ih =>
      obtain ⟨low, heq, -, -, hlow⟩ := toLowerFrom_cons before c' cs
      rw [heq]
      rcases List.mem_cons.mp hmem with rfl | hmem
      · obtain ⟨d, hd, hout⟩ := hlow h
        exact ⟨d, List.mem_append_left _ hd, hout⟩
      · obtain ⟨d, hd, hout⟩ := ih hmem
        exact ⟨d, List.mem_append_right _ hd, hout⟩

/-- The texts whose lower case is a given word of ASCII without a `k`. -/
theorem toLower_eq_iff (hword : ∀ d ∈ word, IsAscii d ∧ d ≠ 'k') :
    toLower s = word ↔ s.map Char.toLower = word := by
  suffices (toLower s = word ∨ s.map Char.toLower = word) → ∀ c ∈ s, IsAscii c by
    constructor
    · intro h
      rw [← h, toLower, toLowerFrom_of_isAscii (this (.inl h))]
    · intro h
      rw [← h, toLower, toLowerFrom_of_isAscii (this (.inr h))]
  rintro (rfl | rfl) c hc
  · by_contra hout
    obtain ⟨d, hd, hd' | hd'⟩ : ∃ d ∈ toLower s, ¬ IsAscii d ∨ d = 'k' :=
      exists_mem_toLowerFrom hc hout
    · exact hd' (hword d hd).1
    · exact (hword d hd).2 hd'
  · by_contra hout
    exact hout (toLower_of_not_isAscii hout ▸ (hword _ (List.mem_map_of_mem hc)).1)

end Texts

end Galley.Text
