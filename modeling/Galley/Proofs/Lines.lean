import Galley.NormalForm
import Mathlib.Data.List.DropRight

/-!
Lines of texts and of normal forms.

The text functions are list functions of the library: `splitLines` splits at line
feeds, `joinLines` puts line feeds between, `trimEnd` drops blanks from the right
and `occursIn` decides whether a block is an infix. `Text.lines` reads a text as
lines. The lines of a normal form hold no line feed, are not empty and do not end
in a blank (`mem_contentLines`), and the normal form read as a text has exactly
these lines (`lines_normalize`).
-/

namespace Galley.Text

/-! ### Splitting and joining -/

theorem splitLines_eq_splitOn (s : List Char) : splitLines s = s.splitOn '\n' := by
  induction s with
  | nil => rfl
  | cons c cs ih =>
      rw [List.splitOn_cons_eq_if_modifyHead, splitLines, ih]
      by_cases hc : c = '\n'
      · simp [hc]
      · rw [if_neg hc, if_neg (by simpa using hc)]
        cases h : List.splitOn '\n' cs with
        | nil => exact absurd h (List.splitOn_ne_nil _ _)
        | cons l ls => rfl

theorem joinLines_eq_intercalate (ls : List (List Char)) :
    joinLines ls = ['\n'].intercalate ls := by
  induction ls with
  | nil => rfl
  | cons l ls ih =>
      cases ls with
      | nil => simp [joinLines]
      | cons m ms => simp [joinLines, ih, List.intercalate_cons_cons]

theorem splitLines_ne_nil (s : List Char) : splitLines s ≠ [] := by
  rw [splitLines_eq_splitOn]
  exact List.splitOn_ne_nil _ _

@[simp] theorem joinLines_splitLines (s : List Char) : joinLines (splitLines s) = s := by
  rw [joinLines_eq_intercalate, splitLines_eq_splitOn, List.intercalate_splitOn]

/-- Lines without line feeds are read back from the text that joins them. -/
theorem splitLines_joinLines {ls : List (List Char)} (hne : ls ≠ [])
    (h : ∀ l ∈ ls, '\n' ∉ l) : splitLines (joinLines ls) = ls := by
  rw [splitLines_eq_splitOn, joinLines_eq_intercalate, List.splitOn_intercalate _ h hne]

theorem splitLines_append_newline (s t : List Char) :
    splitLines (s ++ '\n' :: t) = splitLines s ++ splitLines t := by
  simp only [splitLines_eq_splitOn, List.splitOn_append_cons_self]

/-- A character behind a text goes to its last piece. -/
theorem splitLines_concat (s : List Char) {c : Char} (h : c ≠ '\n') :
    ∃ init l, splitLines s = init ++ [l] ∧ splitLines (s ++ [c]) = init ++ [l ++ [c]] := by
  induction s with
  | nil => exact ⟨[], [], rfl, by simp [splitLines, h]⟩
  | cons d s ih =>
      obtain ⟨init, l, hs, hmore⟩ := ih
      rw [List.cons_append, splitLines, splitLines, hs, hmore]
      by_cases hd : d = '\n'
      · rw [if_pos hd, if_pos hd]
        exact ⟨[] :: init, l, rfl, rfl⟩
      · rw [if_neg hd, if_neg hd]
        cases init with
        | nil => exact ⟨[], d :: l, rfl, rfl⟩
        | cons m init => exact ⟨(d :: m) :: init, l, rfl, rfl⟩

/-- A piece holds no line feed. -/
theorem newline_notMem_of_mem_splitLines {s l : List Char} (h : l ∈ splitLines s) :
    '\n' ∉ l := by
  induction s generalizing l with
  | nil =>
      rw [splitLines, List.mem_singleton] at h
      simp [h]
  | cons c cs ih =>
      rw [splitLines] at h
      split at h
      · rcases List.mem_cons.mp h with rfl | h
        · simp
        · exact ih h
      · rename_i hc
        cases hs : splitLines cs with
        | nil => exact absurd hs (splitLines_ne_nil cs)
        | cons m ms =>
            simp only [hs] at h ih
            rcases List.mem_cons.mp h with rfl | h
            · have hm := ih List.mem_cons_self
              simp [hm, Ne.symm hc]
            · exact ih (List.mem_cons_of_mem _ h)

/-- The lines of a text: the pieces that a line feed ends, and the last piece
unless it is empty. -/
def lines (s : List Char) : List (List Char) :=
  if (splitLines s).getLast? = some [] then (splitLines s).dropLast else splitLines s

/-- Lines that are not empty and hold no line feed are the lines of the text that
joins them. -/
theorem lines_joinLines {ls : List (List Char)} (hne : ∀ l ∈ ls, l ≠ [])
    (h : ∀ l ∈ ls, '\n' ∉ l) : lines (joinLines ls) = ls := by
  cases ls with
  | nil => rfl
  | cons l ls =>
      rw [lines, splitLines_joinLines (by simp) h, if_neg]
      intro hlast
      exact hne [] (List.mem_of_getLast? hlast) rfl

/-! ### Trimming -/

theorem dropTailWhile_eq_rdropWhile (p : Char → Bool) (s : List Char) :
    dropTailWhile p s = s.rdropWhile p := by
  induction s with
  | nil => rfl
  | cons c cs ih =>
      have step : (c :: cs).rdropWhile p =
          if cs.rdropWhile p = [] then (if p c then [] else [c]) else c :: cs.rdropWhile p := by
        simp only [List.rdropWhile, List.reverse_cons, List.dropWhile_append,
          List.isEmpty_iff, List.reverse_eq_nil_iff]
        split
        · by_cases hc : p c <;> simp [hc]
        · simp
      rw [dropTailWhile, ih, step]
      cases cs.rdropWhile p <;> simp

theorem trimEnd_eq_rdropWhile (s : List Char) : trimEnd s = s.rdropWhile isBlank :=
  dropTailWhile_eq_rdropWhile isBlank s

theorem trimEnd_prefix_self (s : List Char) : trimEnd s <+: s := by
  rw [trimEnd_eq_rdropWhile]
  exact List.rdropWhile_prefix _ _

@[simp] theorem trimEnd_trimEnd (s : List Char) : trimEnd (trimEnd s) = trimEnd s := by
  simp only [trimEnd_eq_rdropWhile, List.rdropWhile_idempotent]

theorem trimEnd_concat (s : List Char) {c : Char} (hc : isBlank c = true) :
    trimEnd (s ++ [c]) = trimEnd s := by
  rw [trimEnd_eq_rdropWhile, trimEnd_eq_rdropWhile, List.rdropWhile_concat_pos _ _ _ hc]

theorem trimEnd_eq_nil_iff {s : List Char} : trimEnd s = [] ↔ ∀ c ∈ s, isBlank c = true := by
  rw [trimEnd_eq_rdropWhile, List.rdropWhile_eq_nil_iff]

/-- A text is trimmed at its end when it is empty or ends in no blank. -/
theorem trimEnd_eq_self_iff {s : List Char} :
    trimEnd s = s ↔ ∀ h : s ≠ [], isBlank (s.getLast h) = false := by
  simp [trimEnd_eq_rdropWhile, List.rdropWhile_eq_self_iff]

/-- Trimming the front does not touch the end. -/
theorem trimEnd_trimStart {s : List Char} (h : trimEnd s = s) :
    trimEnd (trimStart s) = trimStart s := by
  rw [trimEnd_eq_self_iff] at h ⊢
  intro hne
  have hsuffix : trimStart s <:+ s := List.dropWhile_suffix _
  rw [hsuffix.getLast hne]
  exact h _

theorem trim_of_trimEnd {s : List Char} (h : trimEnd s = s) : trim s = trimStart s := by
  rw [trim, trimEnd_trimStart h]

/-! ### Blocks -/

theorem occursIn_iff {part s : List Char} : occursIn part s = true ↔ part <:+: s := by
  induction s with
  | nil => simp [occursIn]
  | cons c cs ih =>
      rw [occursIn, Bool.or_eq_true, ih, List.isPrefixOf_iff_prefix, List.infix_cons_iff]

end Galley.Text

namespace Galley.Normalizer

open Text

/-! ### Line endings -/

theorem unifyBreaks_cons {c : Char} (hc : c ≠ '\r') (s : List Char) :
    unifyBreaks (c :: s) = c :: unifyBreaks s := by
  rw [unifyBreaks]
  · rw [if_neg hc]
  · intro t hreturn
    exact absurd hreturn hc

/-- A carriage return that no line feed follows ends a line by itself. -/
theorem unifyBreaks_return {s : List Char} (h : s.head? ≠ some '\n') :
    unifyBreaks ('\r' :: s) = '\n' :: unifyBreaks s := by
  rw [unifyBreaks]
  · rw [if_pos rfl]
  · rintro t - rfl
    simp at h

/-- Line endings are read apart in two pieces, unless the second one starts with a
line feed. -/
theorem unifyBreaks_append (s : List Char) {t : List Char} (h : t.head? ≠ some '\n') :
    unifyBreaks (s ++ t) = unifyBreaks s ++ unifyBreaks t := by
  induction s using unifyBreaks.induct with
  | case1 => rfl
  | case2 s ih => simp [unifyBreaks, ih]
  | case3 c s hnot ih =>
      by_cases hc : c = '\r'
      · subst hc
        have hs : s.head? ≠ some '\n' := by
          rintro heq
          obtain ⟨s', rfl⟩ := List.head?_eq_some_iff.mp heq
          exact hnot s' rfl rfl
        have hst : (s ++ t).head? ≠ some '\n' := by
          cases s with
          | nil => exact h
          | cons d s => exact hs
        rw [List.cons_append, unifyBreaks_return hst, unifyBreaks_return hs, ih]
        rfl
      · rw [List.cons_append, unifyBreaks_cons hc, unifyBreaks_cons hc, ih]
        rfl

/-- Reading the line endings makes no block that holds no line feed. -/
theorem prefix_of_prefix_unifyBreaks {block s : List Char} (hblock : '\n' ∉ block)
    (h : block <+: unifyBreaks s) : block <+: s := by
  induction block generalizing s with
  | nil => exact List.nil_prefix
  | cons b block ih =>
      obtain ⟨hb, hblock⟩ := not_or.mp (mt List.mem_cons.mpr hblock)
      cases s with
      | nil => exact h
      | cons c s =>
          by_cases hc : c = '\r'
          · obtain ⟨t, ht⟩ : ∃ t, unifyBreaks (c :: s) = '\n' :: t := by
              subst hc
              by_cases hs : s.head? = some '\n'
              · obtain ⟨s', rfl⟩ := List.head?_eq_some_iff.mp hs
                exact ⟨_, rfl⟩
              · exact ⟨_, unifyBreaks_return hs⟩
            rw [ht, List.cons_prefix_cons] at h
            exact absurd h.1.symm hb
          · rw [unifyBreaks_cons hc, List.cons_prefix_cons] at h
            exact List.cons_prefix_cons.mpr ⟨h.1, ih hblock h.2⟩

theorem infix_of_infix_unifyBreaks {block s : List Char} (hblock : '\n' ∉ block)
    (h : block <:+: unifyBreaks s) : block <:+: s := by
  induction s using unifyBreaks.induct with
  | case1 => exact h
  | case2 s ih =>
      rcases List.infix_cons_iff.mp h with hprefix | hinfix
      · exact (prefix_of_prefix_unifyBreaks (s := '\r' :: '\n' :: s) hblock hprefix).isInfix
      · exact (ih hinfix).trans ⟨['\r', '\n'], [], by simp⟩
  | case3 c s hnot ih =>
      rw [unifyBreaks.eq_3 _ _ hnot] at h
      rcases List.infix_cons_iff.mp h with hprefix | hinfix
      · rw [← unifyBreaks.eq_3 _ _ hnot] at hprefix
        exact (prefix_of_prefix_unifyBreaks hblock hprefix).isInfix
      · exact (ih hinfix).trans (List.suffix_cons c s).isInfix

/-! ### Lines of a normal form -/

/-- A line of content holds no line feed, is not empty and ends in no blank. -/
theorem mem_contentLines {s l : List Char} (h : l ∈ contentLines s) :
    l ≠ [] ∧ '\n' ∉ l ∧ trimEnd l = l := by
  obtain ⟨hmem, hne⟩ := List.mem_filter.mp h
  obtain ⟨piece, hpiece, rfl⟩ := List.mem_map.mp hmem
  refine ⟨by simpa using hne, ?_, trimEnd_trimEnd piece⟩
  intro hin
  exact newline_notMem_of_mem_splitLines hpiece ((trimEnd_prefix_self piece).subset hin)

/-- A line feed divides the lines of content. -/
theorem contentLines_append_newline (s t : List Char) :
    contentLines (s ++ '\n' :: t) = contentLines s ++ contentLines t := by
  simp only [contentLines, splitLines_append_newline, List.map_append, List.filter_append]

/-- A blank at the end counts nowhere. -/
theorem contentLines_concat (s : List Char) {c : Char} (hc : isBlank c = true) (hfeed : c ≠ '\n') :
    contentLines (s ++ [c]) = contentLines s := by
  obtain ⟨init, l, hs, hmore⟩ := splitLines_concat s hfeed
  rw [contentLines, contentLines, hs, hmore, List.map_append, List.map_append,
    List.map_singleton, List.map_singleton, trimEnd_concat l hc]

/-- The normal form read as a text has the lines of the normal form. -/
theorem lines_normalize (n : Normalizer) (s : List Char) :
    Text.lines (n.normalize s) = n.lines s :=
  lines_joinLines (fun _ hl => (mem_contentLines hl).1)
    (fun _ hl => (mem_contentLines hl).2.1)

end Galley.Normalizer
