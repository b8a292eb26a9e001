import Galley.Proofs.Containment
import Galley.Proofs.Loosening

/-!
What a normal form is.

`Normalizer.IsNormalForm` says it of a text: no carriage return, no blank line and no blank at
the end of a line, no line feed at either end, and no comment. These are the texts that
normalizing leaves alone (`normalize_eq_self_iff`), and every outcome is one as long as it has no
comment (`isNormalForm_normalize_iff`). Trimming may join what was apart to a new comment, but
none whose markers hold no line feed behind their first character (`not_hasSpan_normalize`). So
with markers on one line every outcome is a normal form, which consists of the trimmed lines of
the stripped text that are not blank (`normalize_normalForm`).
-/

namespace Galley

open Text Comment

/-! ### Lines of a text -/

namespace Text

section Lines

variable {s : List Char} {ls ms : List (List Char)}

theorem joinLines_cons (l : List Char) (h : ls ≠ []) :
    joinLines (l :: ls) = l ++ '\n' :: joinLines ls := by
  cases ls with
  | nil => exact absurd rfl h
  | cons m ms => rfl

theorem joinLines_append (hls : ls ≠ []) (hms : ms ≠ []) :
    joinLines (ls ++ ms) = joinLines ls ++ '\n' :: joinLines ms := by
  induction ls with
  | nil => exact absurd rfl hls
  | cons l ls ih =>
      by_cases hempty : ls = []
      · rw [hempty]
        exact joinLines_cons l hms
      · rw [List.cons_append, joinLines_cons l (by simp [hempty]), joinLines_cons l hempty,
          ih hempty, List.append_assoc]
        rfl

/-- Only a text that ends in a line feed is more than its lines. -/
theorem joinLines_lines (h : s.getLast? ≠ some '\n') : joinLines (lines s) = s := by
  rw [lines]
  split
  · rename_i hlast
    obtain ⟨init, hinit⟩ := List.getLast?_eq_some_iff.mp hlast
    have hs := joinLines_splitLines s
    rw [hinit] at hs ⊢
    rw [List.dropLast_concat]
    by_cases hempty : init = []
    · rw [← hs, hempty]
      rfl
    · rw [joinLines_append hempty (List.cons_ne_nil _ _)] at hs
      rw [← hs] at h
      exact absurd List.getLast?_concat h
  · exact joinLines_splitLines s

theorem head?_joinLines {l : List Char} (hl : l ≠ []) :
    (joinLines (l :: ls)).head? = l.head? := by
  obtain ⟨c, l, rfl⟩ := List.exists_cons_of_ne_nil hl
  cases ls <;> rfl

theorem getLast?_joinLines {l : List Char} (hl : l ≠ []) :
    (joinLines (ls ++ [l])).getLast? = l.getLast? := by
  by_cases hls : ls = []
  · rw [hls]
    rfl
  · rw [joinLines_append hls (List.cons_ne_nil _ _), List.getLast?_append, joinLines,
      List.getLast?_cons_of_ne_nil hl, List.getLast?_eq_some_getLast hl]
    rfl

theorem filter_lines (p : List Char → Bool) (hp : p [] = false) :
    (lines s).filter p = (splitLines s).filter p := by
  rw [lines]
  split
  · rename_i hlast
    obtain ⟨init, hinit⟩ := List.getLast?_eq_some_iff.mp hlast
    rw [hinit, List.dropLast_concat, List.filter_append, List.filter_singleton, hp]
    simp
  · rfl

/-- Behind a trimmed text there were blanks. -/
theorem exists_blanks_trimEnd (l : List Char) : ∃ w, AllBlank w ∧ l = trimEnd l ++ w := by
  refine ⟨(l.reverse.takeWhile isBlank).reverse, ?_, ?_⟩
  · intro c hc
    exact List.mem_takeWhile_imp (List.mem_reverse.mp hc)
  · rw [trimEnd_eq_rdropWhile, List.rdropWhile, ← List.reverse_append,
      List.takeWhile_append_dropWhile, List.reverse_reverse]

end Lines

end Text

namespace Normalizer

section Lines

variable {s : List Char} {ls : List (List Char)}

def hasContent (l : List Char) : Bool :=
  !l.all isBlank

theorem hasContent_iff {l : List Char} : hasContent l = true ↔ ∃ c ∈ l, isBlank c = false := by
  simp [hasContent]

theorem hasContent_eq (l : List Char) : hasContent l = !(trimEnd l).isEmpty := by
  rw [hasContent, Bool.not_inj_iff, Bool.eq_iff_iff, List.isEmpty_iff, trimEnd_eq_nil_iff,
    List.all_eq_true]

/-- The lines of content are the trimmed lines that are not blank. -/
theorem contentLines_eq (s : List Char) :
    contentLines s = ((Text.lines s).filter hasContent).map trimEnd := by
  rw [contentLines, List.filter_map, filter_lines hasContent rfl]
  congr 2
  funext l
  exact (hasContent_eq l).symm

/-- Lines of content are the only lines of content in the text that joins them. -/
theorem contentLines_joinLines (h : ∀ l ∈ ls, l ≠ [] ∧ '\n' ∉ l ∧ trimEnd l = l) :
    contentLines (joinLines ls) = ls := by
  have hlines : Text.lines (joinLines ls) = ls :=
    lines_joinLines (fun l hl => (h l hl).1) fun l hl => (h l hl).2.1
  have hcontent : ls.filter hasContent = ls := by
    rw [List.filter_eq_self]
    intro l hl
    rw [hasContent_eq, (h l hl).2.2]
    simpa using (h l hl).1
  rw [contentLines_eq, hlines, hcontent]
  exact (List.map_congr_left fun l hl => (h l hl).2.2).trans (List.map_id _)

theorem framed_eq (h : ls ≠ []) : framed ls = '\n' :: joinLines ls := by
  induction ls with
  | nil => exact absurd rfl h
  | cons l ls ih =>
      by_cases hempty : ls = []
      · simp [hempty, joinLines]
      · rw [framed_cons, ih hempty, joinLines_cons l hempty]

/-- Trimmed lines are the lines before they were trimmed and blank ones left out. -/
theorem loosened_framed (ls : List (List Char)) :
    Loosened (framed ((ls.map trimEnd).filter fun l => !l.isEmpty)) (framed ls) := by
  induction ls with
  | nil => exact .ends .nil
  | cons l ls ih =>
      have hhead : ∀ ms, (framed ms).head? = none ∨ (framed ms).head? = some '\n' := by
        intro ms
        cases ms with
        | nil => exact .inl rfl
        | cons m ms => exact .inr rfl
      by_cases hempty : trimEnd l = []
      · have hblank : AllBlank ('\n' :: l) :=
          allBlank_newline.append (trimEnd_eq_nil_iff.mp hempty)
        rw [List.map_cons, List.filter_cons_of_neg (by simp [hempty])]
        exact ih.widen (hhead _) hblank
      · obtain ⟨w, hw, hl⟩ := exists_blanks_trimEnd l
        rw [List.map_cons, List.filter_cons_of_pos (by simpa using hempty), framed_cons,
          framed_cons]
        nth_rewrite 2 [hl]
        rw [List.append_assoc]
        exact .keep '\n' ((ih.widen (hhead _) hw).append_left _)

/-- A text before its lines are trimmed, with a line feed in front. -/
theorem loosened_contentLines (h : contentLines s ≠ []) :
    Loosened ('\n' :: joinLines (contentLines s)) ('\n' :: s) := by
  have hloose := loosened_framed (splitLines s)
  rw [framed_eq (splitLines_ne_nil s), joinLines_splitLines] at hloose
  rwa [← framed_eq h]

theorem joinLines_contentLines_sublist (s : List Char) :
    (joinLines (contentLines s)).Sublist s := by
  by_cases h : contentLines s = []
  · rw [h]
    exact List.nil_sublist s
  · exact List.cons_sublist_cons.mp (loosened_contentLines h).sublist

end Lines

/-! ### Line endings -/

theorem return_notMem_unifyBreaks (s : List Char) : '\r' ∉ unifyBreaks s := by
  induction s using unifyBreaks.induct with
  | case1 => simp [unifyBreaks]
  | case2 s ih => simpa [unifyBreaks] using ih
  | case3 c s hnot ih =>
      rw [unifyBreaks.eq_3 _ _ hnot, List.mem_cons, not_or]
      refine ⟨?_, ih⟩
      split
      · decide
      · rename_i hc
        exact Ne.symm hc

theorem unifyBreaks_eq_self {s : List Char} (h : '\r' ∉ s) : unifyBreaks s = s := by
  induction s with
  | nil => rfl
  | cons c s ih =>
      obtain ⟨hc, hs⟩ := not_or.mp (mt List.mem_cons.mpr h)
      rw [unifyBreaks_cons (Ne.symm hc), ih hs]

/-! ### Normal forms -/

structure IsNormalForm (n : Normalizer) (t : List Char) : Prop where
  noReturn : '\r' ∉ t
  notBlank : ∀ l ∈ Text.lines t, ∃ c ∈ l, isBlank c = false
  trimmed : ∀ l ∈ Text.lines t, trimEnd l = l
  front : t.head? ≠ some '\n'
  back : t.getLast? ≠ some '\n'
  noComment : NoSpan n.comments t

section Forms

variable {n : Normalizer} {s t : List Char}

/-- Of a text with unified line endings, a part is kept in order. -/
theorem normalize_sublist (n : Normalizer) (s : List Char) :
    (n.normalize s).Sublist (n.strip (unifyBreaks s)) :=
  joinLines_contentLines_sublist _

theorem return_notMem_normalize (n : Normalizer) (s : List Char) : '\r' ∉ n.normalize s :=
  fun h => return_notMem_unifyBreaks s
    (((n.normalize_sublist s).trans (removeAll_sublist _ _)).subset h)

/-- Every outcome is in normal form, but for comments that come back. -/
theorem isNormalForm_normalize_iff :
    n.IsNormalForm (n.normalize s) ↔ NoSpan n.comments (n.normalize s) := by
  refine ⟨IsNormalForm.noComment, fun hnone => ?_⟩
  have hlines := lines_normalize n s
  have hfeed {l : List Char} (hl : l ∈ n.lines s) : l ≠ [] ∧ '\n' ∉ l :=
    ⟨(mem_contentLines hl).1, (mem_contentLines hl).2.1⟩
  refine ⟨n.return_notMem_normalize s, ?_, ?_, ?_, ?_, hnone⟩
  · intro l hl
    exact (mem_lines (hlines ▸ hl)).2
  · intro l hl
    exact (mem_contentLines (hlines ▸ hl)).2.2
  · rw [normalize]
    cases hls : n.lines s with
    | nil => simp [joinLines]
    | cons l ls =>
        obtain ⟨hne, hl⟩ := hfeed (hls ▸ List.mem_cons_self)
        rw [head?_joinLines hne]
        exact fun hhead => hl (List.mem_of_mem_head? hhead)
  · rw [normalize]
    rcases List.eq_nil_or_concat' (n.lines s) with hls | ⟨ls, l, hls⟩
    · simp [hls, joinLines]
    · obtain ⟨hne, hl⟩ := hfeed (hls ▸ List.mem_concat_self)
      rw [hls, getLast?_joinLines hne]
      exact fun hlast => hl (List.mem_of_getLast? hlast)

/-- A text in normal form is left alone. -/
theorem IsNormalForm.normalize_eq (h : n.IsNormalForm t) : n.normalize t = t := by
  have hcontent : (Text.lines t).filter hasContent = Text.lines t := by
    rw [List.filter_eq_self]
    exact fun l hl => hasContent_iff.mpr (h.notBlank l hl)
  have htrimmed : (Text.lines t).map trimEnd = Text.lines t :=
    (List.map_congr_left h.trimmed).trans (List.map_id _)
  rw [normalize, Normalizer.lines, unifyBreaks_eq_self h.noReturn, strip,
    removeAll_of_noSpan h.noComment, contentLines_eq, hcontent, htrimmed, joinLines_lines h.back]

/-- The texts in normal form are those that normalizing leaves alone. -/
theorem normalize_eq_self_iff : n.normalize t = t ↔ n.IsNormalForm t := by
  refine ⟨fun h => ?_, IsNormalForm.normalize_eq⟩
  have hreturn : '\r' ∉ t := h ▸ n.return_notMem_normalize t
  have hsub := n.normalize_sublist t
  rw [h, unifyBreaks_eq_self hreturn] at hsub
  -- Normalizing keeps only characters that stripping kept, so stripping kept all of them.
  have hstrip : removeAll n.comments t = t :=
    (hsub.antisymm (removeAll_sublist _ _)).symm
  rw [← h, isNormalForm_normalize_iff, h, ← hstrip]
  exact noSpan_removeAll _ _

/-! ### Markers on one line -/

/-- An outcome holds no comment whose markers hold no line feed behind their first character: it
would have been one before trimming. -/
theorem not_hasSpan_normalize {c : Comment} (hmem : c ∈ n.comments) (hc : c.IsUnbroken)
    (i e : Nat) : ¬ c.HasSpan (n.normalize s) i e := by
  intro hspan
  have hstripped : NoSpan n.comments (n.strip (unifyBreaks s)) := noSpan_removeAll _ _
  have hlines : n.lines s ≠ [] := by
    intro hnil
    rw [normalize, hnil] at hspan
    exact c.opening_ne (by simpa [joinLines] using hspan.opens)
  obtain ⟨f, hf⟩ := (loosened_contentLines hlines).exists_places
  obtain ⟨e', hfed⟩ := exists_hasSpan_cons_iff.mpr ⟨e, hspan⟩
  obtain ⟨e', hfed⟩ := exists_hasSpan_of_places hc hf hfed
  obtain ⟨k, hk⟩ : ∃ k, f (i + 1) = k + 1 :=
    Nat.exists_eq_succ_of_ne_zero (Nat.ne_zero_of_lt (hf.mono (Nat.succ_pos i)))
  rw [hk] at hfed
  obtain ⟨e', hstart⟩ := exists_hasSpan_cons_iff.mp ⟨e', hfed⟩
  exact hstripped c hmem k e' hstart

/-- What a text is normalized to, when no marker holds a line feed: a text in normal form, with
the lines of the stripped text that are not blank, in order and trimmed at their ends.
Normalizing it again changes nothing. -/
theorem normalize_normalForm (n : Normalizer)
    (hmarkers : ∀ c ∈ n.comments, '\n' ∉ c.opening ∧ '\n' ∉ c.closing) (s : List Char) :
    n.IsNormalForm (n.normalize s) ∧
      Text.lines (n.normalize s) =
        ((Text.lines (n.strip (unifyBreaks s))).filter hasContent).map trimEnd ∧
      n.normalize (n.normalize s) = n.normalize s := by
  have hform : n.IsNormalForm (n.normalize s) := by
    rw [isNormalForm_normalize_iff]
    intro c hc
    obtain ⟨hopening, hclosing⟩ := hmarkers c hc
    exact not_hasSpan_normalize hc
      ⟨fun h => hopening (List.mem_of_mem_tail h), fun h => hclosing (List.mem_of_mem_tail h)⟩
  refine ⟨hform, ?_, hform.normalize_eq⟩
  rw [lines_normalize, Normalizer.lines, contentLines_eq]

/-- Markers that overlap themselves or hold a blank, and a text with comments over line ends and
with markers left alone. -/
theorem normalize_normalForm_loose_markers :
    let n : Normalizer :=
      { comments := [⟨['%', '%'], ['%', '%'], by decide, by decide⟩,
        ⟨[' ', '#'], ['#', ' '], by decide, by decide⟩] }
    let s := "a %% b \r\n%%%c  \u2003\n \t\r\n  d # e %\r\n% %%f #\n #g \n ".toList
    let t := "a %c\n  de %\n% %%f #\n #g".toList
    (∀ c ∈ n.comments, '\n' ∉ c.opening ∧ '\n' ∉ c.closing) ∧ n.normalize s = t ∧
      n.IsNormalForm t ∧
      Text.lines t = ((Text.lines (n.strip (unifyBreaks s))).filter hasContent).map trimEnd ∧
      n.normalize t = t := by
  intro n s t
  have hmarkers : ∀ c ∈ n.comments, '\n' ∉ c.opening ∧ '\n' ∉ c.closing := by decide
  have hnormal : n.normalize s = t := by decide +kernel
  obtain ⟨hform, hlines, hagain⟩ := normalize_normalForm n hmarkers s
  rw [hnormal] at hform hlines hagain
  exact ⟨hmarkers, hnormal, hform, hlines, hagain⟩

end Forms

end Normalizer

end Galley
