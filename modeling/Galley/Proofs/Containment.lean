import Galley.Proofs.Lines
import Galley.Session.Check

/-!
What containment decides.

A collapsed normal form is the list of its trimmed lines, each behind a line feed
(`collapse_normalize`). Such a list occurs in another one exactly as a block of
lines: all but the last line of the fragment are whole lines of the text, and the
last one begins the line behind them (`framed_infix_iff`). So containment, and the
check that repeats it on the output of a template, decide the occurrence of a block
of lines (`contains_iff_block`).
-/

namespace Galley

open Text

namespace Normalizer

/-- The lines of the normal form of a text, without the blanks around them. -/
def trimmedLines (n : Normalizer) (s : List Char) : List (List Char) :=
  (Text.lines (n.normalize s)).map trim

/-- The lines of a fragment are a block of a text from line `i` on: the last one
begins a line of the text, and the others are the lines before it. -/
def BlockAt (text fragment : List (List Char)) (i : Nat) : Prop :=
  ∃ init last line, fragment = init ++ [last] ∧ init <+: text.drop i ∧
    text[i + init.length]? = some line ∧ last <+: line

/-- The lines of a fragment are a block of a text, or there are none. -/
def HasBlock (text fragment : List (List Char)) : Prop :=
  fragment = [] ∨ ∃ i, BlockAt text fragment i

/-! ### Lines behind line feeds -/

/-- Lines, each behind a line feed. -/
def framed (ls : List (List Char)) : List Char :=
  ls.flatMap fun l => '\n' :: l

@[simp] theorem framed_nil : framed [] = [] := rfl

@[simp] theorem framed_cons (l : List Char) (ls : List (List Char)) :
    framed (l :: ls) = '\n' :: (l ++ framed ls) := rfl

theorem framed_append (ls ms : List (List Char)) :
    framed (ls ++ ms) = framed ls ++ framed ms :=
  List.flatMap_append

/-- A piece without a line feed that begins a line and more begins the line. -/
theorem prefix_append_framed_iff {f t : List Char} {ts : List (List Char)}
    (hf : '\n' ∉ f) : f <+: t ++ framed ts ↔ f <+: t := by
  induction f generalizing t with
  | nil => simp
  | cons c f ih =>
      obtain ⟨hc, hf⟩ := not_or.mp (mt List.mem_cons.mpr hf)
      cases t with
      | nil => cases ts <;> simp [Ne.symm hc]
      | cons d t => simp [ih hf]

/-- A line feed behind a piece stands at the end of the first line. -/
theorem prefix_line_iff {f t x : List Char} {ts : List (List Char)}
    (hf : '\n' ∉ f) (ht : '\n' ∉ t) :
    f ++ '\n' :: x <+: t ++ framed ts ↔ f = t ∧ '\n' :: x <+: framed ts := by
  induction f generalizing t with
  | nil =>
      cases t with
      | nil => simp
      | cons d t =>
          obtain ⟨hd, -⟩ := not_or.mp (mt List.mem_cons.mpr ht)
          simp [hd]
  | cons c f ih =>
      obtain ⟨hc, hf⟩ := not_or.mp (mt List.mem_cons.mpr hf)
      cases t with
      | nil => cases ts <;> simp [Ne.symm hc]
      | cons d t =>
          obtain ⟨-, ht⟩ := not_or.mp (mt List.mem_cons.mpr ht)
          simp [ih hf ht, and_assoc]

/-- Framed lines begin other framed lines when all but the last are the same and
the last begins the line at its place. -/
theorem framed_prefix_iff {init ts : List (List Char)} {last : List Char}
    (hinit : ∀ l ∈ init, '\n' ∉ l) (hlast : '\n' ∉ last) (hts : ∀ l ∈ ts, '\n' ∉ l) :
    framed (init ++ [last]) <+: framed ts ↔
      init <+: ts ∧ ∃ line, ts[init.length]? = some line ∧ last <+: line := by
  induction init generalizing ts with
  | nil =>
      cases ts with
      | nil => simp
      | cons t ts => simp [prefix_append_framed_iff hlast]
  | cons f init ih =>
      obtain ⟨hf, hinit⟩ := List.forall_mem_cons.mp hinit
      cases ts with
      | nil => simp
      | cons t ts =>
          obtain ⟨ht, hts⟩ := List.forall_mem_cons.mp hts
          obtain ⟨x, hx⟩ : ∃ x, framed (init ++ [last]) = '\n' :: x := by
            cases init <;> exact ⟨_, rfl⟩
          rw [List.cons_append, framed_cons, framed_cons, List.cons_prefix_cons, hx,
            prefix_line_iff hf ht, ← hx, ih hinit hts]
          simp [and_assoc]

/-- What starts with a character that a text lacks occurs behind that text. -/
theorem infix_of_infix_append {c : Char} {x t s : List Char} (ht : c ∉ t)
    (h : c :: x <:+: t ++ s) : c :: x <:+: s := by
  induction t with
  | nil => exact h
  | cons d t ih =>
      obtain ⟨hd, ht⟩ := not_or.mp (mt List.mem_cons.mpr ht)
      rcases List.infix_cons_iff.mp h with hprefix | hinfix
      · exact absurd (List.cons_prefix_cons.mp hprefix).1 hd
      · exact ih ht hinfix

/-- Framed lines occur in other framed lines at the start of a line only. -/
theorem framed_infix_iff_prefix_drop {fs ts : List (List Char)} (hne : fs ≠ [])
    (hts : ∀ l ∈ ts, '\n' ∉ l) :
    framed fs <:+: framed ts ↔ ∃ i, framed fs <+: framed (ts.drop i) := by
  constructor
  · intro h
    obtain ⟨f, fs, rfl⟩ := List.exists_cons_of_ne_nil hne
    induction ts with
    | nil => simp at h
    | cons t ts ih =>
        obtain ⟨ht, hts⟩ := List.forall_mem_cons.mp hts
        rcases List.infix_cons_iff.mp h with hprefix | hinfix
        · exact ⟨0, hprefix⟩
        · obtain ⟨i, hi⟩ := ih hts (infix_of_infix_append ht hinfix)
          exact ⟨i + 1, hi⟩
  · rintro ⟨i, hi⟩
    have hsuffix : framed (ts.drop i) <:+ framed ts := by
      refine ⟨framed (ts.take i), ?_⟩
      rw [← framed_append, List.take_append_drop]
    exact hi.isInfix.trans hsuffix.isInfix

/-- Where the lines of a fragment are a block, for a fragment with a last line. -/
theorem blockAt_concat_iff {init ts : List (List Char)} {last : List Char} {i : Nat} :
    BlockAt ts (init ++ [last]) i ↔
      init <+: ts.drop i ∧ ∃ line, ts[i + init.length]? = some line ∧ last <+: line := by
  constructor
  · rintro ⟨init', last', line, heq, hinit, hline, hlast⟩
    obtain ⟨rfl, hsingle⟩ := List.append_inj' heq rfl
    cases hsingle
    exact ⟨hinit, line, hline, hlast⟩
  · rintro ⟨hinit, line, hline, hlast⟩
    exact ⟨init, last, line, rfl, hinit, hline, hlast⟩

/-- Framed lines occur in other framed lines exactly as a block. -/
theorem framed_infix_iff {fs ts : List (List Char)} (hne : fs ≠ [])
    (hfs : ∀ l ∈ fs, '\n' ∉ l) (hts : ∀ l ∈ ts, '\n' ∉ l) :
    framed fs <:+: framed ts ↔ ∃ i, BlockAt ts fs i := by
  rw [framed_infix_iff_prefix_drop hne hts]
  obtain ⟨init, last, rfl⟩ := (List.eq_nil_or_concat' fs).resolve_left hne
  apply exists_congr
  intro i
  rw [blockAt_concat_iff, framed_prefix_iff (fun l hl => hfs l (by simp [hl]))
    (hfs last (by simp)) (fun l hl => hts l (List.mem_of_mem_drop hl)), List.getElem?_drop]

/-! ### Collapsed normal forms -/

/-- Inside a line nothing is dropped. -/
theorem dropIndents_false_append {l : List Char} (h : '\n' ∉ l) (rest : List Char) :
    dropIndents false (l ++ rest) = l ++ dropIndents false rest := by
  induction l with
  | nil => rfl
  | cons c l ih =>
      obtain ⟨hc, hl⟩ := not_or.mp (mt List.mem_cons.mpr h)
      simp [dropIndents, Ne.symm hc, ih hl]

/-- At the start of a line that is not blank its indentation is dropped. -/
theorem dropIndents_true_append {l : List Char} (h : '\n' ∉ l)
    (hblank : ∃ c ∈ l, isBlank c = false) (rest : List Char) :
    dropIndents true (l ++ rest) = trimStart l ++ dropIndents false rest := by
  induction l with
  | nil => simp at hblank
  | cons c l ih =>
      obtain ⟨hc, hl⟩ := not_or.mp (mt List.mem_cons.mpr h)
      cases hb : isBlank c with
      | false =>
          simp [dropIndents, trimStart, Ne.symm hc, hb, dropIndents_false_append hl]
      | true =>
          have hrest : ∃ d ∈ l, isBlank d = false := by simpa [hb] using hblank
          simpa [dropIndents, trimStart, Ne.symm hc, hb] using ih hl hrest

/-- Collapsing joined lines of content trims the front of each. -/
theorem collapse_joinLines {l : List Char} {ls : List (List Char)}
    (h : ∀ m ∈ l :: ls, '\n' ∉ m ∧ ∃ c ∈ m, isBlank c = false) :
    collapse (joinLines (l :: ls)) = framed ((l :: ls).map trimStart) := by
  induction ls generalizing l with
  | nil =>
      obtain ⟨hl, hblank⟩ := h l (by simp)
      have := dropIndents_true_append hl hblank []
      simpa [collapse, joinLines, dropIndents] using this
  | cons m ms ih =>
      obtain ⟨hl, hblank⟩ := h l (by simp)
      have hrest : dropIndents true (joinLines (m :: ms)) = _ :=
        (List.cons.inj (ih fun k hk => h k (List.mem_cons_of_mem _ hk))).2
      rw [collapse, joinLines, dropIndents_true_append hl hblank, dropIndents, if_pos rfl,
        if_neg (by simp), hrest]
      · rfl
      · simp

/-- A line of a normal form holds no line feed and is not blank. -/
theorem mem_lines {n : Normalizer} {s l : List Char} (h : l ∈ n.lines s) :
    '\n' ∉ l ∧ ∃ c ∈ l, isBlank c = false := by
  obtain ⟨hne, hnewline, htrim⟩ := mem_contentLines h
  refine ⟨hnewline, ?_⟩
  by_contra hblank
  simp only [not_exists, not_and, Bool.not_eq_false] at hblank
  exact hne (htrim ▸ trimEnd_eq_nil_iff.mpr hblank)

theorem trimmedLines_eq (n : Normalizer) (s : List Char) :
    n.trimmedLines s = (n.lines s).map trimStart := by
  rw [trimmedLines, lines_normalize]
  exact List.map_congr_left fun l hl => trim_of_trimEnd (mem_contentLines hl).2.2

/-- A trimmed line holds no line feed and is not empty. -/
theorem mem_trimmedLines {n : Normalizer} {s l : List Char} (h : l ∈ n.trimmedLines s) :
    '\n' ∉ l ∧ l ≠ [] := by
  rw [trimmedLines_eq] at h
  obtain ⟨m, hm, rfl⟩ := List.mem_map.mp h
  obtain ⟨hnewline, c, hc, hblank⟩ := mem_lines hm
  constructor
  · intro hin
    exact hnewline ((List.dropWhile_suffix _).subset hin)
  · intro hnil
    have := List.dropWhile_eq_nil_iff.mp hnil c hc
    simp [hblank] at this

/-- A collapsed normal form is the list of its trimmed lines, each behind a line
feed; without lines one line feed is left. -/
theorem collapse_normalize (n : Normalizer) (s : List Char) :
    collapse (n.normalize s) =
      if n.trimmedLines s = [] then ['\n'] else framed (n.trimmedLines s) := by
  rw [trimmedLines_eq, normalize]
  cases hlines : n.lines s with
  | nil => rfl
  | cons l ls =>
      rw [collapse_joinLines fun m hm => mem_lines (hlines ▸ hm), if_neg (by simp)]

/-! ### Containment -/

/-- One collapsed normal form occurs in another when the trimmed lines of the one
are a block of those of the other. -/
theorem occursIn_collapse_iff (n : Normalizer) (text fragment : List Char) :
    occursIn (collapse (n.normalize fragment)) (collapse (n.normalize text)) = true ↔
      HasBlock (n.trimmedLines text) (n.trimmedLines fragment) := by
  have hnewline : ∀ s, ∀ l ∈ n.trimmedLines s, '\n' ∉ l := fun s l hl => (mem_trimmedLines hl).1
  rw [occursIn_iff, collapse_normalize, collapse_normalize, HasBlock]
  by_cases hf : n.trimmedLines fragment = []
  · -- Every collapsed text starts with the line feed that is left of the fragment.
    refine iff_of_true ?_ (Or.inl hf)
    rw [if_pos hf]
    cases ht : n.trimmedLines text with
    | nil => simp
    | cons t ts => exact (List.prefix_append ['\n'] _).isInfix
  · rw [if_neg hf, or_iff_right hf]
    by_cases ht : n.trimmedLines text = []
    · -- The first line of the fragment is not empty, so it does not fit.
      obtain ⟨f, fs, hfs⟩ := List.exists_cons_of_ne_nil hf
      have hne : f ≠ [] := (mem_trimmedLines (hfs ▸ List.mem_cons_self)).2
      rw [if_pos ht, ht, hfs]
      apply iff_of_false
      · intro h
        have := h.length_le
        simp [hne] at this
      · rintro ⟨i, _, _, _, _, _, hline, _⟩
        simp at hline
    · rw [if_neg ht]
      exact framed_infix_iff hf (hnewline fragment) (hnewline text)

end Normalizer

variable [CallerTypes]

/-- What the check for a fragment makes of the output of the template. -/
theorem Session.value_checkContains (s : Session) (fs : Files) (fragment : String)
    (supply : Model → Supplement) :
    (s.checkContains fs fragment supply).run.value =
      match (s.render fs supply).run.value with
      | .ok output =>
          if occursIn (Normalizer.collapse (s.normalizer.normalize fragment.toList))
            (Normalizer.collapse (s.normalizer.normalize output.toList)) then .ok ()
          else .error (.notContained (s.collapsed fragment) (s.collapsed output))
      | .error e => .error e := by
  rw [Session.checkContains, Logged.value_run_bind]
  cases (s.render fs supply).run.value with
  | error e => rfl
  | ok output =>
      simp only [Session.collapsed, String.toList_ofList]
      split <;> rfl

/-- Containment decides the occurrence of a block of lines: a text contains a
fragment exactly when the trimmed lines of the fragment are a block of those of the
text or there are none, and a check for a fragment succeeds exactly when the
template has an output that contains it in this sense. -/
theorem contains_iff_block :
    (∀ (n : Normalizer) (text fragment : List Char),
      n.contains text fragment = true ↔
        Normalizer.HasBlock (n.trimmedLines text) (n.trimmedLines fragment)) ∧
    ∀ (s : Session) (fs : Files) (fragment : String) (supply : Model → Supplement),
      (s.checkContains fs fragment supply).run.value = .ok () ↔
        ∃ output, (s.render fs supply).run.value = .ok output ∧
          Normalizer.HasBlock (s.normalizer.trimmedLines output.toList)
            (s.normalizer.trimmedLines fragment.toList) := by
  refine ⟨fun n text fragment => n.occursIn_collapse_iff text fragment, ?_⟩
  intro s fs fragment supply
  rw [s.value_checkContains]
  cases (s.render fs supply).run.value with
  | error e => simp
  | ok output => simp [← Normalizer.occursIn_collapse_iff]

end Galley
