import Galley.Proofs.NormalForms

/-!
Where a fragment is found.

Dropping indentation reads a text from front to back and only has to know whether it is still at
the start of a line (`dropIndents_append`), which it is behind a text that ends in blanks only
(`atLineStart_iff`). So a fragment that occurs with nothing but blanks in front of it on its line
occurs in the collapsed text, too (`OccursBehind.collapse`). The collapsed fragment starts with
a line feed that it need not have had in the text. Containment therefore finds it at the starts
of lines only (`contains_iff_occurs_dedented`), and not in the middle of a line
(`fragment_inside_line_missed`).
-/

namespace Galley

open Text

namespace Normalizer

/-- What stands behind the last line feed of a text. -/
def lineLead (s : List Char) : List Char :=
  s.rtakeWhile (· ≠ '\n')

/-- A fragment occurs in a text, and what is in front of it on its line is as `lead` says. -/
def OccursBehind (lead : List Char → Prop) (fragment text : List Char) : Prop :=
  ∃ front back, text = front ++ fragment ++ back ∧ lead (lineLead front)

/-- The normal form of a text without the blanks around its lines. -/
def dedented (n : Normalizer) (s : List Char) : List Char :=
  joinLines (n.trimmedLines s)

/-! ### Dropping indentation from front to back -/

/-- Whether the text goes on at the start of a line, or in its indentation. -/
def atLineStart (start : Bool) (s : List Char) : Bool :=
  s.foldl (fun start c => c == '\n' || (start && isBlank c)) start

section Reading

variable {start : Bool} {s t front fragment text : List Char} {c : Char}

@[simp] theorem atLineStart_nil : atLineStart start [] = start := rfl

@[simp] theorem atLineStart_cons :
    atLineStart start (c :: s) = atLineStart (c == '\n' || (start && isBlank c)) s := rfl

@[simp] theorem atLineStart_concat :
    atLineStart start (s ++ [c]) = (c == '\n' || (atLineStart start s && isBlank c)) :=
  List.foldl_concat ..

theorem dropIndents_append (start : Bool) (s t : List Char) :
    dropIndents start (s ++ t) = dropIndents start s ++ dropIndents (atLineStart start s) t := by
  induction s generalizing start with
  | nil => rfl
  | cons c s ih =>
      rw [List.cons_append, dropIndents, dropIndents, atLineStart_cons]
      by_cases hc : c = '\n'
      · cases start <;> simp [hc, ih]
      · have hfeed : (c == '\n') = false := beq_false_of_ne hc
        cases start <;> cases isBlank c <;> simp [hc, hfeed, ih]

/-- A text is read up to the start of a line when only blanks stand on its last line. -/
theorem atLineStart_iff : atLineStart true s = true ↔ AllBlank (lineLead s) := by
  induction s using List.reverseRecOn with
  | nil => simp [lineLead, AllBlank]
  | append_singleton s c ih =>
      rw [atLineStart_concat, Bool.or_eq_true, Bool.and_eq_true, ih, beq_iff_eq]
      by_cases hc : c = '\n'
      · simp [lineLead, hc, AllBlank]
      · have hlead : lineLead (s ++ [c]) = lineLead s ++ [c] :=
          List.rtakeWhile_concat_pos _ _ _ (by simpa using hc)
        rw [hlead]
        simp [AllBlank, hc, or_imp, forall_and]

/-- At the start of a line the last character that was kept is a line feed. -/
theorem newline_cons_dropIndents (h : atLineStart true s = true) :
    ∃ u, '\n' :: dropIndents true s = u ++ ['\n'] := by
  induction s using List.reverseRecOn with
  | nil => exact ⟨[], rfl⟩
  | append_singleton s c ih =>
      rw [dropIndents_append]
      cases hs : atLineStart true s with
      | true =>
          have hdropped : dropIndents true [c] = [] := by
            rw [atLineStart_concat, hs] at h
            by_cases hc : c = '\n'
            · simp [dropIndents, hc]
            · simpa [dropIndents, hc] using h
          rw [hdropped, List.append_nil]
          exact ih hs
      | false =>
          have hc : c = '\n' := by simpa [hs] using h
          exact ⟨'\n' :: dropIndents true s, by simp [dropIndents, hc]⟩

/-- What occurs behind blanks occurs when the indentation is dropped. -/
theorem OccursBehind.collapse (h : OccursBehind AllBlank fragment text) :
    collapse fragment <:+: collapse text := by
  obtain ⟨front, back, rfl, hlead⟩ := h
  have hstart := atLineStart_iff.mpr hlead
  -- The reader is at the start of a line when it comes to the fragment, as it is behind the line
  -- feed that `collapse` puts in front.
  obtain ⟨u, hu⟩ := newline_cons_dropIndents hstart
  have hread : dropIndents true (front ++ fragment ++ back) = dropIndents true front ++
      (dropIndents true fragment ++ dropIndents (atLineStart true fragment) back) := by
    rw [List.append_assoc, dropIndents_append, hstart, dropIndents_append]
  refine ⟨u, dropIndents (atLineStart true fragment) back, ?_⟩
  rw [Normalizer.collapse, Normalizer.collapse, hread, ← List.cons_append, hu]
  simp

end Reading

/-! ### Fragments at the start of a line -/

section Lines

variable {n : Normalizer} {text fragment : List Char}

theorem collapse_normalize_eq (n : Normalizer) (s : List Char) :
    collapse (n.normalize s) = '\n' :: n.dedented s := by
  rw [collapse_normalize, dedented]
  split
  · rename_i hnone
    rw [hnone]
    rfl
  · rename_i hsome
    exact framed_eq hsome

/-- Nothing is in front of a text on its line when it is empty or ends a line. -/
theorem lineLead_eq_nil_iff {s : List Char} : lineLead s = [] ↔ s = [] ∨ ∃ u, s = u ++ ['\n'] := by
  induction s using List.reverseRecOn with
  | nil => simp [lineLead]
  | append_singleton s c _ =>
      by_cases hc : c = '\n'
      · simp [lineLead, hc]
      · have hlead : lineLead (s ++ [c]) = lineLead s ++ [c] :=
          List.rtakeWhile_concat_pos _ _ _ (by simpa using hc)
        simp [hlead, hc]

/-- Behind a line feed a block occurs where it starts a line. -/
theorem infix_newline_cons_iff :
    '\n' :: fragment <:+: '\n' :: text ↔ OccursBehind (· = []) fragment text := by
  simp only [OccursBehind, lineLead_eq_nil_iff]
  constructor
  · rintro ⟨front, back, h⟩
    cases front with
    | nil => exact ⟨[], back, by simpa using h.symm, .inl rfl⟩
    | cons c front =>
        refine ⟨front ++ ['\n'], back, ?_, .inr ⟨front, rfl⟩⟩
        simpa using (List.cons.inj h).2.symm
  · rintro ⟨front, back, rfl, rfl | ⟨u, rfl⟩⟩
    · exact ⟨[], back, by simp⟩
    · exact ⟨'\n' :: u, back, by simp⟩

theorem occursIn_collapse_iff_occurs (n : Normalizer) (text fragment : List Char) :
    occursIn (collapse (n.normalize fragment)) (collapse (n.normalize text)) = true ↔
      OccursBehind (· = []) (n.dedented fragment) (n.dedented text) := by
  rw [occursIn_iff, collapse_normalize_eq, collapse_normalize_eq, infix_newline_cons_iff]

theorem OccursBehind.dedented
    (h : OccursBehind AllBlank (n.normalize fragment) (n.normalize text)) :
    OccursBehind (· = []) (n.dedented fragment) (n.dedented text) := by
  rw [← occursIn_collapse_iff_occurs, occursIn_iff]
  exact h.collapse

end Lines

end Normalizer

section

variable [CallerTypes]

open Normalizer in
/-- Which occurrences of a fragment are found. A text contains a fragment exactly when the
fragment occurs at the start of a line once both are in normal form and their lines are trimmed.
So a fragment that occurs in the normal form of a text is found if only blanks are in front of it
on its line. A check for a fragment succeeds exactly when the template has an output in which the
fragment is found. -/
theorem contains_iff_occurs_dedented (n : Normalizer) (text fragment : List Char) :
    (n.contains text fragment = true ↔
      OccursBehind (· = []) (n.dedented fragment) (n.dedented text)) ∧
    (OccursBehind AllBlank (n.normalize fragment) (n.normalize text) →
      OccursBehind (· = []) (n.dedented fragment) (n.dedented text)) ∧
    ∀ (s : Session) (fs : Files) (fragment : String) (supply : Model → Supplement),
      (s.checkContains fs fragment supply).run.value = .ok () ↔
        ∃ output, (s.render fs supply).run.value = .ok output ∧
          OccursBehind (· = []) (s.normalizer.dedented fragment.toList)
            (s.normalizer.dedented output.toList) := by
  refine ⟨n.occursIn_collapse_iff_occurs text fragment, fun h => h.dedented, ?_⟩
  intro s fs fragment supply
  rw [s.value_checkContains]
  cases (s.render fs supply).run.value with
  | error e => simp
  | ok output => simp [← occursIn_collapse_iff_occurs]

end

/-- A fragment in the indentation of an inner line. -/
theorem contains_iff_occurs_dedented_inner_line :
    let n : Normalizer := {}
    let text := "begin\r\n    int id; /** key */\n    int no;\nend".toList
    let fragment := "  int id;\n    int".toList
    n.normalize text = "begin\n  ".toList ++ n.normalize fragment ++ " no;\nend".toList ∧
      Text.AllBlank (Normalizer.lineLead "begin\n  ".toList) ∧
      n.contains text fragment = true := by
  intro n text fragment
  have hoccurs : n.normalize text =
      "begin\n  ".toList ++ n.normalize fragment ++ " no;\nend".toList := by decide +kernel
  have hlead : Text.AllBlank (Normalizer.lineLead "begin\n  ".toList) := by decide
  obtain ⟨hcontains, hfound, -⟩ := contains_iff_occurs_dedented n text fragment
  exact ⟨hoccurs, hlead, hcontains.mpr (hfound ⟨_, _, hoccurs, hlead⟩)⟩

/-- A word that occurs in the middle of a line is not found. -/
theorem fragment_inside_line_missed :
    let n : Normalizer := {}
    let text := "int total;".toList
    let fragment := "total".toList
    n.normalize fragment <:+: n.normalize text ∧ n.contains text fragment = false := by
  intro n text fragment
  constructor
  · have hoccurs : n.normalize text = "int ".toList ++ n.normalize fragment ++ ";".toList := by
      decide +kernel
    exact ⟨_, _, hoccurs.symm⟩
  · decide +kernel

end Galley
