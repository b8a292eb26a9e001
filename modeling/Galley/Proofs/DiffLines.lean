import Galley.Proofs.DiffSides
import Galley.Proofs.NormalForms
import Galley.Proofs.Outcomes
import Galley.Session.Check

/-!
The lines of a difference.

A text in normal form counts as its lines, each but the last one with a line feed behind it
(`linesOf_joinLines`). The difference of two such texts shows an item of each run on a line of
its own, behind the sign of the run (`lines_shown`). So the lines behind a minus sign or a space
are those of the expected text, and the lines behind a plus sign or a space those of the actual
one (`Tells`). When the check for the content of a file finds a mismatch, its difference tells
both texts in this way and shows a change (`mismatch_tells_both`).
-/

namespace Galley

open Text

namespace Diff

/-! ### Lines with their line feeds -/

/-- Lines, each but the last one with a line feed behind it. -/
def terminated : List (List Char) → List (List Char)
  | [] => []
  | [l] => [l]
  | l :: ls => (l ++ ['\n']) :: terminated ls

def unterminated (l : List Char) : List Char :=
  dropTailWhile (· == '\n') l

section Lines

variable {l s : List Char} {ls : List (List Char)}

theorem terminated_cons (l : List Char) (h : ls ≠ []) :
    terminated (l :: ls) = (l ++ ['\n']) :: terminated ls := by
  cases ls with
  | nil => exact absurd rfl h
  | cons m ls => rfl

theorem linesOf_of_notMem (hne : l ≠ []) (hl : '\n' ∉ l) : linesOf l = [l] := by
  induction l with
  | nil => exact absurd rfl hne
  | cons c l ih =>
      obtain ⟨hc, hl⟩ := not_or.mp (mt List.mem_cons.mpr hl)
      rw [linesOf, if_neg (Ne.symm hc)]
      by_cases hempty : l = []
      · rw [hempty]
        rfl
      · rw [ih hempty hl]

theorem linesOf_append_newline (hl : '\n' ∉ l) :
    linesOf (l ++ '\n' :: s) = (l ++ ['\n']) :: linesOf s := by
  induction l with
  | nil => simp [linesOf]
  | cons c l ih =>
      obtain ⟨hc, hl⟩ := not_or.mp (mt List.mem_cons.mpr hl)
      rw [List.cons_append, linesOf, if_neg (Ne.symm hc), ih hl]
      rfl

/-- Joined lines count as these lines. -/
theorem linesOf_joinLines (h : ∀ l ∈ ls, l ≠ [] ∧ '\n' ∉ l) :
    linesOf (joinLines ls) = terminated ls := by
  induction ls with
  | nil => rfl
  | cons l ls ih =>
      obtain ⟨⟨hne, hl⟩, hls⟩ := List.forall_mem_cons.mp h
      by_cases hempty : ls = []
      · rw [hempty]
        exact linesOf_of_notMem hne hl
      · rw [joinLines_cons l hempty, linesOf_append_newline hl, terminated_cons l hempty, ih hls]

theorem unterminated_eq_self (h : '\n' ∉ l) : unterminated l = l := by
  rw [unterminated, dropTailWhile_eq_rdropWhile, List.rdropWhile_eq_self_iff]
  intro hne hlast
  exact h (beq_iff_eq.mp hlast ▸ List.getLast_mem hne)

theorem unterminated_append_newline (h : '\n' ∉ l) : unterminated (l ++ ['\n']) = l := by
  rw [unterminated, dropTailWhile_eq_rdropWhile, List.rdropWhile_concat_pos _ _ _ (by simp),
    ← dropTailWhile_eq_rdropWhile]
  exact unterminated_eq_self h

theorem map_unterminated_terminated (h : ∀ l ∈ ls, '\n' ∉ l) :
    (terminated ls).map unterminated = ls := by
  induction ls with
  | nil => rfl
  | cons l ls ih =>
      obtain ⟨hl, hls⟩ := List.forall_mem_cons.mp h
      by_cases hempty : ls = []
      · rw [hempty, terminated, List.map_singleton, unterminated_eq_self hl]
      · rw [terminated_cons l hempty, List.map_cons, unterminated_append_newline hl, ih hls]

/-- Each line behind which a line feed stands is read as a line. -/
theorem lines_flatMap_newline (h : ∀ l ∈ ls, '\n' ∉ l) :
    Text.lines (ls.flatMap fun l => l ++ ['\n']) = ls := by
  have hpieces : splitLines (ls.flatMap fun l => l ++ ['\n']) = ls ++ [[]] := by
    induction ls with
    | nil => rfl
    | cons l ls ih =>
        obtain ⟨hl, hls⟩ := List.forall_mem_cons.mp h
        rw [List.flatMap_cons, List.append_assoc, List.singleton_append,
          splitLines_append_newline, ih hls]
        exact congrArg (· ++ _) (splitLines_joinLines (List.cons_ne_nil l []) (by simpa using hl))
  rw [Text.lines, hpieces, if_pos List.getLast?_concat, List.dropLast_concat]

end Lines

/-! ### Signs -/

/-- The lines of a difference behind one of some signs, without their signs. -/
def linesSigned (signs : List Char) (diff : List Char) : List (List Char) :=
  ((Text.lines diff).filter fun l => l.head?.any signs.contains).map List.tail

/-- A difference tells two texts: each of its lines has a sign, the lines behind a minus sign or
a space are those of the expected text in order, and the lines behind a plus sign or a space
those of the actual text. -/
structure Tells (diff expected actual : List Char) : Prop where
  signed : ∀ l ∈ Text.lines diff, ∃ sign ∈ ['-', '+', ' '], l.head? = some sign
  expected : linesSigned ['-', ' '] diff = Text.lines expected
  actual : linesSigned ['+', ' '] diff = Text.lines actual

def marked {α : Type} (runs : List (Run α)) : List (Mark × α) :=
  runs.flatMap fun r => r.items.map fun item => (r.mark, item)

section Signs

variable {α : Type} {runs : List (Run α)} {marks : Mark → Bool}

theorem filter_marked (runs : List (Run α)) (marks : Mark → Bool) :
    ((marked runs).filter fun p => marks p.1).map Prod.snd =
      runs.flatMap fun r => if marks r.mark then r.items else [] := by
  induction runs with
  | nil => rfl
  | cons r runs ih =>
      rw [List.flatMap_cons, ← ih, marked, List.flatMap_cons, List.filter_append, List.map_append]
      congr 1
      cases hmark : marks r.mark <;> simp [List.filter_map, Function.comp_def, hmark]

theorem older_eq_filter (runs : List (Run α)) :
    ((marked runs).filter fun p => p.1 != .added).map Prod.snd = older runs := by
  rw [filter_marked runs (· != .added), older]
  congr
  funext r
  obtain ⟨mark, items⟩ := r
  cases mark <;> rfl

theorem newer_eq_filter (runs : List (Run α)) :
    ((marked runs).filter fun p => p.1 != .removed).map Prod.snd = newer runs := by
  rw [filter_marked runs (· != .removed), newer]
  congr
  funext r
  obtain ⟨mark, items⟩ := r
  cases mark <;> rfl

end Signs

/-! ### Shown lines -/

section Shown

variable {ls ms : List (List Char)}

/-- The lines that show the changes between two texts. -/
def shownLines (expected actual : List Char) : List (List Char) :=
  (marked (between (linesOf expected) (linesOf actual))).map fun p => p.1.sign :: unterminated p.2

theorem shown_eq (expected actual : List Char) :
    shown expected actual = (shownLines expected actual).flatMap fun l => l ++ ['\n'] := by
  simp only [shown, shownLines, marked, List.map_flatMap, List.flatMap_assoc, List.flatMap_map,
    List.map_map]
  rfl

theorem mem_marked_or {α : Type} {runs : List (Run α)} {p : Mark × α} (h : p ∈ marked runs) :
    p.2 ∈ older runs ∨ p.2 ∈ newer runs := by
  rw [← older_eq_filter, ← newer_eq_filter]
  by_cases hp : p.1 = .added
  · exact .inr (List.mem_map.mpr ⟨p, List.mem_filter.mpr ⟨h, by simp [hp]⟩, rfl⟩)
  · exact .inl (List.mem_map.mpr ⟨p, List.mem_filter.mpr ⟨h, by simpa using hp⟩, rfl⟩)

theorem sign_ne_newline (mark : Mark) : mark.sign ≠ '\n' := by
  cases mark <;> decide

/-- The lines of a difference of texts in normal form are the lines that show the changes. -/
theorem lines_shown (hls : ∀ l ∈ ls, l ≠ [] ∧ '\n' ∉ l) (hms : ∀ l ∈ ms, l ≠ [] ∧ '\n' ∉ l) :
    Text.lines (shown (joinLines ls) (joinLines ms)) =
      shownLines (joinLines ls) (joinLines ms) := by
  have hfeed {ns : List (List Char)} (hns : ∀ l ∈ ns, l ≠ [] ∧ '\n' ∉ l) {l : List Char}
      (hl : l ∈ linesOf (joinLines ns)) : '\n' ∉ unterminated l := by
    have hmem := List.mem_map_of_mem (f := unterminated) hl
    rw [linesOf_joinLines hns, map_unterminated_terminated fun l hl => (hns l hl).2] at hmem
    exact (hns _ hmem).2
  rw [shown_eq]
  apply lines_flatMap_newline
  intro l hl
  obtain ⟨p, hp, rfl⟩ := List.mem_map.mp hl
  have hline : '\n' ∉ unterminated p.2 := by
    rcases mem_marked_or hp with hp | hp
    · rw [older_between] at hp
      exact hfeed hls hp
    · rw [newer_between] at hp
      exact hfeed hms hp
  simp [hline, (sign_ne_newline p.1).symm]

/-- The lines behind some signs are the items with these marks. -/
theorem linesSigned_shown (hls : ∀ l ∈ ls, l ≠ [] ∧ '\n' ∉ l) (hms : ∀ l ∈ ms, l ≠ [] ∧ '\n' ∉ l)
    (signs : List Char) :
    linesSigned signs (shown (joinLines ls) (joinLines ms)) =
      (((marked (between (terminated ls) (terminated ms))).filter
        fun p => signs.contains p.1.sign).map Prod.snd).map unterminated := by
  rw [linesSigned, lines_shown hls hms, shownLines, linesOf_joinLines hls, linesOf_joinLines hms,
    List.filter_map, List.map_map, List.map_map]
  rfl

/-- The difference of two texts in normal form tells both of them. -/
theorem tells_shown (hls : ∀ l ∈ ls, l ≠ [] ∧ '\n' ∉ l) (hms : ∀ l ∈ ms, l ≠ [] ∧ '\n' ∉ l) :
    Tells (shown (joinLines ls) (joinLines ms)) (joinLines ls) (joinLines ms) := by
  have hjoined {ns : List (List Char)} (hns : ∀ l ∈ ns, l ≠ [] ∧ '\n' ∉ l) :
      (terminated ns).map unterminated = Text.lines (joinLines ns) := by
    rw [map_unterminated_terminated fun l hl => (hns l hl).2,
      lines_joinLines (fun l hl => (hns l hl).1) fun l hl => (hns l hl).2]
  refine ⟨?_, ?_, ?_⟩
  · rw [lines_shown hls hms]
    intro l hl
    obtain ⟨⟨mark, line⟩, -, rfl⟩ := List.mem_map.mp hl
    cases mark <;> simp [Mark.sign]
  · have hsigns : (fun p : Mark × List Char => ['-', ' '].contains p.1.sign) =
        fun p => p.1 != .added := by
      funext ⟨mark, line⟩
      cases mark <;> rfl
    rw [linesSigned_shown hls hms, hsigns, older_eq_filter, older_between, hjoined hls]
  · have hsigns : (fun p : Mark × List Char => ['+', ' '].contains p.1.sign) =
        fun p => p.1 != .removed := by
      funext ⟨mark, line⟩
      cases mark <;> rfl
    rw [linesSigned_shown hls hms, hsigns, newer_eq_filter, newer_between, hjoined hms]

/-- A difference without a change tells the same lines twice. -/
theorem Tells.lines_eq {diff expected actual : List Char} (h : Tells diff expected actual)
    (hunchanged : linesSigned ['-', '+'] diff = []) : Text.lines expected = Text.lines actual := by
  rw [← h.expected, ← h.actual, linesSigned, linesSigned]
  congr 1
  apply List.filter_congr
  intro l hl
  obtain ⟨sign, hsign, hhead⟩ := h.signed l hl
  have hchange := List.filter_eq_nil_iff.mp (List.map_eq_nil_iff.mp hunchanged) l hl
  rw [hhead] at hchange ⊢
  simp only [List.mem_cons, List.not_mem_nil, or_false] at hsign
  rcases hsign with rfl | rfl | rfl <;> simp_all

end Shown

end Diff

/-! ### Mismatches -/

namespace Normalizer

variable (n : Normalizer)

theorem ne_nil_of_mem_lines {s l : List Char} (h : l ∈ n.lines s) : l ≠ [] ∧ '\n' ∉ l :=
  ⟨(mem_contentLines h).1, (mem_contentLines h).2.1⟩

theorem tells_shown (s t : List Char) :
    Diff.Tells (Diff.shown (n.normalize s) (n.normalize t)) (n.normalize s) (n.normalize t) :=
  Diff.tells_shown (fun _ => n.ne_nil_of_mem_lines) fun _ => n.ne_nil_of_mem_lines

/-- The difference of two normal forms that are not the same shows a change. -/
theorem exists_change {s t : List Char} (h : n.normalize s ≠ n.normalize t) :
    Diff.linesSigned ['-', '+'] (Diff.shown (n.normalize s) (n.normalize t)) ≠ [] := by
  intro hunchanged
  have hlines := (n.tells_shown s t).lines_eq hunchanged
  rw [lines_normalize, lines_normalize] at hlines
  exact h (congrArg joinLines hlines)

end Normalizer

namespace Session

section

variable [CallerTypes] {s : Session} {fs : Files} {supply : Model → Supplement} {path : FilePath}

/-- What goes wrong before there is an output is no failed comparison. -/
theorem isFailure_of_render {e : CheckFault} (h : (s.render fs supply).run.value = .error e) :
    e.isFailure = false := by
  rw [render] at h
  cases htemplate : s.template with
  | none =>
      rw [htemplate] at h
      cases h
      rfl
  | some path =>
      rw [htemplate] at h
      simp only [Logged.value_run_bind, Check.ofExcept, Check.read] at h
      cases hmodel : s.model with
      | error cause =>
          rw [hmodel] at h
          cases h
          rfl
      | ok m =>
          rw [hmodel] at h
          cases hread : fs.readText path with
          | error cause =>
              rw [hread] at h
              cases h
              rfl
          | ok text =>
              rw [hread] at h
              exact s.renderer.isFailure_of_render h

theorem value_checkSame (s : Session) (fs : Files) (path : FilePath)
    (supply : Model → Supplement) :
    (s.checkSame fs path supply).run.value =
      match (s.render fs supply).run.value with
      | .ok output =>
          match fs.readText path with
          | .ok file =>
              if s.normalized file = s.normalized output then .ok ()
              else .error (.mismatch path (s.normalized file) (s.normalized output)
                (String.ofList
                  (Diff.shown (s.normalized file).toList (s.normalized output).toList)))
          | .error e => .error (.unreadableExpected path e)
      | .error e => .error e := by
  rw [checkSame, Logged.value_run_bind]
  cases (s.render fs supply).run.value with
  | error e => rfl
  | ok output =>
      dsimp only
      rw [Logged.value_run_bind]
      cases hread : fs.readText path with
      | error e => simp [Check.read, Check.ofExcept, hread, Except.mapError]
      | ok file =>
          simp only [Check.read, Check.ofExcept, hread]
          by_cases hsame : s.normalized file = s.normalized output
          · simp only [Except.mapError, ExceptT.run_mk, Logged.value_pure, if_pos hsame]
            rfl
          · simp only [Except.mapError, ExceptT.run_mk, Logged.value_pure, if_neg hsame]
            rfl

/-- A mismatch of the content of a file tells two different texts, the normal forms of the file
and of the output of the template. Its difference has a sign in front of each line. The lines
behind a minus sign or a space are those of the file, in order, and the lines behind a plus sign
or a space those of the output. Some line is behind a minus or a plus sign. -/
theorem mismatch_tells_both {p : FilePath} {expected actual diff : String}
    (h : (s.checkSame fs path supply).run.value = .error (.mismatch p expected actual diff)) :
    p = path ∧ expected ≠ actual ∧
      (∃ file output, fs.readText path = .ok file ∧ (s.render fs supply).run.value = .ok output ∧
        expected = s.normalized file ∧ actual = s.normalized output) ∧
      Diff.Tells diff.toList expected.toList actual.toList ∧
      Diff.linesSigned ['-', '+'] diff.toList ≠ [] := by
  rw [value_checkSame] at h
  cases hrender : (s.render fs supply).run.value with
  | error e =>
      rw [hrender] at h
      cases h
      cases isFailure_of_render hrender
  | ok output =>
      rw [hrender] at h
      cases hread : fs.readText path with
      | error cause =>
          rw [hread] at h
          cases h
      | ok file =>
          rw [hread] at h
          dsimp only at h
          split at h
          · cases h
          · rename_i hne
            cases h
            refine ⟨rfl, hne, ⟨file, output, rfl, rfl, rfl, rfl⟩, ?_⟩
            simp only [normalized, String.toList_ofList] at hne ⊢
            refine ⟨s.normalizer.tells_shown _ _, s.normalizer.exists_change ?_⟩
            exact fun hsame => hne (congrArg String.ofList hsame)

end

/-- The last line of the file is `c`, that of the output is `b`. -/
theorem mismatch_tells_both_last_line :
    let fs : Files :=
      { tree := .dir [("t.hbs", .file (.text "a\nb\n")), ("e.txt", .file (.text "a\nc \n"))] }
    let s : Session :=
      { template := some (.named "t.hbs"), build := some { state := .built {} } }
    let diff := " a\n-c\n+b\n"
    (s.checkSame fs (.named "e.txt") fun _ => .empty).run.value =
        .error (.mismatch (.named "e.txt") "a\nc" "a\nb" diff) ∧
      Diff.Tells diff.toList "a\nc".toList "a\nb".toList ∧
      Diff.linesSigned ['-', '+'] diff.toList ≠ [] := by
  intro fs s diff
  have houtput : (s.render fs fun _ => .empty).run.value = .ok "a\nb\n" := by
    have hvalue : (s.render fs fun _ => .empty).run.value.toOption = some "a\nb\n" := by
      decide +kernel
    cases h : (s.render fs fun _ => .empty).run.value with
    | error e =>
        rw [h] at hvalue
        cases hvalue
    | ok output =>
        rw [h] at hvalue
        cases hvalue
        rfl
  have hfile : fs.readText (.named "e.txt") = .ok "a\nc \n" := rfl
  have hexpected : s.normalized "a\nc \n" = "a\nc" := by decide +kernel
  have hactual : s.normalized "a\nb\n" = "a\nb" := by decide +kernel
  have hdiff : String.ofList (Diff.shown "a\nc".toList "a\nb".toList) = diff := by decide +kernel
  have h : (s.checkSame fs (.named "e.txt") fun _ => .empty).run.value =
      .error (.mismatch (.named "e.txt") "a\nc" "a\nb" diff) := by
    rw [value_checkSame, houtput, hfile]
    dsimp only
    rw [hexpected, hactual, hdiff, if_neg (by decide)]
  obtain ⟨-, -, -, htells, hchange⟩ := mismatch_tells_both h
  exact ⟨h, htells, hchange⟩

end Session

end Galley
