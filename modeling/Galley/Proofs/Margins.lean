import Galley.Proofs.Occurrences
import Mathlib.Logic.Relation

/-!
Texts without margins.

The margins of a text are the blanks at its start and the blanks directly behind its line feeds,
blank lines included. `collapse` puts a line feed in place of each match of an expression for
margins, from left to right (`replaceMargins_eq`). The texts that it leaves as they are
start with a line feed and have no blank behind one (`collapse_eq_self_iff`), and two texts have
the same collapse exactly when they differ in their margins only
(`collapse_eq_collapse_iff`). So there is one collapsed text among all texts that differ in their
margins, and the rest of each line stands in it unchanged (`collapse_canonical`).
-/

namespace Galley.Normalizer

open Text

/-! ### Matches -/

/-- What is left of a text behind a run of blanks at its front, the longest run first. -/
def blankRests : List Char → List (List Char)
  | [] => [[]]
  | c :: cs => if isBlank c then blankRests cs ++ [c :: cs] else [c :: cs]

/-- What is left of a text behind each match of `(?:\n|^)\s*` at its front, the preferred match
first. The anchor matches at the start of the whole text only. -/
def marginRests (atStart : Bool) (s : List Char) : List (List Char) :=
  ((dropPrefix? ['\n'] s).toList ++ if atStart then [s] else []).flatMap blankRests

/-- Puts a line feed in place of the leftmost matches, each behind the one before. Behind a match
of nothing the search goes on one character further. -/
def replaceMargins : Bool → List Char → List Char
  | atStart, [] => if (marginRests atStart []).head?.isSome then ['\n'] else []
  | atStart, c :: cs =>
    match (marginRests atStart (c :: cs)).head? with
    | none => c :: replaceMargins false cs
    | some rest =>
      if rest.length < (c :: cs).length then '\n' :: replaceMargins false rest
      else '\n' :: c :: replaceMargins false cs
termination_by _ s => s.length
decreasing_by all_goals simp only [List.length_cons] at *; omega

section Matches

variable {atStart : Bool} {s : List Char} {c : Char}

theorem head?_blankRests (s : List Char) : (blankRests s).head? = some (trimStart s) := by
  induction s with
  | nil => rfl
  | cons c s ih =>
      rw [blankRests, trimStart, List.dropWhile_cons]
      split
      · rw [List.head?_append, ih]
        rfl
      · rfl

/-- At the start of a text or at a line feed all blanks are matched, and elsewhere nothing is. -/
theorem head?_marginRests (atStart : Bool) (s : List Char) :
    (marginRests atStart s).head? =
      if atStart || s.head? == some '\n' then some (trimStart s) else none := by
  have hfeed (cs : List Char) : trimStart ('\n' :: cs) = trimStart cs :=
    List.dropWhile_cons_of_pos rfl
  rw [marginRests, List.flatMap_append, List.head?_append]
  cases s with
  | nil => cases atStart <;> rfl
  | cons c s =>
      by_cases hc : c = '\n'
      · subst hc
        simp [dropPrefix?, head?_blankRests, hfeed]
      · cases atStart <;> simp [dropPrefix?, Ne.symm hc, hc, head?_blankRests]

/-- At the start of a line the blanks are dropped that stand there. -/
theorem dropIndents_true (s : List Char) :
    dropIndents true s = dropIndents false (trimStart s) := by
  induction s with
  | nil => rfl
  | cons c s ih =>
      rw [trimStart, List.dropWhile_cons]
      by_cases hc : c = '\n'
      · rw [dropIndents, if_pos hc, if_pos rfl, ih, if_pos (hc ▸ rfl)]
        rfl
      · cases hb : isBlank c with
        | true =>
            rw [dropIndents, if_neg hc, if_pos (by simpa using hb), ih]
            rfl
        | false => simp [dropIndents, hc, hb]

theorem collapse_eq (s : List Char) : collapse s = '\n' :: dropIndents false (trimStart s) := by
  rw [collapse, dropIndents_true]

/-- A line feed is kept unless it is in a margin, and the blanks behind it are dropped. -/
theorem dropIndents_newline_cons (atStart : Bool) (s : List Char) :
    dropIndents atStart ('\n' :: s) =
      if atStart then dropIndents true s else '\n' :: dropIndents true s := by
  rw [dropIndents, if_pos rfl]

/-- Putting line feeds in place of the matches drops the margins. -/
theorem replaceMargins_eq (atStart : Bool) (s : List Char) :
    replaceMargins atStart s = if atStart then collapse s else dropIndents false s := by
  fun_induction replaceMargins atStart s with
  | case1 atStart hsome =>
      rw [head?_marginRests] at hsome
      cases atStart with
      | true => rfl
      | false => cases hsome
  | case2 atStart hnone =>
      rw [head?_marginRests] at hnone
      cases atStart with
      | true => exact absurd rfl hnone
      | false => rfl
  | case3 atStart c cs hnone ih =>
      simp only [head?_marginRests, ite_eq_right_iff, reduceCtorEq, imp_false, Bool.or_eq_true,
        List.head?_cons, beq_iff_eq, Option.some.injEq, not_or] at hnone
      obtain ⟨hstart, hc⟩ := hnone
      rw [ih, if_neg hstart, if_neg Bool.false_ne_true, dropIndents, if_neg hc]
      rfl
  | case4 atStart c cs rest hrest _ ih =>
      rw [head?_marginRests] at hrest
      split at hrest
      · rename_i hmatch
        cases hrest
        rw [ih, if_neg Bool.false_ne_true]
        cases atStart with
        | true => rw [if_pos rfl, collapse_eq]
        | false =>
            obtain rfl : c = '\n' := by simpa using hmatch
            rw [if_neg Bool.false_ne_true, dropIndents_newline_cons, dropIndents_true]
            rfl
      · cases hrest
  | case5 atStart c cs rest hrest hlong ih =>
      -- A match of nothing is one at the start of a text that does not start with a blank.
      rw [head?_marginRests] at hrest
      split at hrest
      · rename_i hmatch
        cases hrest
        have hc : isBlank c = false := by
          by_contra hblank
          rw [trimStart, List.dropWhile_cons_of_pos (by simpa using hblank)] at hlong
          exact hlong (Nat.lt_succ_of_le (List.dropWhile_suffix _).length_le)
        have hfeed : c ≠ '\n' := by
          rintro rfl
          cases hc
        obtain rfl : atStart = true := by simpa [hfeed] using hmatch
        rw [ih, if_neg Bool.false_ne_true, if_pos rfl, collapse, dropIndents, if_neg hfeed, hc]
        rfl
      · cases hrest

end Matches

/-! ### Collapsed texts -/

/-- No line feed is followed by a blank. -/
def Flush (s : List Char) : Prop :=
  ∀ front c back, s = front ++ '\n' :: c :: back → isBlank c = false

/-- The text starts with a line feed and has no margins but this. -/
def IsCollapsed (s : List Char) : Prop :=
  (∃ rest, s = '\n' :: rest) ∧ Flush s

section Collapsed

variable {s t front tail back : List Char} {c : Char}

theorem flush_cons_iff :
    Flush (c :: s) ↔ (c = '\n' → ∀ d ∈ s.head?, isBlank d = false) ∧ Flush s := by
  constructor
  · intro h
    refine ⟨?_, fun front d back hs => h (c :: front) d back (hs ▸ rfl)⟩
    rintro rfl d hd
    obtain ⟨back, rfl⟩ := List.head?_eq_some_iff.mp hd
    exact h [] d back rfl
  · rintro ⟨hc, hs⟩ front d back heq
    cases front with
    | nil =>
        obtain ⟨rfl, rfl⟩ := List.cons.inj heq
        exact hc rfl d rfl
    | cons e front => exact hs front d back (List.cons.inj heq).2

theorem dropIndents_cons_of_not_blank (atStart : Bool) (hc : isBlank c = false) (s : List Char) :
    dropIndents atStart (c :: s) = c :: dropIndents false s := by
  have hfeed : c ≠ '\n' := by
    rintro rfl
    cases hc
  rw [dropIndents, if_neg hfeed, hc, Bool.and_false, if_neg Bool.false_ne_true]

theorem trimStart_eq_self (h : ∀ c ∈ s.head?, isBlank c = false) : trimStart s = s := by
  cases s with
  | nil => rfl
  | cons c s => exact List.dropWhile_cons_of_neg (by simp [h c rfl])

/-- What is kept at the start of a line starts with no blank. -/
theorem not_isBlank_of_mem_head? (s : List Char) :
    ∀ c ∈ (dropIndents true s).head?, isBlank c = false := by
  intro c hc
  rw [dropIndents_true] at hc
  cases htrim : trimStart s with
  | nil =>
      rw [htrim] at hc
      cases hc
  | cons d rest =>
      have hd : isBlank d = false := by
        have := List.head?_dropWhile_not isBlank s
        rwa [← trimStart, htrim] at this
      rw [htrim, dropIndents_cons_of_not_blank false hd] at hc
      cases hc
      exact hd

theorem flush_dropIndents (atStart : Bool) (s : List Char) : Flush (dropIndents atStart s) := by
  induction s generalizing atStart with
  | nil => simp [dropIndents, Flush]
  | cons c s ih =>
      rw [dropIndents]
      split
      · split
        · exact ih true
        · exact flush_cons_iff.mpr ⟨fun _ => not_isBlank_of_mem_head? s, ih true⟩
      · rename_i hc
        split
        · exact ih true
        · exact flush_cons_iff.mpr ⟨fun h => absurd h hc, ih false⟩

theorem isCollapsed_collapse (s : List Char) : IsCollapsed (collapse s) :=
  ⟨⟨_, rfl⟩, flush_cons_iff.mpr ⟨fun _ => not_isBlank_of_mem_head? s, flush_dropIndents true s⟩⟩

/-- Where no line feed is followed by a blank nothing is dropped. -/
theorem dropIndents_of_flush (h : Flush s) : dropIndents false s = s := by
  induction s with
  | nil => rfl
  | cons c s ih =>
      obtain ⟨hhead, hs⟩ := flush_cons_iff.mp h
      by_cases hc : c = '\n'
      · rw [hc, dropIndents_newline_cons, dropIndents_true, trimStart_eq_self (hhead hc), ih hs]
        rfl
      · simp [dropIndents, hc, ih hs]

/-- The texts that collapsing leaves as they are. -/
theorem collapse_eq_self_iff : collapse s = s ↔ IsCollapsed s := by
  constructor
  · intro h
    exact h ▸ isCollapsed_collapse s
  · rintro ⟨⟨rest, rfl⟩, hflush⟩
    calc collapse ('\n' :: rest) = '\n' :: dropIndents true rest := rfl
      _ = dropIndents false ('\n' :: rest) := (dropIndents_newline_cons false rest).symm
      _ = '\n' :: rest := dropIndents_of_flush hflush

/-- Nothing is dropped but blanks. -/
theorem filter_dropIndents (atStart : Bool) (s : List Char) :
    (dropIndents atStart s).filter (!isBlank ·) = s.filter (!isBlank ·) := by
  induction s generalizing atStart with
  | nil => rfl
  | cons c s ih =>
      rw [dropIndents]
      split
      · rename_i hc
        have hblank : isBlank c = true := hc ▸ rfl
        split
        · rw [ih, List.filter_cons_of_neg (by simp [hblank])]
        · rw [← hc, List.filter_cons_of_neg (by simp [hblank]), ih,
            List.filter_cons_of_neg (by simp [hblank])]
      · split
        · rename_i hblank
          rw [ih, List.filter_cons_of_neg (by simpa using (Bool.and_eq_true_iff.mp hblank).2)]
        · rw [List.filter_cons, List.filter_cons, ih]

theorem filter_collapse (s : List Char) :
    (collapse s).filter (!isBlank ·) = s.filter (!isBlank ·) := by
  rw [collapse, List.filter_cons_of_neg (by decide), filter_dropIndents]

/-- From a character on that is no blank, its line is kept. -/
theorem collapse_append_cons (front : List Char) (hc : isBlank c = false) (htail : '\n' ∉ tail)
    (back : List Char) :
    collapse (front ++ c :: (tail ++ back)) =
      collapse front ++ c :: (tail ++ dropIndents false back) := by
  rw [collapse, dropIndents_append, dropIndents_cons_of_not_blank _ hc,
    dropIndents_false_append htail]
  rfl

end Collapsed

/-! ### Margins -/

/-- The second text has more blanks than the first at its start or directly behind a line feed. -/
inductive Widens : List Char → List Char → Prop where
  | start {blanks : List Char} (s : List Char) : AllBlank blanks → Widens s (blanks ++ s)
  | line (front : List Char) {blanks : List Char} (back : List Char) : AllBlank blanks →
      Widens (front ++ '\n' :: back) (front ++ '\n' :: (blanks ++ back))

def SameButMargins : List Char → List Char → Prop :=
  Relation.EqvGen Widens

section Margins

variable {s t blanks : List Char}

theorem dropIndents_blanks_append (h : AllBlank blanks) (s : List Char) :
    dropIndents true (blanks ++ s) = dropIndents true s := by
  rw [dropIndents_true, dropIndents_true, trimStart, List.dropWhile_append_of_pos h]
  rfl

theorem Widens.collapse_eq (h : Widens s t) : collapse s = collapse t := by
  cases h with
  | start s hblanks => rw [collapse, collapse, dropIndents_blanks_append hblanks]
  | line front back hblanks =>
      rw [collapse, collapse, dropIndents_append, dropIndents_append, dropIndents_newline_cons,
        dropIndents_newline_cons, dropIndents_blanks_append hblanks]

theorem SameButMargins.collapse_eq (h : SameButMargins s t) : collapse s = collapse t := by
  induction h with
  | rel s t h => exact h.collapse_eq
  | refl s => rfl
  | symm s t _ ih => exact ih.symm
  | trans s t u _ _ hs ht => exact hs.trans ht

/-- Dropping margins, inside a line and behind a line feed, leads to a text that differs in its
margins only, whatever stands in front. -/
theorem sameButMargins_dropIndents (front s : List Char) :
    SameButMargins (front ++ s) (front ++ dropIndents false s) ∧
      SameButMargins (front ++ '\n' :: s) (front ++ '\n' :: dropIndents true s) := by
  induction s generalizing front with
  | nil => exact ⟨.refl _, .refl _⟩
  | cons c s ih =>
      constructor
      · by_cases hc : c = '\n'
        · rw [hc, dropIndents_newline_cons]
          exact (ih front).2
        · rw [dropIndents, if_neg hc]
          simpa using (ih (front ++ [c])).1
      · cases hc : isBlank c with
        | true =>
            have hblank : AllBlank [c] := by simpa [AllBlank] using hc
            have hwidens : Widens (front ++ '\n' :: s) (front ++ '\n' :: c :: s) :=
              .line front s hblank
            have hdropped : dropIndents true (c :: s) = dropIndents true s :=
              dropIndents_blanks_append hblank s
            rw [hdropped]
            exact .trans _ _ _ (.symm _ _ (.rel _ _ hwidens)) (ih front).2
        | false =>
            rw [dropIndents_cons_of_not_blank true hc]
            simpa using (ih (front ++ ['\n', c])).1

theorem sameButMargins_collapse (s : List Char) : SameButMargins s (collapse s) :=
  .trans _ _ _ (.rel _ _ (.start s allBlank_newline)) (sameButMargins_dropIndents [] s).2

/-- Texts have the same collapse when they differ in their margins only. -/
theorem collapse_eq_collapse_iff : collapse s = collapse t ↔ SameButMargins s t := by
  constructor
  · intro h
    exact .trans _ _ _ (sameButMargins_collapse s) (h ▸ (sameButMargins_collapse t).symm)
  · exact SameButMargins.collapse_eq

end Margins

/-- Collapsing is a canonical form of texts that differ in their margins. It puts a line feed in
place of each match of the expression for margins. What it leaves starts with a line feed, has no
other margin, and is left as it is. All characters that are no blanks stay in their order, and
from the first of them on a line is kept to its end, with the line feed behind it. Two texts come
to the same when one is made from the other by putting blanks into margins and taking them out. -/
theorem collapse_canonical (s : List Char) :
    collapse s = replaceMargins true s ∧
    (∃ rest, collapse s = '\n' :: rest) ∧
    Flush (collapse s) ∧
    collapse (collapse s) = collapse s ∧
    (collapse s).filter (!isBlank ·) = s.filter (!isBlank ·) ∧
    (∀ front c tail, isBlank c = false → '\n' ∉ tail →
      (s = front ++ c :: tail → collapse s = collapse front ++ c :: tail) ∧
      ∀ back, s = front ++ c :: (tail ++ '\n' :: back) →
        collapse s = collapse front ++ c :: (tail ++ collapse back)) ∧
    ∀ t, collapse s = collapse t ↔ SameButMargins s t := by
  obtain ⟨hstart, hflush⟩ := isCollapsed_collapse s
  refine ⟨(replaceMargins_eq true s).symm, hstart, hflush,
    collapse_eq_self_iff.mpr ⟨hstart, hflush⟩, filter_collapse s, ?_,
    fun t => collapse_eq_collapse_iff⟩
  intro front c tail hc htail
  constructor
  · rintro rfl
    simpa [dropIndents] using collapse_append_cons front hc htail []
  · rintro back rfl
    rw [collapse_append_cons front hc htail, dropIndents_newline_cons]
    rfl

/-- Two texts that differ in their indentation, in a blank line and in the blanks behind the last
line feed. The blanks behind `a` and `b` are kept. -/
theorem collapse_canonical_blank_line :
    let s := "\t a \n\n  b\u3000\n".toList
    let t := "a \nb\u3000\n \u2028".toList
    isBlank 'a' = false ∧ '\n' ∉ [' '] ∧
      s = "\t ".toList ++ 'a' :: ([' '] ++ "\n\n  b\u3000\n".toList) ∧
      collapse s = collapse "\t ".toList ++ 'a' :: ([' '] ++ collapse "\n  b\u3000\n".toList) ∧
      SameButMargins s t := by
  intro s t
  have hblank : isBlank 'a' = false := by decide
  have hfeed : '\n' ∉ [' '] := by decide
  obtain ⟨-, -, -, -, -, hkept, hsame⟩ := collapse_canonical s
  refine ⟨hblank, hfeed, rfl, (hkept _ _ _ hblank hfeed).2 _ rfl, (hsame t).mp ?_⟩
  decide +kernel

end Galley.Normalizer
