import Galley.Proofs.Respacing

/-!
Line endings, blanks at the ends of lines and blank lines do not count.

`LaidOut lines s` says that a text is made of the given lines, with any line endings and
blanks behind them and any blank lines around them. Read with its line endings, such a text
is respaced to the lines with a line feed behind each (`LaidOut.readsAs`); a line feed at
the front of a piece may belong to an ending before it, so reading is said for both cases
at once (`ReadsAs`). So all texts made of the same lines have one normal form
(`laidOut_same_normalForm`).
-/

namespace Galley

open Text

namespace Normalizer

/-! ### Texts made of lines -/

/-- Blanks that end no line. -/
def IsPadding (s : List Char) : Prop :=
  ∀ c ∈ s, isBlank c = true ∧ c ≠ '\n' ∧ c ≠ '\r'

instance (s : List Char) : Decidable (IsPadding s) :=
  List.decidableBAll _ s

/-- What ends a line. -/
inductive IsEnding : List Char → Prop where
  | feed : IsEnding ['\n']
  | returnFeed : IsEnding ['\r', '\n']
  | carriageReturn : IsEnding ['\r']

/-- The text is made of the lines in order, each with blanks and an ending behind it, and
of blank lines around them. The last line of all may have no ending. -/
inductive LaidOut : List (List Char) → List Char → Prop where
  | blankEnd {padding : List Char} : IsPadding padding → LaidOut [] padding
  | lineEnd (l : List Char) {padding : List Char} : IsPadding padding →
      LaidOut [l] (l ++ padding)
  | blankLine {padding ending : List Char} {lines : List (List Char)} {s : List Char} :
      IsPadding padding → IsEnding ending → LaidOut lines s →
      LaidOut lines (padding ++ ending ++ s)
  | line (l : List Char) {padding ending : List Char} {lines : List (List Char)} {s : List Char} :
      IsPadding padding → IsEnding ending → LaidOut lines s →
      LaidOut (l :: lines) (l ++ padding ++ ending ++ s)

/-- The lines with a line feed behind each of them. -/
def fedLines (lines : List (List Char)) : List Char :=
  lines.flatMap (· ++ ['\n'])

/-- A text that holds neither a line feed nor a carriage return. -/
def IsLine (l : List Char) : Prop :=
  '\n' ∉ l ∧ '\r' ∉ l

instance (l : List Char) : Decidable (IsLine l) :=
  inferInstanceAs (Decidable ('\n' ∉ l ∧ '\r' ∉ l))

theorem IsPadding.allBlank {s : List Char} (h : IsPadding s) : AllBlank s :=
  fun c hc => (h c hc).1

theorem IsPadding.isLine {s : List Char} (h : IsPadding s) : IsLine s :=
  ⟨fun hc => (h _ hc).2.1 rfl, fun hc => (h _ hc).2.2 rfl⟩

theorem IsLine.append {l m : List Char} (hl : IsLine l) (hm : IsLine m) : IsLine (l ++ m) := by
  constructor
  · intro h
    rcases List.mem_append.mp h with h | h
    · exact hl.1 h
    · exact hm.1 h
  · intro h
    rcases List.mem_append.mp h with h | h
    · exact hl.2 h
    · exact hm.2 h

theorem unifyBreaks_line_append {l : List Char} (h : IsLine l) (s : List Char) :
    unifyBreaks (l ++ s) = l ++ unifyBreaks s := by
  induction l with
  | nil => rfl
  | cons c l ih =>
      obtain ⟨hfeed, hreturn⟩ := h
      have hc : c ≠ '\r' := fun heq => hreturn (heq ▸ List.mem_cons_self)
      have hl : IsLine l :=
        ⟨fun hin => hfeed (List.mem_cons_of_mem c hin),
          fun hin => hreturn (List.mem_cons_of_mem c hin)⟩
      rw [List.cons_append, unifyBreaks_cons hc, ih hl]
      rfl

theorem unifyBreaks_line {l : List Char} (h : IsLine l) : unifyBreaks l = l := by
  have := unifyBreaks_line_append h []
  rwa [List.append_nil, unifyBreaks, List.append_nil] at this

theorem IsLine.head?_ne {l : List Char} (h : IsLine l) : l.head? ≠ some '\n' :=
  fun hhead => h.1 (List.mem_of_mem_head? hhead)

/-! ### Reading the line endings -/

/-- Behind a line feed, the text `s` reads as one that is respaced to `t`. Behind a carriage
return too, although that takes a line feed at the front of `s` for a part of its own
ending. -/
structure ReadsAs (s t : List Char) : Prop where
  plain : Respaced ('\n' :: t) ('\n' :: unifyBreaks s)
  behindReturn : Respaced ('\n' :: t) (unifyBreaks ('\r' :: s))

section Reading

variable {m s t u e : List Char}

/-- An ending and a text behind it read as a line feed and the text. -/
theorem ReadsAs.behindEnding (h : ReadsAs s t) (he : IsEnding e) :
    ∃ u, unifyBreaks (e ++ s) = '\n' :: u ∧ Respaced ('\n' :: t) ('\n' :: u) := by
  cases he with
  | feed => exact ⟨_, unifyBreaks_cons (by decide) s, h.plain⟩
  | returnFeed => exact ⟨_, unifyBreaks.eq_2 s, h.plain⟩
  | carriageReturn =>
      have hreturn := h.behindReturn
      by_cases hs : s.head? = some '\n'
      · obtain ⟨s, rfl⟩ := List.head?_eq_some_iff.mp hs
        exact ⟨_, rfl, hreturn⟩
      · exact ⟨_, unifyBreaks_return hs, h.plain⟩

/-- A last line without an ending. -/
theorem readsAs_last (hm : IsLine m) (h : Respaced ('\n' :: t) ('\n' :: m)) : ReadsAs m t := by
  have hplain : Respaced ('\n' :: t) ('\n' :: unifyBreaks m) := by
    rw [unifyBreaks_line hm]
    exact h
  refine ⟨hplain, ?_⟩
  rw [unifyBreaks_return hm.head?_ne]
  exact hplain

/-- A line in front of an ending. Only when the line is empty may the ending be read as a
part of another one. -/
theorem readsAs_line (hm : IsLine m) (he : IsEnding e) (hu : unifyBreaks (e ++ s) = '\n' :: u)
    (hline : Respaced ('\n' :: t) ('\n' :: (m ++ '\n' :: u)))
    (hempty : m = [] → Respaced ('\n' :: t) ('\n' :: u)) : ReadsAs (m ++ e ++ s) t := by
  have hplain : Respaced ('\n' :: t) ('\n' :: unifyBreaks (m ++ e ++ s)) := by
    rw [List.append_assoc, unifyBreaks_line_append hm, hu]
    exact hline
  refine ⟨hplain, ?_⟩
  by_cases hhead : (m ++ e ++ s).head? = some '\n'
  · cases m with
    | nil =>
        cases he with
        | feed =>
            -- The line feed is the only ending that the carriage return can swallow.
            have hfeed : unifyBreaks ('\r' :: '\n' :: s) = '\n' :: u :=
              (unifyBreaks.eq_2 s).trans ((unifyBreaks_cons (by decide) s).symm.trans hu)
            rw [List.nil_append, List.singleton_append, hfeed]
            exact hempty rfl
        | returnFeed => cases hhead
        | carriageReturn => cases hhead
    | cons c m =>
        have hc : c = '\n' := Option.some.inj hhead
        exact absurd (hc ▸ List.mem_cons_self) hm.1
  · rw [unifyBreaks_return hhead]
    exact hplain

/-- A text made of lines reads as these lines with a line feed behind each of them. -/
theorem LaidOut.readsAs {lines : List (List Char)} (hlines : ∀ l ∈ lines, IsLine l)
    (h : LaidOut lines s) : ReadsAs s (fedLines lines) := by
  induction h with
  | blankEnd hp =>
      exact readsAs_last hp.isLine (.ends allBlank_newline (allBlank_newline.append hp.allBlank))
  | lineEnd l hp =>
      have hl : IsLine l := hlines l List.mem_cons_self
      have hends : Respaced ['\n'] _ := .ends allBlank_newline hp.allBlank
      have hfed : fedLines [l] = l ++ ['\n'] := by simp [fedLines]
      rw [hfed]
      exact readsAs_last (hl.append hp.isLine) (hends.append_left ('\n' :: l))
  | @blankLine p e lines s hp he _ ih =>
      obtain ⟨u, hu, hrest⟩ := (ih hlines).behindEnding he
      have hblank : AllBlank ('\n' :: p) := allBlank_newline.append hp.allBlank
      exact readsAs_line hp.isLine he hu (hrest.widen hblank) fun _ => hrest
  | @line l p e lines s hp he _ ih =>
      obtain ⟨hl, hlines⟩ := List.forall_mem_cons.mp hlines
      obtain ⟨u, hu, hrest⟩ := (ih hlines).behindEnding he
      have hfed : fedLines (l :: lines) = l ++ '\n' :: fedLines lines := by simp [fedLines]
      rw [hfed]
      refine readsAs_line (hl.append hp.isLine) he hu ?_ ?_
      · have hpadded := (hrest.widen hp.allBlank).append_left ('\n' :: l)
        rwa [List.append_assoc]
      · intro hempty
        obtain ⟨rfl, -⟩ := List.append_eq_nil_iff.mp hempty
        exact (hrest.symm.widen allBlank_newline).symm

end Reading

/-! ### Normal forms -/

/-- The normal form of a text made of lines is that of the lines with line feeds. -/
theorem normalize_laidOut {n : Normalizer} (hn : ∀ c ∈ n.comments, c.Solid)
    {lines : List (List Char)} {s : List Char} (hlines : ∀ l ∈ lines, IsLine l)
    (h : LaidOut lines s) :
    n.normalize s = joinLines (contentLines (n.strip (fedLines lines))) := by
  have hsame := contentLines_strip_of_respaced hn (h.readsAs hlines).plain
  exact congrArg joinLines hsame.symm

/-- Insignificant white space never decides a comparison: texts made of the same lines have
the same normal form, whatever ends the lines, whatever blanks stand behind them, and
whatever blank lines stand around them. -/
theorem laidOut_same_normalForm {lines : List (List Char)} {s t : List Char}
    (hlines : ∀ l ∈ lines, IsLine l) (hs : LaidOut lines s) (ht : LaidOut lines t) :
    (default : Normalizer).normalize s = (default : Normalizer).normalize t := by
  have hsolid : ∀ c ∈ (default : Normalizer).comments, c.Solid := by decide
  rw [normalize_laidOut hsolid hlines hs, normalize_laidOut hsolid hlines ht]

/-- Lines with an empty one among them and with comments that go over line ends, one of them
made by the deletion of another: once with line feeds, and once with other endings, a blank
line in front, and blanks inside and behind the comments. -/
theorem laidOut_same_normalForm_joined_comment :
    let lines := ["/*/** a".toList, [], "*/* b".toList, "*/ x".toList, "/**".toList]
    let s := "/*/** a\n\n*/* b\n*/ x\n/**".toList
    let t := "\u2003\r\n/*/** a\t\r\n*/* b \r \r\n*/ x\u3000\r\r\n/**\u000b\n".toList
    LaidOut lines s ∧ LaidOut lines t ∧ (default : Normalizer).normalize s = " x\n/**".toList ∧
      (default : Normalizer).normalize s = (default : Normalizer).normalize t := by
  intro lines s t
  have hs : LaidOut lines s :=
    .line _ (by decide : IsPadding []) .feed <| .line _ (by decide : IsPadding []) .feed <|
      .line _ (by decide : IsPadding []) .feed <| .line _ (by decide : IsPadding []) .feed <|
        .lineEnd _ (by decide : IsPadding [])
  have ht : LaidOut lines t :=
    .blankLine (by decide : IsPadding ['\u2003']) .returnFeed <|
      .line _ (by decide : IsPadding ['\t']) .carriageReturn <|
      .line _ (by decide : IsPadding []) .feed <|
      .line _ (by decide : IsPadding [' ']) .carriageReturn <|
      .blankLine (by decide : IsPadding [' ']) .returnFeed <|
      .line _ (by decide : IsPadding ['\u3000']) .carriageReturn <|
      .blankLine (by decide : IsPadding []) .returnFeed <|
      .line _ (by decide : IsPadding ['\u000b']) .feed <|
      .blankEnd (by decide : IsPadding [])
  have hlines : ∀ l ∈ lines, IsLine l := by decide
  have hnormal : (default : Normalizer).normalize s = " x\n/**".toList := by decide +kernel
  exact ⟨hs, ht, hnormal, laidOut_same_normalForm hlines hs ht⟩

end Normalizer

end Galley
