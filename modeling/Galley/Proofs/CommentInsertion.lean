import Galley.Proofs.CommentRemoval
import Galley.Proofs.Lines

/-!
Documentation comments do not count.

`Commented t t'` says that `t'` is `t` with documentation comments put in at any
places. When `t` holds no opening marker, one pass of removal takes all of them out
again (`removeOnce_commented`); all that is left of them are line feeds where a
comment stood inside a line ending (`Doubled`), and those end blank lines only. So
the normal form is that of `t`, and containment does not see the comments
(`normalize_commented`).
-/

namespace Galley

open Text Normalizer

/-! ### Commented texts -/

namespace Comment

/-- A text between the markers of a documentation comment: it does not close the
comment, and it does not turn the opening marker into a closed comment. -/
def IsBody (body : List Char) : Prop :=
  ¬ docBlock.closing <:+: body ∧ body.head? ≠ some '/'

instance (body : List Char) : Decidable (IsBody body) := by
  unfold IsBody; infer_instance

def docComment (body : List Char) : List Char :=
  docBlock.opening ++ body ++ docBlock.closing

/-- The second text is the first one with documentation comments put in at any
places, also several at one place. -/
inductive Commented : List Char → List Char → Prop where
  | nil : Commented [] []
  | keep (c : Char) {s t : List Char} : Commented s t → Commented (c :: s) (c :: t)
  | comment {body s t : List Char} : IsBody body → Commented s t →
      Commented s (docComment body ++ t)

/-- The second text is the first one with more line feeds in front of line feeds. -/
inductive Doubled : List Char → List Char → Prop where
  | nil : Doubled [] []
  | keep (c : Char) {s t : List Char} : Doubled s t → Doubled (c :: s) (c :: t)
  | again {s t : List Char} : Doubled ('\n' :: s) t → Doubled ('\n' :: s) ('\n' :: t)

/-! ### Documentation comments at the front -/

/-- The comment closes behind its text and not before. -/
theorem afterAny?_docComment {body : List Char} (h : IsBody body) (rest : List Char) :
    afterAny? [docBlock] (docComment body ++ rest) = some rest := by
  obtain ⟨hclosing, hhead⟩ := h
  have hopening : dropPrefix? docBlock.opening (docComment body ++ rest) =
      some (body ++ docBlock.closing ++ rest) := by
    rw [dropPrefix?_eq_some_iff]
    simp [docComment]
  -- The last star of the opening marker may begin the closing one; then a slash would come next.
  have hshared : docBlock.sharedRests.findSome? (fun shared =>
      dropPrefix? shared (body ++ docBlock.closing ++ rest)) = none := by
    have hrests : docBlock.sharedRests = [['/']] := by decide
    rw [hrests]
    cases body with
    | nil => rfl
    | cons c body =>
        have hc : '/' ≠ c := by simpa using Ne.symm hhead
        simp [dropPrefix?, hc]
  have hbehind : afterFirst? docBlock.closing (body ++ docBlock.closing ++ rest) = some rest := by
    apply afterFirst?_of_first
    intro tail hne hsuffix hfront
    apply hclosing
    obtain ⟨c, tail, rfl⟩ := List.exists_cons_of_ne_nil hne
    obtain ⟨hc, hfront⟩ := List.cons_prefix_cons.mp hfront
    cases tail with
    | nil => simp [docBlock] at hfront
    | cons d tail =>
        obtain ⟨hd, -⟩ := List.cons_prefix_cons.mp hfront
        have hmarker : docBlock.closing <+: c :: d :: tail := ⟨tail, by rw [← hc, ← hd]; rfl⟩
        exact hmarker.isInfix.trans hsuffix.isInfix
  rw [afterAny?, List.findSome?_cons, after?, hopening]
  simp only [hshared, hbehind]

theorem removeOnce_docComment {body : List Char} (h : IsBody body) (rest : List Char) :
    removeOnce [docBlock] (docComment body ++ rest) = removeOnce [docBlock] rest :=
  removeOnce_of_some (afterAny?_docComment h rest)

theorem removeOnce_newline (s : List Char) :
    removeOnce [docBlock] ('\n' :: s) = '\n' :: removeOnce [docBlock] s := by
  apply removeOnce_of_none
  apply afterAny?_eq_none
  intro c hc
  rw [List.mem_singleton.mp hc]
  simp [docBlock]

/-! ### One pass takes the comments out -/

/-- A character that starts no comment comes from the text without comments. -/
theorem Commented.of_cons {c : Char} {s t : List Char} (hc : c ≠ '/')
    (h : Commented s (c :: t)) : ∃ s', s = c :: s' ∧ Commented s' t := by
  generalize ht : c :: t = t' at h
  cases h with
  | nil => cases ht
  | keep d h =>
      cases ht
      exact ⟨_, rfl, h⟩
  | comment hbody h =>
      exact absurd (List.cons.inj ht).1 hc

/-- At a kept character an opening marker stands only where one stood before. -/
theorem Commented.opening_front {c : Char} {s t : List Char} (h : Commented s t)
    (hfront : docBlock.opening <+: c :: t) : docBlock.opening <+: c :: s := by
  obtain ⟨rest, hrest⟩ := hfront
  cases hrest
  obtain ⟨s₁, rfl, h₁⟩ := h.of_cons (by decide)
  obtain ⟨s₂, rfl, -⟩ := h₁.of_cons (by decide)
  exact ⟨s₂, rfl⟩

/-- At a kept character no comment starts: comments are put in as a whole, so its opening marker
would be one of the text before. -/
theorem Commented.afterAny?_eq_none {c : Char} {s t : List Char} (h : Commented s t)
    (hc : c ≠ '\r') (hopening : ¬ docBlock.opening <:+: c :: s) :
    afterAny? [docBlock] (c :: unifyBreaks t) = none := by
  apply Comment.afterAny?_eq_none
  intro d hd hfront
  rw [List.mem_singleton.mp hd, ← unifyBreaks_cons hc] at hfront
  have hmarker := prefix_of_prefix_unifyBreaks (by decide) hfront
  exact hopening (h.opening_front hmarker).isInfix

/-- Reading the line endings of a comment gives a comment. -/
theorem IsBody.unified {body : List Char} (h : IsBody body) :
    IsBody (unifyBreaks body) := by
  obtain ⟨hclosing, hhead⟩ := h
  constructor
  · intro hin
    exact hclosing (infix_of_infix_unifyBreaks (by decide) hin)
  · intro heq
    obtain ⟨rest, hrest⟩ := List.head?_eq_some_iff.mp heq
    have hslash : ['/'] <+: body :=
      prefix_of_prefix_unifyBreaks (by decide) ⟨rest, hrest.symm⟩
    obtain ⟨rest, rfl⟩ := hslash
    exact hhead rfl

theorem unifyBreaks_docComment (body t : List Char) :
    unifyBreaks (docComment body ++ t) =
      docComment (unifyBreaks body) ++ unifyBreaks t := by
  have hclosing : unifyBreaks (docBlock.closing ++ t) =
      docBlock.closing ++ unifyBreaks t := by
    simp [docBlock, unifyBreaks_cons]
  have hopening : ∀ u, unifyBreaks (docBlock.opening ++ u) =
      docBlock.opening ++ unifyBreaks u := by
    simp [docBlock, unifyBreaks_cons]
  simp only [docComment, List.append_assoc, hopening]
  rw [unifyBreaks_append body (by simp [docBlock]), hclosing]

/-- One pass leaves of a commented text the text itself, with a second line feed
where a comment stood inside a line ending. The second half is the same behind a
carriage return, whose line feed may stand behind a comment. -/
theorem removeOnce_commented {s t : List Char} (h : Commented s t)
    (hopening : ¬ docBlock.opening <:+: s) :
    Doubled (unifyBreaks s) (removeOnce [docBlock] (unifyBreaks t)) ∧
      Doubled (unifyBreaks ('\r' :: s))
        (removeOnce [docBlock] (unifyBreaks ('\r' :: t))) := by
  induction h with
  | nil =>
      refine ⟨?_, ?_⟩
      · rw [unifyBreaks, removeOnce_nil]
        exact .nil
      · rw [unifyBreaks_return (by simp), unifyBreaks, removeOnce_newline,
          removeOnce_nil]
        exact .keep _ .nil
  | @keep c s t h ih =>
      obtain ⟨hplain, hreturn⟩ :=
        ih fun hin => hopening (hin.trans (List.suffix_cons c s).isInfix)
      have hfirst : Doubled (unifyBreaks (c :: s))
          (removeOnce [docBlock] (unifyBreaks (c :: t))) := by
        by_cases hc : c = '\r'
        · exact hc ▸ hreturn
        · rw [unifyBreaks_cons hc, unifyBreaks_cons hc,
            removeOnce_of_none (h.afterAny?_eq_none hc hopening)]
          exact .keep c hplain
      refine ⟨hfirst, ?_⟩
      by_cases hc : c = '\n'
      · subst hc
        rw [unifyBreaks, unifyBreaks, removeOnce_newline]
        exact .keep _ hplain
      · rw [unifyBreaks_return (by simpa using hc),
          unifyBreaks_return (by simpa using hc), removeOnce_newline]
        exact .keep _ hfirst
  | @comment body s t hbody h ih =>
      obtain ⟨hplain, -⟩ := ih hopening
      have hfirst : Doubled (unifyBreaks s)
          (removeOnce [docBlock] (unifyBreaks (docComment body ++ t))) := by
        rw [unifyBreaks_docComment, removeOnce_docComment hbody.unified]
        exact hplain
      refine ⟨hfirst, ?_⟩
      rw [unifyBreaks_return (s := docComment body ++ t)
        (by simp [docComment, docBlock]), removeOnce_newline]
      by_cases hs : s.head? = some '\n'
      · -- The comment stands inside a line ending, which becomes two.
        obtain ⟨s, rfl⟩ := List.head?_eq_some_iff.mp hs
        rw [unifyBreaks_cons (by decide)] at hfirst
        rw [unifyBreaks]
        exact .again hfirst
      · rw [unifyBreaks_return hs]
        exact .keep _ hfirst

/-! ### Doubled line feeds -/

/-- Doubling line feeds makes no block that holds none. -/
theorem Doubled.prefix_left {block s t : List Char} (hblock : '\n' ∉ block)
    (h : Doubled s t) (hfront : block <+: t) : block <+: s := by
  induction block generalizing s t with
  | nil => exact List.nil_prefix
  | cons b block ih =>
      obtain ⟨hb, hblock⟩ := not_or.mp (mt List.mem_cons.mpr hblock)
      cases h with
      | nil => exact hfront
      | keep c h =>
          obtain ⟨hc, hfront⟩ := List.cons_prefix_cons.mp hfront
          exact List.cons_prefix_cons.mpr ⟨hc, ih hblock h hfront⟩
      | again h => exact absurd (List.cons_prefix_cons.mp hfront).1.symm hb

theorem Doubled.infix_left {block s t : List Char} (hblock : '\n' ∉ block)
    (h : Doubled s t) (hin : block <:+: t) : block <:+: s := by
  induction h with
  | nil => exact hin
  | @keep c s t h ih =>
      rcases List.infix_cons_iff.mp hin with hfront | hin
      · exact ((Doubled.keep c h).prefix_left hblock hfront).isInfix
      · exact (ih hin).trans (List.suffix_cons c s).isInfix
  | again h ih =>
      rcases List.infix_cons_iff.mp hin with hfront | hin
      · exact (h.again.prefix_left hblock hfront).isInfix
      · exact ih hin

/-- A doubled line feed ends a blank line, so the lines of content stay the same. -/
theorem Doubled.contentLines_eq {s t : List Char} (h : Doubled s t) (front : List Char) :
    contentLines (front ++ s) = contentLines (front ++ t) := by
  induction h generalizing front with
  | nil => rfl
  | keep c h ih =>
      have := ih (front ++ [c])
      rwa [List.append_assoc, List.append_assoc] at this
  | @again s t h ih =>
      have hrest : contentLines s = contentLines t := ih []
      rw [contentLines_append_newline, contentLines_append_newline, hrest]

/-! ### Normal forms -/

/-- Removal of all comments from a commented text leaves the text, up to doubled
line feeds. -/
theorem removeAll_commented {s t : List Char} (h : Commented s t)
    (hopening : ¬ docBlock.opening <:+: s) :
    Doubled (removeAll [docBlock] (unifyBreaks s)) (removeAll [docBlock] (unifyBreaks t)) := by
  have hdoubled := (removeOnce_commented h hopening).1
  have hplain : removeOnce [docBlock] (unifyBreaks s) = unifyBreaks s := by
    apply removeOnce_eq_self
    intro c hc hin
    rw [List.mem_singleton.mp hc] at hin
    exact hopening (infix_of_infix_unifyBreaks (by decide) hin)
  have honce : removeOnce [docBlock] (removeOnce [docBlock] (unifyBreaks t)) =
      removeOnce [docBlock] (unifyBreaks t) := by
    apply removeOnce_eq_self
    intro c hc hin
    rw [List.mem_singleton.mp hc] at hin
    exact hopening (infix_of_infix_unifyBreaks (by decide) (hdoubled.infix_left (by decide) hin))
  rw [removeAll_of_removeOnce hplain hplain, removeAll_of_removeOnce rfl honce]
  exact hdoubled

theorem normalize_eq_of_commented {s t : List Char} (h : Commented s t)
    (hopening : ¬ docBlock.opening <:+: s) :
    (default : Normalizer).normalize t = (default : Normalizer).normalize s := by
  have hlines := (removeAll_commented h hopening).contentLines_eq []
  exact congrArg joinLines hlines.symm

/-- Documentation comments never decide a comparison: wherever they are put into a
text without opening markers, its normal form stays the same, and so does what it
contains and what contains it. -/
theorem commented_same_normalForm {s t : List Char} (h : Commented s t)
    (hopening : ¬ docBlock.opening <:+: s) :
    (default : Normalizer).normalize t = (default : Normalizer).normalize s ∧
      ∀ {f g : List Char}, Commented f g → ¬ docBlock.opening <:+: f →
        (default : Normalizer).contains t g = (default : Normalizer).contains s f := by
  have htext := normalize_eq_of_commented h hopening
  refine ⟨htext, ?_⟩
  intro f g hfragment hnone
  rw [contains, contains, htext, normalize_eq_of_commented hfragment hnone]

/-- Comments next to loose markers, two of them inside a line ending, one with an
opening marker and a line ending in its text. -/
theorem commented_same_normalForm_inside_ending :
    let s := ['/', '*', 'a', '\r', '\n', '*', '/']
    let t := '/' :: '*' :: (docComment [] ++ 'a' :: '\r' ::
      (docComment [' ', '/', '*', '*', '\r', '\n'] ++ (docComment ['*'] ++ ['\n', '*', '/'])))
    Commented s t ∧ ¬ docBlock.opening <:+: s ∧
      (default : Normalizer).normalize t = (default : Normalizer).normalize s ∧
        (default : Normalizer).contains t t = (default : Normalizer).contains s s := by
  intro s t
  have h : Commented s t :=
    .keep _ <| .keep _ <| .comment (by decide) <| .keep _ <| .keep _ <|
      .comment (by decide) <| .comment (by decide) <| .keep _ <| .keep _ <| .keep _ .nil
  have hopening : ¬ docBlock.opening <:+: s := by decide
  obtain ⟨hnormal, hcontains⟩ := commented_same_normalForm h hopening
  exact ⟨h, hopening, hnormal, hcontains h hopening⟩

end Comment

end Galley
