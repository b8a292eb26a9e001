import Galley.Comment
import Mathlib.Data.List.Infix

/-!
How comments are removed.

`dropPrefix?_eq_some_iff` and `afterFirst?_of_first` say what stands behind a
marker. One pass of removal keeps a part of the text in order
(`removeOnce_sublist`) and leaves a text alone that holds no opening marker
(`removeOnce_eq_self`), and the repeated removal ends at the first text that a pass
leaves alone (`removeAll_of_removeOnce`).
-/

namespace Galley

open Text

namespace Text

theorem dropPrefix?_eq_some_iff {block s rest : List Char} :
    dropPrefix? block s = some rest ↔ s = block ++ rest := by
  induction block generalizing s with
  | nil => simp [dropPrefix?]
  | cons b bs ih =>
      cases s with
      | nil => simp [dropPrefix?]
      | cons c cs =>
          rw [dropPrefix?]
          split
          · rename_i hb
            simp [ih, hb]
          · rename_i hb
            simp [Ne.symm hb]

theorem dropPrefix?_eq_none_iff {block s : List Char} :
    dropPrefix? block s = none ↔ ¬ block <+: s := by
  rw [Option.eq_none_iff_forall_ne_some]
  constructor
  · rintro h ⟨rest, hrest⟩
    exact h rest (dropPrefix?_eq_some_iff.mpr hrest.symm)
  · rintro h rest hrest
    exact h ⟨rest, (dropPrefix?_eq_some_iff.mp hrest).symm⟩

end Text

namespace Comment

/-! ### Behind a marker -/

/-- What stands behind the first occurrence of a block: the block does not start
anywhere in the piece before it. -/
theorem afterFirst?_of_first {block piece rest : List Char}
    (h : ∀ tail, tail ≠ [] → tail <:+ piece → ¬ block <+: tail ++ block ++ rest) :
    afterFirst? block (piece ++ block ++ rest) = some rest := by
  induction piece with
  | nil =>
      have hfront : dropPrefix? block (block ++ rest) = some rest :=
        dropPrefix?_eq_some_iff.mpr rfl
      rw [List.nil_append]
      cases hs : block ++ rest with
      | nil => rw [afterFirst?, ← hs, hfront]
      | cons c cs => simp only [afterFirst?, ← hs, hfront]
  | cons c piece ih =>
      have hhere : dropPrefix? block (c :: piece ++ block ++ rest) = none :=
        dropPrefix?_eq_none_iff.mpr (h (c :: piece) (by simp) List.suffix_rfl)
      simp only [List.cons_append, afterFirst?] at hhere ⊢
      rw [hhere]
      exact ih fun tail hne hsuffix => h tail hne (hsuffix.trans (List.suffix_cons c piece))

/-- What is behind a comment is an end of the text. -/
theorem afterFirst?_suffix {block s rest : List Char}
    (h : afterFirst? block s = some rest) : rest <:+ s := by
  induction s with
  | nil => exact ⟨block, (dropPrefix?_eq_some_iff.mp h).symm⟩
  | cons c cs ih =>
      rw [afterFirst?] at h
      split at h
      · rename_i r hr
        cases h
        exact ⟨block, (dropPrefix?_eq_some_iff.mp hr).symm⟩
      · exact (ih h).trans (List.suffix_cons c cs)

theorem after?_suffix {c : Comment} {s rest : List Char} (h : c.after? s = some rest) :
    rest <:+ s := by
  rw [after?] at h
  split at h
  · cases h
  · rename_i inner hinner
    have hfront : inner <:+ s := ⟨c.opening, (dropPrefix?_eq_some_iff.mp hinner).symm⟩
    split at h
    · rename_i behind hbehind
      cases h
      obtain ⟨shared, -, hshared⟩ := List.exists_of_findSome?_eq_some hbehind
      have hrest : rest <:+ inner := ⟨shared, (dropPrefix?_eq_some_iff.mp hshared).symm⟩
      exact hrest.trans hfront
    · exact (afterFirst?_suffix h).trans hfront

theorem afterAny?_suffix {comments : List Comment} {s rest : List Char}
    (h : afterAny? comments s = some rest) : rest <:+ s := by
  obtain ⟨c, -, hc⟩ := List.exists_of_findSome?_eq_some h
  exact after?_suffix hc

/-- No comment starts where no opening marker stands. -/
theorem afterAny?_eq_none {comments : List Comment} {s : List Char}
    (h : ∀ c ∈ comments, ¬ c.opening <+: s) : afterAny? comments s = none := by
  apply List.findSome?_eq_none_iff.mpr
  intro c hc
  rw [after?, dropPrefix?_eq_none_iff.mpr (h c hc)]

/-! ### One pass and all passes -/

@[simp] theorem removeOnce_nil (comments : List Comment) : removeOnce comments [] = [] := by
  rw [removeOnce]

/-- A comment at the front is removed. -/
theorem removeOnce_of_some {comments : List Comment} {s rest : List Char}
    (h : afterAny? comments s = some rest) :
    removeOnce comments s = removeOnce comments rest := by
  have hlt := length_afterAny?_lt h
  cases s with
  | nil => simp at hlt
  | cons c cs =>
      rw [removeOnce]
      split
      · rename_i r hr
        rw [h] at hr
        cases hr
        rfl
      · rename_i hr
        rw [h] at hr
        cases hr

/-- A character at which no comment starts is kept. -/
theorem removeOnce_of_none {comments : List Comment} {c : Char} {cs : List Char}
    (h : afterAny? comments (c :: cs) = none) :
    removeOnce comments (c :: cs) = c :: removeOnce comments cs := by
  rw [removeOnce]
  split
  · rename_i r hr
    rw [h] at hr
    cases hr
  · rfl

/-- One pass keeps a part of the text in order. -/
theorem removeOnce_sublist (comments : List Comment) (s : List Char) :
    (removeOnce comments s).Sublist s := by
  induction s using removeOnce.induct comments with
  | case1 => simp
  | case2 c cs rest h ih =>
      rw [removeOnce_of_some h]
      exact ih.trans (afterAny?_suffix h).sublist
  | case3 c cs h ih =>
      rw [removeOnce_of_none h]
      exact ih.cons_cons c

/-- A pass over a text with a comment at its front changes it. -/
theorem removeOnce_ne_of_some {comments : List Comment} {s rest : List Char}
    (h : afterAny? comments s = some rest) : removeOnce comments s ≠ s := by
  intro heq
  have hshort := length_afterAny?_lt h
  have hsub := (removeOnce_sublist comments rest).length_le
  rw [← removeOnce_of_some h, heq] at hsub
  omega

/-- One pass leaves a text alone that holds no opening marker. -/
theorem removeOnce_eq_self {comments : List Comment} {s : List Char}
    (h : ∀ c ∈ comments, ¬ c.opening <:+: s) : removeOnce comments s = s := by
  induction s with
  | nil => simp
  | cons d s ih =>
      rw [removeOnce_of_none (afterAny?_eq_none fun c hc hfront => h c hc hfront.isInfix),
        ih fun c hc hin => h c hc (hin.trans (List.suffix_cons d s).isInfix)]

/-- A pass that changes a text makes it shorter. -/
theorem length_removeOnce_lt {comments : List Comment} {s : List Char}
    (h : removeOnce comments s ≠ s) : (removeOnce comments s).length < s.length := by
  have hsub := removeOnce_sublist comments s
  by_contra hlength
  exact h (hsub.eq_of_length_le (not_lt.mp hlength))

/-- The passes end at a text that a pass leaves alone. -/
theorem removeAll_of_eq {comments : List Comment} {s : List Char}
    (h : removeOnce comments s = s) : removeAll comments s = s := by
  rw [removeAll, h]
  simp

/-- A pass that changes the text is followed by the others. -/
theorem removeAll_of_ne {comments : List Comment} {s : List Char}
    (h : removeOnce comments s ≠ s) :
    removeAll comments s = removeAll comments (removeOnce comments s) := by
  rw [removeAll, if_pos (length_removeOnce_lt h)]

/-- What holds of a text that a pass leaves alone, and of a text for which it holds behind a pass,
holds of the removal of all comments. -/
theorem removeAll_induction {comments : List Comment} {motive : List Char → List Char → Prop}
    (done : ∀ s, removeOnce comments s = s → motive s s)
    (again : ∀ s t, removeOnce comments s ≠ s → motive (removeOnce comments s) t → motive s t)
    (s : List Char) : motive s (removeAll comments s) := by
  induction hlength : s.length using Nat.strong_induction_on generalizing s with
  | _ length ih =>
      by_cases hs : removeOnce comments s = s
      · rw [removeAll_of_eq hs]
        exact done s hs
      · rw [removeAll_of_ne hs]
        exact again s _ hs (ih _ (hlength ▸ length_removeOnce_lt hs) _ rfl)

/-- When a pass leaves its own outcome alone, that is the outcome of all passes. -/
theorem removeAll_of_removeOnce {comments : List Comment} {s t : List Char}
    (hs : removeOnce comments s = t) (ht : removeOnce comments t = t) :
    removeAll comments s = t := by
  by_cases h : removeOnce comments s = s
  · rw [removeAll_of_eq h, ← hs, h]
  · rw [removeAll_of_ne h, hs, removeAll_of_eq ht]

end Comment

end Galley
