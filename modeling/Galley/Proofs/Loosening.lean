import Galley.Proofs.CommentSpans
import Galley.Proofs.Respacing
import Mathlib.Order.Monotone.Basic

/-!
Texts before their lines are trimmed.

`Text.Loosened s t` says that `t` is `s` with blanks in front of its line feeds and at its end,
and `Text.Places` leads from the places of `s` to those of the same characters in `t`. Only
characters in front of a line feed may lose their neighbour there, so a marker that holds no
line feed behind its first character stands in `t` wherever it stands in `s`
(`Places.prefix_drop`), and a comment with such markers in `s` is one in `t`
(`Comment.exists_hasSpan_of_places`).
-/

namespace Galley

open Text

namespace Text

/-! ### Texts before trimming -/

/-- The second text is the first one with blanks put in front of line feeds and at its end. -/
inductive Loosened : List Char → List Char → Prop where
  | ends {w : List Char} : AllBlank w → Loosened [] w
  | keep (c : Char) {s t : List Char} : Loosened s t → Loosened (c :: s) (c :: t)
  | gap {w s t : List Char} : AllBlank w → Loosened s t → Loosened ('\n' :: s) (w ++ '\n' :: t)

/-- `f` leads from the places of the first text to those of the second one, in order and to the
same characters. Neighbours stay neighbours, except in front of a line feed. -/
structure Places (s t : List Char) (f : Nat → Nat) : Prop where
  mono : StrictMono f
  same : ∀ i, i < s.length → t[f i]? = s[i]?
  first : s[0]? ≠ some '\n' → f 0 = 0
  next : ∀ i, s[i + 1]? ≠ some '\n' → f (i + 1) = f i + 1

/-- A block that holds no line feed behind its first character. -/
def Unbroken (block : List Char) : Prop :=
  '\n' ∉ block.tail

instance (block : List Char) : Decidable (Unbroken block) :=
  inferInstanceAs (Decidable ('\n' ∉ block.tail))

section Loosening

variable {s t u w block : List Char} {f : Nat → Nat} {i : Nat}

theorem Loosened.append_left (l : List Char) (h : Loosened s t) : Loosened (l ++ s) (l ++ t) := by
  induction l with
  | nil => exact h
  | cons c l ih => exact .keep c ih

/-- Blanks may stand in front of a text that is empty or starts with a line feed. -/
theorem Loosened.widen (h : Loosened s t) (hs : s.head? = none ∨ s.head? = some '\n')
    (hw : AllBlank w) : Loosened s (w ++ t) := by
  cases h with
  | ends hv => exact .ends (hw.append hv)
  | keep c h =>
      obtain rfl : c = '\n' := by simpa using hs
      exact .gap hw h
  | gap hv h =>
      rw [← List.append_assoc]
      exact .gap (hw.append hv) h

theorem Loosened.sublist (h : Loosened s t) : s.Sublist t := by
  induction h with
  | ends _ => exact List.nil_sublist _
  | keep c _ ih => exact ih.cons_cons c
  | gap _ _ ih => exact (ih.cons_cons '\n').trans (List.sublist_append_right _ _)

/-- The places behind a first character that is led to place `k`. -/
theorem Places.cons {c : Char} {k : Nat} (h : Places s t f) (hlength : u.length = k)
    (hk : c ≠ '\n' → k = 0) :
    Places (c :: s) (u ++ c :: t) fun i => Nat.casesOn i k fun i => f i + k + 1 := by
  subst hlength
  -- The first character goes to place `k`, and all others move by the blanks in front of it.
  refine ⟨strictMono_nat_of_lt_succ ?_, ?_, ?_, ?_⟩
  · intro i
    cases i with
    | zero =>
        change u.length < f 0 + u.length + 1
        omega
    | succ i =>
        have hlt : f i < f (i + 1) := h.mono (Nat.lt_succ_self i)
        change f i + u.length + 1 < f (i + 1) + u.length + 1
        omega
  · intro i hi
    cases i with
    | zero => simp
    | succ i =>
        have hplace : f i + u.length + 1 = u.length + (f i + 1) := by omega
        change (u ++ c :: t)[f i + u.length + 1]? = s[i]?
        rw [hplace, List.getElem?_append_right (Nat.le_add_right _ _), Nat.add_sub_cancel_left]
        exact h.same i (Nat.lt_of_succ_lt_succ hi)
  · intro hc
    exact hk (by simpa using hc)
  · intro i hnext
    cases i with
    | zero =>
        have := h.first hnext
        change f 0 + u.length + 1 = u.length + 1
        omega
    | succ i =>
        have := h.next i hnext
        change f (i + 1) + u.length + 1 = f i + u.length + 1 + 1
        omega

theorem Loosened.exists_places (h : Loosened s t) : ∃ f, Places s t f := by
  induction h with
  | ends _ => exact ⟨id, strictMono_id, fun i hi => absurd hi (Nat.not_lt_zero i),
      fun _ => rfl, fun _ _ => rfl⟩
  | keep c _ ih =>
      obtain ⟨f, hf⟩ := ih
      exact ⟨_, hf.cons (u := []) rfl fun _ => rfl⟩
  | gap _ _ ih =>
      obtain ⟨f, hf⟩ := ih
      exact ⟨_, hf.cons rfl fun hc => absurd rfl hc⟩

namespace Places

/-- The characters of an unbroken block stay neighbours. -/
theorem add (h : Places s t f) (hblock : Unbroken block) (hstands : block <+: s.drop i) {k : Nat}
    (hk : k < block.length) : f (i + k) = f i + k := by
  induction k with
  | zero => rfl
  | succ k ih =>
      have hplace : s[i + k + 1]? = some block[k + 1] := by
        have := List.prefix_iff_getElem?.mp hstands (k + 1) hk
        rwa [List.getElem?_drop, ← Nat.add_assoc] at this
      have hnext : s[i + k + 1]? ≠ some '\n' := by
        intro hfeed
        rw [hplace, Option.some.injEq] at hfeed
        apply hblock
        rw [← hfeed, List.mem_iff_getElem?]
        exact ⟨k, by rw [List.getElem?_tail, List.getElem?_eq_getElem hk]⟩
      rw [← Nat.add_assoc, h.next _ hnext, ih (by omega), Nat.add_assoc]

/-- An unbroken block stands where the place of its first character leads. -/
theorem prefix_drop (h : Places s t f) (hblock : Unbroken block) (hstands : block <+: s.drop i) :
    block <+: t.drop (f i) := by
  rw [List.prefix_iff_getElem?]
  intro k hk
  have hs := List.prefix_iff_getElem?.mp hstands k hk
  rw [List.getElem?_drop] at hs ⊢
  obtain ⟨hlt, -⟩ := List.getElem?_eq_some_iff.mp hs
  rw [← h.add hblock hstands hk, h.same _ hlt, hs]

end Places

end Loosening

end Text

namespace Comment

/-- Both markers hold no line feed behind their first character. -/
def IsUnbroken (c : Comment) : Prop :=
  Unbroken c.opening ∧ Unbroken c.closing

instance (c : Comment) : Decidable c.IsUnbroken :=
  inferInstanceAs (Decidable (_ ∧ _))

/-- A comment of a trimmed text was there before. -/
theorem exists_hasSpan_of_places {c : Comment} {s t : List Char} {f : Nat → Nat} {i e : Nat}
    (hc : c.IsUnbroken) (h : Places s t f) (hspan : c.HasSpan s i e) :
    ∃ e', c.HasSpan t (f i) e' := by
  obtain ⟨hopens, ⟨j, ⟨hstands, hstart, hbehind⟩, -⟩, -⟩ := hspan
  have hopening : 0 < c.opening.length := List.length_pos_iff.mpr c.opening_ne
  have hclosing : 0 < c.closing.length := List.length_pos_iff.mpr c.closing_ne
  -- The last characters of the two markers keep their order.
  have hlast : f (i + (c.opening.length - 1)) < f (j + (c.closing.length - 1)) :=
    h.mono (by omega)
  rw [h.add hc.1 hopens (by omega), h.add hc.2 hstands (by omega)] at hlast
  refine exists_hasSpan_iff.mpr ⟨h.prefix_drop hc.1 hopens, f j, ?_⟩
  exact ⟨h.prefix_drop hc.2 hstands, h.mono hstart, by omega⟩

end Comment

end Galley
