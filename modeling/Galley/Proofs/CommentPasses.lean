import Galley.Proofs.CommentExpressions
import Mathlib.Logic.Function.Iterate

/-!
How many passes remove all comments.

An expression whose matches cannot be empty (`Expression.CannotBeEmpty`) takes something off
the text with every match (`Expression.length_lt_of_mem_rests`), so a pass over a text that it
matches makes the text shorter. The expression of delimiters is such an expression, whichever
closing markers start inside their opening markers (`Delimiter.cannotBeEmpty_expression`). The
passes therefore come to an end after at most as many of them as there are characters to delete
(`Expression.Finds.exists_passes`), and where they end nothing is left to match
(`stripping_ends`).
-/

namespace Galley

open Text

namespace Expression

def CannotBeEmpty : Expression → Prop
  | never => True
  | block text => text ≠ []
  | anything => False
  | both first second => first.CannotBeEmpty ∨ second.CannotBeEmpty
  | either first second => first.CannotBeEmpty ∧ second.CannotBeEmpty

/-! ### What a match takes off -/

section Lengths

variable {e : Expression} {s rest : List Char}

theorem length_le_of_mem_rests (h : rest ∈ e.rests s) : rest.length ≤ s.length := by
  induction e generalizing s rest with
  | never => cases h
  | block text =>
      have hs := Comment.length_of_dropPrefix? (Option.mem_toList.mp h)
      omega
  | anything => exact ((List.mem_tails _ _).mp h).length_le
  | both first second hfirst hsecond =>
      obtain ⟨inner, hinner, hrest⟩ := List.mem_flatMap.mp h
      exact (hsecond hrest).trans (hfirst hinner)
  | either first second hfirst hsecond =>
      rcases List.mem_append.mp h with h | h
      · exact hfirst h
      · exact hsecond h

/-- What is left behind a match that cannot be empty is shorter. -/
theorem length_lt_of_mem_rests (he : e.CannotBeEmpty) (h : rest ∈ e.rests s) :
    rest.length < s.length := by
  induction e generalizing s rest with
  | never => cases h
  | block text =>
      have hs := Comment.length_of_dropPrefix? (Option.mem_toList.mp h)
      have htext := List.length_pos_iff.mpr he
      omega
  | anything => exact he.elim
  | both first second hfirst hsecond =>
      obtain ⟨inner, hinner, hrest⟩ := List.mem_flatMap.mp h
      rcases he with he | he
      · exact (length_le_of_mem_rests hrest).trans_lt (hfirst he hinner)
      · exact (hsecond he hrest).trans_le (length_le_of_mem_rests hinner)
  | either first second hfirst hsecond =>
      rcases List.mem_append.mp h with h | h
      · exact hfirst he.1 h
      · exact hsecond he.2 h

theorem cannotBeEmpty_oneOf {alternatives : List Expression} :
    (oneOf alternatives).CannotBeEmpty ↔ ∀ e ∈ alternatives, e.CannotBeEmpty := by
  induction alternatives with
  | nil => exact iff_of_true trivial (by simp)
  | cons e alternatives ih =>
      rw [List.forall_mem_cons, ← ih]
      rfl

end Lengths

end Expression

/-- All alternatives for a comment begin with its opening marker. -/
theorem Delimiter.cannotBeEmpty_expression {d : Delimiter} (h : d.Marked) :
    d.expression.CannotBeEmpty := by
  have hopening : d.opening.toList ≠ [] := mt String.toList_eq_nil_iff.mp h.1
  rw [Delimiter.expression, Expression.cannotBeEmpty_oneOf]
  intro e he
  rcases List.mem_append.mp he with he | he
  · obtain ⟨cut, -, rfl⟩ := List.mem_map.mp he
    exact List.append_ne_nil_of_left_ne_nil hopening _
  · obtain rfl := List.mem_singleton.mp he
    exact .inl (.inl hopening)

theorem Expression.cannotBeEmpty_ofDelimiters {ds : List Delimiter} (h : ∀ d ∈ ds, d.Marked) :
    (ofDelimiters ds).CannotBeEmpty := by
  rw [ofDelimiters, cannotBeEmpty_oneOf]
  intro e he
  obtain ⟨d, hd, rfl⟩ := List.mem_map.mp he
  exact Delimiter.cannotBeEmpty_expression (h d hd)

/-! ### Passes -/

namespace Expression.Finds

variable {e : Expression} {comments : List Comment} {s : List Char}

/-- A pass over a text that the expression matches makes it shorter. -/
theorem length_deleteOnce_lt (h : e.Finds comments) (hs : e.Matches s) :
    (e.deleteOnce s).length < s.length := by
  rw [h.matches_iff, ← Comment.removeOnce_eq_self_iff] at hs
  rw [h.deleteOnce_eq]
  exact Comment.length_removeOnce_lt hs

/-- The text without comments is reached by passes over texts that the expression matches. Each
pass takes one character off at least. -/
theorem exists_passes (h : e.Finds comments) (s : List Char) :
    ∃ k, k + (Comment.removeAll comments s).length ≤ s.length ∧
      e.deleteOnce^[k] s = Comment.removeAll comments s ∧
      ∀ j < k, e.Matches (e.deleteOnce^[j] s) := by
  refine Comment.removeAll_induction (motive := fun s t => ∃ k, k + t.length ≤ s.length ∧
    e.deleteOnce^[k] s = t ∧ ∀ j < k, e.Matches (e.deleteOnce^[j] s)) ?_ ?_ s
  · intro s _
    exact ⟨0, by simp, rfl, by simp⟩
  · rintro s t hs ⟨k, hlength, hpasses, hmatches⟩
    rw [← h.deleteOnce_eq] at hlength hpasses hmatches
    have hfirst : e.Matches s := by rwa [h.matches_iff, ← Comment.removeOnce_eq_self_iff]
    have hlt := h.length_deleteOnce_lt hfirst
    refine ⟨k + 1, by omega, hpasses, ?_⟩
    intro j hj
    cases j with
    | zero => exact hfirst
    | succ j => exact hmatches j (by omega)

end Expression.Finds

/-- How stripping a text of comments ends, for all delimiters that a normalizer is made of. No
alternative of their expression matches nothing, so each pass over a text with a match makes it
shorter. A number of passes, no more than there are characters to delete, lead from the text to
one that nothing matches any more. This is what the normalizer strips the text to: a part of it
in order, the text itself if nothing matches, and a text that is left as it is from then on. -/
theorem stripping_ends {ds : List Delimiter} {n : Normalizer}
    (hn : Normalizer.ofDelimiters ds = .ok n) (s : List Char) :
    let e := Expression.ofDelimiters ds
    (∀ t, ∀ rest ∈ e.rests t, rest.length < t.length) ∧
      (∀ t, e.Matches t → (e.deleteOnce t).length < t.length) ∧
      (∃ k, k + (n.strip s).length ≤ s.length ∧ e.deleteOnce^[k] s = n.strip s ∧
        ∀ j < k, e.Matches (e.deleteOnce^[j] s)) ∧
      ¬ e.Matches (n.strip s) ∧ (n.strip s).Sublist s ∧
      (¬ e.Matches s → n.strip s = s) ∧ n.strip (n.strip s) = n.strip s := by
  intro e
  obtain rfl := Normalizer.ofDelimiters_eq_ok_iff.mp hn
  have hfinds : e.Finds n.comments := Expression.finds_ofDelimiters n.comments
  have hclean : Comment.NoSpan n.comments (n.strip s) := Comment.noSpan_removeAll _ _
  have hempty : e.CannotBeEmpty :=
    Expression.cannotBeEmpty_ofDelimiters (Normalizer.ofDelimiters_succeeds_iff.mp ⟨n, hn⟩)
  refine ⟨fun t rest hrest => Expression.length_lt_of_mem_rests hempty hrest,
    fun t => hfinds.length_deleteOnce_lt, hfinds.exists_passes s, ?_,
    Comment.removeAll_sublist _ _, ?_, Comment.removeAll_of_noSpan hclean⟩
  · exact fun hmatches => hfinds.matches_iff.mp hmatches hclean
  · intro hmatches
    rw [hfinds.matches_iff, not_not] at hmatches
    exact Comment.removeAll_of_noSpan hmatches

/-- Deleting the inner comment joins the outer one, which the second pass deletes. -/
theorem stripping_ends_nested_comment :
    let ds : List Delimiter := [.docBlock]
    let s := "/*/** inner */* outer */code".toList
    ∃ n, Normalizer.ofDelimiters ds = .ok n ∧ n.strip s = "code".toList ∧
      (Expression.ofDelimiters ds).deleteOnce s = "/** outer */code".toList ∧
      ¬ (Expression.ofDelimiters ds).Matches (n.strip s) := by
  intro ds s
  have hn : Normalizer.ofDelimiters ds = .ok { comments := [.docBlock] } := rfl
  refine ⟨_, hn, ?_, ?_, (stripping_ends hn s).2.2.2.1⟩
  · decide +kernel
  · decide +kernel

end Galley
