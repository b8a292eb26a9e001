import Galley.Proofs.CommentExpressions
import Galley.Proofs.NormalForms
import Mathlib.Data.List.Chain

/-!
Normalizing twice.

An outcome of normalizing that is normalized again stays as it is unless trimming has joined
what was apart to a comment. The markers of such a comment fit into a normal form
(`Text.Fits`), which holds no blank in front of a line feed, and one of them goes on behind a
line feed that is not its first character (`Comment.Rejoins`). Without such markers a second run
changes no outcome, and with just one kind of comment of this sort it changes some: the markers
with a blank in front of each line feed are joined to a comment by trimming
(`normalize_again_iff`).
-/

namespace Galley

open Text Comment

/-! ### Texts without blanks at the ends of their lines -/

namespace Text

/-- In front of a line feed stands no blank. -/
def Tight (s : List Char) : Prop :=
  s.IsChain fun c d => d = '\n' → isBlank c = false

/-- The block may stand in a normal form. -/
def Fits (block : List Char) : Prop :=
  '\r' ∉ block ∧ Tight block

instance (s : List Char) : Decidable (Tight s) := by
  unfold Tight; infer_instance

instance (block : List Char) : Decidable (Fits block) :=
  inferInstanceAs (Decidable (_ ∧ _))

section Tight

variable {l s block : List Char} {ls : List (List Char)}

theorem tight_cons_iff {c : Char} :
    Tight (c :: s) ↔ (s.head? = some '\n' → isBlank c = false) ∧ Tight s := by
  rw [Tight, List.isChain_cons]
  apply and_congr_left'
  constructor
  · intro h hhead
    exact h _ hhead rfl
  · rintro h d hd rfl
    exact h hd

theorem isInfix_of_prefix_drop {i : Nat} (h : block <+: s.drop i) : block <:+: s :=
  h.isInfix.trans (List.drop_suffix i s).isInfix

theorem Tight.part (h : Tight s) (hblock : block <:+: s) : Tight block :=
  List.IsChain.infix h hblock

/-- A text on one line is tight. -/
theorem tight_of_notMem (h : '\n' ∉ s) : Tight s := by
  induction s with
  | nil => exact .nil
  | cons c s ih =>
      obtain ⟨-, hs⟩ := not_or.mp (mt List.mem_cons.mpr h)
      exact tight_cons_iff.mpr ⟨fun hhead => absurd (List.mem_of_mem_head? hhead) hs, ih hs⟩

/-- The end of a trimmed text is no blank. -/
theorem isBlank_of_mem_getLast? {c : Char} (h : trimEnd l = l) (hc : c ∈ l.getLast?) :
    isBlank c = false := by
  obtain ⟨hne, rfl⟩ := List.mem_getLast?_eq_getLast hc
  exact trimEnd_eq_self_iff.mp h hne

/-- Joined lines are tight when each of them is trimmed and not empty. -/
theorem tight_joinLines (h : ∀ l ∈ ls, l ≠ [] ∧ '\n' ∉ l ∧ trimEnd l = l) :
    Tight (joinLines ls) := by
  induction ls with
  | nil => exact .nil
  | cons l ls ih =>
      obtain ⟨⟨-, hfeed, htrimmed⟩, hls⟩ := List.forall_mem_cons.mp h
      cases ls with
      | nil => exact tight_of_notMem hfeed
      | cons m ms =>
          obtain ⟨⟨hm, hmfeed, -⟩, -⟩ := List.forall_mem_cons.mp hls
          rw [joinLines_cons l (List.cons_ne_nil m ms), Tight, List.isChain_append]
          refine ⟨tight_of_notMem hfeed, tight_cons_iff.mpr ⟨?_, ih hls⟩, ?_⟩
          · rw [head?_joinLines hm]
            exact fun hhead => absurd (List.mem_of_mem_head? hhead) hmfeed
          · intro c hc _ _ _
            exact isBlank_of_mem_getLast? htrimmed hc

theorem trimEnd_cons {c : Char} (hl : trimEnd l = l) (hc : l = [] → isBlank c = false) :
    trimEnd (c :: l) = c :: l := by
  rw [trimEnd] at hl ⊢
  rw [dropTailWhile, hl]
  cases l with
  | nil => simp [hc rfl]
  | cons d l => rfl

/-- The pieces of a tight text that ends in no blank: they are trimmed, and only the first one
may be empty. -/
theorem splitLines_of_tight (hs : Tight s) (hne : s ≠ [])
    (hlast : ∀ c ∈ s.getLast?, isBlank c = false) :
    ∃ l ls, splitLines s = l :: ls ∧ trimEnd l = l ∧ (l = [] → s.head? = some '\n') ∧
      ∀ m ∈ ls, m ≠ [] ∧ trimEnd m = m := by
  induction s with
  | nil => exact absurd rfl hne
  | cons c s ih =>
      obtain ⟨hhead, hs⟩ := tight_cons_iff.mp hs
      by_cases hempty : s = []
      · subst hempty
        have hc : isBlank c = false := hlast c rfl
        have hfeed : c ≠ '\n' := by
          rintro rfl
          cases hc
        exact ⟨[c], [], by simp [splitLines, hfeed], trimEnd_cons rfl fun _ => hc, by simp, by simp⟩
      · obtain ⟨l, ls, hsplit, hl, hfirst, hls⟩ :=
          ih hs hempty (by rwa [List.getLast?_cons_of_ne_nil hempty] at hlast)
        rw [splitLines, hsplit]
        by_cases hc : c = '\n'
        · subst hc
          -- No line feed follows a line feed, which is a blank.
          have hne : l ≠ [] := fun hl => absurd (hhead (hfirst hl)) (by decide)
          exact ⟨[], l :: ls, by simp, rfl, fun _ => rfl, List.forall_mem_cons.mpr ⟨⟨hne, hl⟩, hls⟩⟩
        · exact ⟨c :: l, ls, by simp [hc], trimEnd_cons hl fun hl => hhead (hfirst hl), by simp,
            hls⟩

end Tight

/-! ### Blanks in front of line feeds -/

/-- The text with a blank in front of each line feed. -/
def padFeeds : List Char → List Char
  | [] => []
  | c :: cs => if c = '\n' then ' ' :: '\n' :: padFeeds cs else c :: padFeeds cs

section Padding

variable {s block : List Char}

theorem respaced_padFeeds (s : List Char) : Respaced s (padFeeds s) := by
  induction s with
  | nil => exact .ends .nil .nil
  | cons c s ih =>
      rw [padFeeds]
      split
      · rename_i hc
        subst hc
        have hgap : Respaced ([] ++ '\n' :: s) ([' '] ++ '\n' :: padFeeds s) :=
          .gap .nil (by decide) ih
        exact hgap
      · exact .keep c ih

theorem return_notMem_padFeeds (h : '\r' ∉ s) : '\r' ∉ padFeeds s := by
  induction s with
  | nil => simp [padFeeds]
  | cons c s ih =>
      obtain ⟨hc, hs⟩ := not_or.mp (mt List.mem_cons.mpr h)
      rw [padFeeds]
      split
      · simpa using ih hs
      · simpa [hc] using ih hs

/-- Behind the first character, each line feed of the text has a blank in front. -/
theorem isChain_padFeeds (s : List Char) :
    (padFeeds s).IsChain fun c d => d = '\n' → isBlank c = true := by
  have hhead (s : List Char) : (padFeeds s).head? ≠ some '\n' := by
    cases s with
    | nil => simp [padFeeds]
    | cons c s =>
        rw [padFeeds]
        split
        · simp
        · simpa
  have hnext {d : Char} {s : List Char} (hd : d ∈ (padFeeds s).head?) : d ≠ '\n' := by
    rintro rfl
    exact hhead s hd
  induction s with
  | nil => exact .nil
  | cons c s ih =>
      rw [padFeeds]
      split
      · rw [List.isChain_cons, List.isChain_cons]
        exact ⟨fun _ _ _ => rfl, fun d hd hfeed => absurd hfeed (hnext hd), ih⟩
      · rw [List.isChain_cons]
        exact ⟨fun d hd hfeed => absurd hfeed (hnext hd), ih⟩

/-- A tight block of such a text holds no line feed behind its first character. -/
theorem unbroken_of_infix_padFeeds (hblock : block <:+: padFeeds s) (htight : Tight block) :
    Unbroken block := by
  have hpadded := List.IsChain.infix (isChain_padFeeds s) hblock
  cases block with
  | nil => simp [Unbroken]
  | cons c block =>
      change '\n' ∉ block
      clear hblock
      induction block generalizing c with
      | nil => simp
      | cons d block ih =>
          obtain ⟨hpad, hpadded⟩ := List.isChain_cons.mp hpadded
          obtain ⟨hhead, hrest⟩ := tight_cons_iff.mp htight
          have hd : d ≠ '\n' := by
            rintro rfl
            exact Bool.false_ne_true ((hhead rfl).symm.trans (hpad _ rfl rfl))
          exact not_or.mpr ⟨hd.symm, ih d hrest hpadded⟩ ∘ List.mem_cons.mp

end Padding

end Text

namespace Comment

/-- Trimming may join a comment: its markers fit into a normal form, and one of them goes on
behind a line feed that is not its first character. -/
def Rejoins (c : Comment) : Prop :=
  Fits c.opening ∧ Fits c.closing ∧ ¬ c.IsUnbroken

instance (c : Comment) : Decidable c.Rejoins :=
  inferInstanceAs (Decidable (_ ∧ _ ∧ ¬ _))

/-- A text with a comment, whose markers stand apart from each other and from the ends. -/
def sample (c : Comment) : List Char :=
  'x' :: (c.opening ++ 'x' :: (c.closing ++ ['x']))

section Sample

variable {c : Comment}

theorem hasSpan_sample (c : Comment) : ∃ e, c.HasSpan c.sample 1 e := by
  refine exists_hasSpan_iff.mpr ⟨List.prefix_append _ _, 1 + (c.opening.length + 1), ?_, ?_, ?_⟩
  · have hdrop : c.sample.drop (1 + (c.opening.length + 1)) = c.closing ++ ['x'] := by
      rw [sample, Nat.add_comm, List.drop_succ_cons, List.drop_length_add_append]
      rfl
    rw [hdrop]
    exact List.prefix_append _ _
  · omega
  · omega

theorem tight_sample (hopening : Tight c.opening) (hclosing : Tight c.closing) :
    Tight c.sample := by
  have hx : isBlank 'x' = false := rfl
  have hend : Tight ['x'] := tight_of_notMem (by decide)
  have hback : Tight ('x' :: (c.closing ++ ['x'])) := by
    refine tight_cons_iff.mpr ⟨fun _ => hx, ?_⟩
    rw [Tight, List.isChain_append]
    refine ⟨hclosing, hend, ?_⟩
    rintro d - _ ⟨⟩ ⟨⟩
  refine tight_cons_iff.mpr ⟨fun _ => hx, ?_⟩
  rw [Tight, List.isChain_append]
  refine ⟨hopening, hback, ?_⟩
  rintro d - _ ⟨⟩ ⟨⟩

end Sample

end Comment

namespace Normalizer

section Outcomes

variable {n : Normalizer} {c : Comment} {s block : List Char} {i : Nat}

/-- What stands in an outcome fits into a normal form. -/
theorem fits_of_prefix_drop_normalize (h : block <+: (n.normalize s).drop i) : Fits block := by
  have hblock : block <:+: n.normalize s := isInfix_of_prefix_drop h
  refine ⟨fun hreturn => n.return_notMem_normalize s (hblock.subset hreturn), ?_⟩
  exact (tight_joinLines fun l hl => mem_contentLines hl).part hblock

/-- Comments that no trimming joins are in no outcome. -/
theorem noSpan_normalize (h : ∀ c ∈ n.comments, ¬ c.Rejoins) (s : List Char) :
    NoSpan n.comments (n.normalize s) := by
  intro c hc i e hspan
  obtain ⟨j, hcloses, -⟩ := hspan.closes
  have hunbroken : c.IsUnbroken := by
    by_contra hbroken
    exact h c hc ⟨fits_of_prefix_drop_normalize hspan.opens,
      fits_of_prefix_drop_normalize hcloses.stands, hbroken⟩
  exact not_hasSpan_normalize hc hunbroken i e hspan

/-- A tight text without line feeds at its ends is made of its lines of content. -/
theorem joinLines_contentLines (hs : Tight s) (hfirst : s.head? ≠ some '\n')
    (hlast : ∀ c ∈ s.getLast?, isBlank c = false) : joinLines (contentLines s) = s := by
  by_cases hne : s = []
  · rw [hne]
    rfl
  · obtain ⟨l, ls, hsplit, hl, hempty, hls⟩ := splitLines_of_tight hs hne hlast
    have hpieces : ∀ m ∈ splitLines s, m ≠ [] ∧ trimEnd m = m := by
      rw [hsplit]
      exact List.forall_mem_cons.mpr ⟨⟨fun h => hfirst (hempty h), hl⟩, hls⟩
    have hcontent : contentLines (joinLines (splitLines s)) = splitLines s :=
      contentLines_joinLines fun m hm =>
        ⟨(hpieces m hm).1, newline_notMem_of_mem_splitLines hm, (hpieces m hm).2⟩
    rw [joinLines_splitLines] at hcontent
    rw [hcontent, joinLines_splitLines]

/-- The sample of a comment is what its padded text is normalized to, when trimming joins it. -/
theorem normalize_padFeeds_sample (hn : n.comments = [c]) (hc : c.Rejoins) :
    n.normalize (padFeeds c.sample) = c.sample := by
  obtain ⟨hopening, hclosing, hbroken⟩ := hc
  have hreturn : '\r' ∉ padFeeds c.sample := by
    apply return_notMem_padFeeds
    simp [sample, hopening.1, hclosing.1]
  have hnone : NoSpan n.comments (padFeeds c.sample) := by
    rw [hn]
    intro d hd i e hspan
    obtain rfl := List.mem_singleton.mp hd
    obtain ⟨j, hcloses, -⟩ := hspan.closes
    exact hbroken ⟨unbroken_of_infix_padFeeds (isInfix_of_prefix_drop hspan.opens) hopening.2,
      unbroken_of_infix_padFeeds (isInfix_of_prefix_drop hcloses.stands) hclosing.2⟩
  have hlines : contentLines c.sample = contentLines (padFeeds c.sample) :=
    contentLines_eq_of_respaced (respaced_padFeeds c.sample) []
  have hlast : c.sample.getLast? = some 'x' := by
    have hsample : c.sample = ('x' :: c.opening ++ 'x' :: c.closing) ++ ['x'] := by simp [sample]
    rw [hsample, List.getLast?_concat]
  rw [normalize, Normalizer.lines, unifyBreaks_eq_self hreturn, strip, removeAll_of_noSpan hnone,
    ← hlines]
  apply joinLines_contentLines (tight_sample hopening.2 hclosing.2) (by simp [sample])
  intro d hd
  rw [hlast] at hd
  cases hd
  rfl

end Outcomes

/-- When normalizing again changes nothing. An outcome is left as it is exactly when it holds no
comment. That holds of every outcome unless there is a kind of comment that trimming may join, and
if such a kind is the only one, it does not hold of every outcome. -/
theorem normalize_again_iff (n : Normalizer) :
    (∀ s, n.normalize (n.normalize s) = n.normalize s ↔ NoSpan n.comments (n.normalize s)) ∧
    ((∀ c ∈ n.comments, ¬ c.Rejoins) → ∀ s, n.normalize (n.normalize s) = n.normalize s) ∧
    ∀ c, n.comments = [c] →
      ((∀ s, n.normalize (n.normalize s) = n.normalize s) ↔ ¬ c.Rejoins) := by
  have hagain (s : List Char) :
      n.normalize (n.normalize s) = n.normalize s ↔ NoSpan n.comments (n.normalize s) := by
    rw [normalize_eq_self_iff, isNormalForm_normalize_iff]
  have hkept (h : ∀ c ∈ n.comments, ¬ c.Rejoins) (s : List Char) :
      n.normalize (n.normalize s) = n.normalize s :=
    (hagain s).mpr (noSpan_normalize h s)
  refine ⟨hagain, hkept, ?_⟩
  intro c hn
  constructor
  · intro hall hc
    have hnone := (hagain (padFeeds c.sample)).mp (hall _)
    rw [normalize_padFeeds_sample hn hc, hn] at hnone
    obtain ⟨e, hspan⟩ := hasSpan_sample c
    exact hnone c (List.mem_singleton_self c) 1 e hspan
  · intro hc
    apply hkept
    rw [hn]
    simpa using hc

/-- Comments that go to the end of their line. -/
theorem normalize_again_iff_line_end :
    let c : Comment := ⟨"//!".toList, ['\n'], by decide, by decide⟩
    let n : Normalizer := { comments := [c] }
    let s := "a //! b \r\n \n//! c".toList
    ¬ c.Rejoins ∧ (∀ t, n.normalize (n.normalize t) = n.normalize t) ∧
      n.normalize s = "a\n//! c".toList ∧ NoSpan n.comments (n.normalize s) := by
  intro c n s
  have hc : ¬ c.Rejoins := by decide
  have hall := ((normalize_again_iff n).2.2 c rfl).mpr hc
  have hagain := (normalize_again_iff n).2.1 (List.forall_mem_singleton.mpr hc) s
  exact ⟨hc, hall, by decide +kernel, ((normalize_again_iff n).1 s).mp hagain⟩

/-- With an opening marker that ends in a line feed, trimming joins a comment, and normalizing
again deletes it. -/
theorem joined_comment_deleted :
    let d : Delimiter := ⟨"/*\n", "*/"⟩
    let s := "/* \nnote */ code".toList
    ∃ n, ofDelimiters [d] = .ok n ∧ n.normalize s = "/*\nnote */ code".toList ∧
      n.normalize (n.normalize s) = " code".toList ∧
      n.normalize (n.normalize s) ≠ n.normalize s := by
  intro d s
  let c : Comment := ⟨"/*\n".toList, "*/".toList, by decide, by decide⟩
  refine ⟨{ comments := [c] }, ofDelimiters_eq_ok_iff.mpr rfl, ?_, ?_, ?_⟩
  · decide +kernel
  · decide +kernel
  · decide +kernel

end Normalizer

end Galley
