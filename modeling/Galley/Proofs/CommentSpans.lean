import Galley.Proofs.CommentRemoval
import Mathlib.Data.Nat.Find

/-!
The comments of a text by their places.

`Comment.HasSpan c s i e` says that a comment goes from place `i` of a text to place `e`: the
opening marker stands at `i`, and `e` is the first end of a closing marker that starts behind
`i` and ends behind the opening marker. Such a closing marker starts inside the opening one
(`closesAt_inside_iff`) or behind it (`closesAt_behind_iff`); the former are what
`Comment.sharedRests` lists, the longest overlap first, so that `after?` stops at the first end
of all (`after?_eq_some_iff`). One pass of removal therefore deletes the spans from left to
right, the first kind of comment before the others (`scan_iff`).
-/

namespace Galley.Comment

open Text

/-! ### Spans -/

/-- The closing marker stands at place `j`. It starts behind place `i` and ends behind the
opening marker there. -/
structure ClosesAt (c : Comment) (s : List Char) (i j : Nat) : Prop where
  stands : c.closing <+: s.drop j
  startsBehind : i < j
  endsBehind : i + c.opening.length < j + c.closing.length

/-- A comment goes from place `i` to place `e`, the first end of a closing marker. -/
structure HasSpan (c : Comment) (s : List Char) (i e : Nat) : Prop where
  opens : c.opening <+: s.drop i
  closes : ∃ j, c.ClosesAt s i j ∧ e = j + c.closing.length
  first : ∀ j, c.ClosesAt s i j → e ≤ j + c.closing.length

section Places

variable {c : Comment} {s : List Char} {i j e e' : Nat}

theorem HasSpan.unique (h : c.HasSpan s i e) (h' : c.HasSpan s i e') : e = e' := by
  obtain ⟨j, hj, hend⟩ := h.closes
  obtain ⟨j', hj', hend'⟩ := h'.closes
  have hle := h.first j' hj'
  have hle' := h'.first j hj
  omega

/-- A span ends behind its start. -/
theorem HasSpan.lt (h : c.HasSpan s i e) : i < e := by
  obtain ⟨j, hj, rfl⟩ := h.closes
  have := hj.startsBehind
  omega

/-- Where the opening marker stands, any closing marker behind it makes a span. -/
theorem exists_hasSpan_iff :
    (∃ e, c.HasSpan s i e) ↔ c.opening <+: s.drop i ∧ ∃ j, c.ClosesAt s i j := by
  constructor
  · rintro ⟨e, h⟩
    obtain ⟨j, hj, -⟩ := h.closes
    exact ⟨h.opens, j, hj⟩
  · classical
    rintro ⟨hopens, hcloses⟩
    refine ⟨Nat.find hcloses + c.closing.length, hopens, ⟨_, Nat.find_spec hcloses, rfl⟩, ?_⟩
    intro j hj
    have := Nat.find_min' hcloses hj
    omega

theorem closesAt_drop_iff : c.ClosesAt (s.drop i) 0 j ↔ c.ClosesAt s i (i + j) := by
  have hpos : i < i + j ↔ 0 < j := by omega
  have hend : i + c.opening.length < i + j + c.closing.length ↔
      0 + c.opening.length < j + c.closing.length := by omega
  constructor
  · rintro ⟨hstands, hstart, hbehind⟩
    exact ⟨by rwa [List.drop_drop] at hstands, hpos.mpr hstart, hend.mpr hbehind⟩
  · rintro ⟨hstands, hstart, hbehind⟩
    exact ⟨by rwa [List.drop_drop], hpos.mp hstart, hend.mp hbehind⟩

/-- A span is one at the front of the text from its place on. -/
theorem hasSpan_drop_iff : c.HasSpan (s.drop i) 0 e ↔ c.HasSpan s i (i + e) := by
  constructor
  · rintro ⟨hopens, ⟨j, hj, rfl⟩, hfirst⟩
    refine ⟨by rwa [List.drop_zero] at hopens, ⟨i + j, closesAt_drop_iff.mp hj, by omega⟩, ?_⟩
    intro k hk
    obtain ⟨k, rfl⟩ := Nat.exists_eq_add_of_le hk.startsBehind.le
    have := hfirst k (closesAt_drop_iff.mpr hk)
    omega
  · rintro ⟨hopens, ⟨j, hj, hend⟩, hfirst⟩
    obtain ⟨j, rfl⟩ := Nat.exists_eq_add_of_le hj.startsBehind.le
    refine ⟨by rwa [List.drop_zero], ⟨j, closesAt_drop_iff.mpr hj, by omega⟩, ?_⟩
    intro k hk
    have := hfirst (i + k) (closesAt_drop_iff.mp hk)
    omega

end Places

/-! ### Closing markers inside and behind the opening one -/

/-- The closing marker may start `k` characters before the opening one ends. -/
def Overlaps (c : Comment) (k : Nat) : Prop :=
  0 < k ∧ k < c.closing.length ∧ k < c.opening.length ∧ c.closing.take k <:+ c.opening

/-- The lengths of the overlaps, the longest first. -/
def overlaps (c : Comment) : List Nat :=
  (List.range (min c.closing.length c.opening.length)).reverse.filter fun k =>
    0 < k && (c.closing.take k).isSuffixOf c.opening

section Overlaps

variable {c : Comment} {k : Nat}

theorem sharedRests_eq (c : Comment) :
    c.sharedRests = c.overlaps.map fun k => c.closing.drop k := rfl

theorem mem_overlaps_iff : k ∈ c.overlaps ↔ c.Overlaps k := by
  simp only [overlaps, Overlaps, List.mem_filter, List.mem_reverse, List.mem_range, Nat.lt_min,
    Bool.and_eq_true, decide_eq_true_eq, List.isSuffixOf_iff_suffix]
  tauto

theorem pairwise_overlaps (c : Comment) : c.overlaps.Pairwise (· > ·) := by
  apply List.Pairwise.filter
  rw [List.pairwise_reverse]
  exact List.pairwise_lt_range

end Overlaps

section Inside

variable {c : Comment} {rest : List Char} {j k : Nat}

/-- A block stands `k` characters before a text ends and goes on behind it. -/
theorem prefix_drop_append_iff {block front : List Char} (hk : k ≤ front.length)
    (hblock : k ≤ block.length) :
    block <+: front.drop (front.length - k) ++ rest ↔
      block.take k <:+ front ∧ block.drop k <+: rest := by
  have hlength : (front.drop (front.length - k)).length = k := by
    rw [List.length_drop]
    omega
  have htake : (block.take k).length = k := by
    rw [List.length_take]
    omega
  constructor
  · rintro ⟨t, ht⟩
    rw [← List.take_append_drop k block, List.append_assoc] at ht
    obtain ⟨hfront, hrest⟩ := List.append_inj ht (by rw [htake, hlength])
    exact ⟨hfront ▸ List.drop_suffix _ _, ⟨t, hrest⟩⟩
  · rintro ⟨⟨u, hu⟩, ⟨t, ht⟩⟩
    refine ⟨t, ?_⟩
    have hfront : front.drop (front.length - k) = block.take k := by
      have hu' : front.length - k = u.length := by
        rw [← hu, List.length_append, htake]
        omega
      rw [hu', ← hu, List.drop_left]
    rw [hfront, ← ht, ← List.append_assoc, List.take_append_drop]

/-- A closing marker that starts inside the opening one. -/
theorem closesAt_inside_iff (hj : j < c.opening.length) :
    c.ClosesAt (c.opening ++ rest) 0 j ↔
      c.Overlaps (c.opening.length - j) ∧ c.closing.drop (c.opening.length - j) <+: rest := by
  have hplace : c.opening.length - (c.opening.length - j) = j := by omega
  have hsplit (hk : c.opening.length - j < c.closing.length) :
      c.closing <+: c.opening.drop j ++ rest ↔
        c.closing.take (c.opening.length - j) <:+ c.opening ∧
          c.closing.drop (c.opening.length - j) <+: rest := by
    rw [← prefix_drop_append_iff (Nat.sub_le c.opening.length j) hk.le, hplace]
  have hdrop : (c.opening ++ rest).drop j = c.opening.drop j ++ rest :=
    List.drop_append_of_le_length hj.le
  constructor
  · rintro ⟨hstands, hstart, hbehind⟩
    have hk : c.opening.length - j < c.closing.length := by omega
    rw [hdrop, hsplit hk] at hstands
    exact ⟨⟨by omega, hk, by omega, hstands.1⟩, hstands.2⟩
  · rintro ⟨⟨hpos, hk, hopening, hsuffix⟩, hrest⟩
    exact ⟨hdrop ▸ (hsplit hk).mpr ⟨hsuffix, hrest⟩, by omega, by omega⟩

/-- A closing marker that starts behind the opening one. -/
theorem closesAt_behind_iff :
    c.ClosesAt (c.opening ++ rest) 0 (c.opening.length + j) ↔ c.closing <+: rest.drop j := by
  have hopening : 0 < c.opening.length := List.length_pos_iff.mpr c.opening_ne
  have hclosing : 0 < c.closing.length := List.length_pos_iff.mpr c.closing_ne
  constructor
  · rintro ⟨hstands, -, -⟩
    rwa [List.drop_length_add_append] at hstands
  · intro h
    exact ⟨by rwa [List.drop_length_add_append], by omega, by omega⟩

end Inside

/-! ### Searching for the end -/

section Search

variable {c : Comment} {block s rest : List Char}

/-- What is behind the first occurrence of a block. -/
theorem afterFirst?_eq_some (h : afterFirst? block s = some rest) :
    ∃ j, block <+: s.drop j ∧ rest = s.drop (j + block.length) ∧
      ∀ i < j, ¬ block <+: s.drop i := by
  have hhere {u r : List Char} (hu : dropPrefix? block u = some r) :
      ∃ j, block <+: u.drop j ∧ r = u.drop (j + block.length) ∧ ∀ i < j, ¬ block <+: u.drop i := by
    obtain rfl := dropPrefix?_eq_some_iff.mp hu
    exact ⟨0, List.prefix_append _ _, by simp, by simp⟩
  induction s with
  | nil => exact hhere h
  | cons d s ih =>
      rw [afterFirst?] at h
      split at h
      · rename_i r hr
        cases h
        exact hhere hr
      · rename_i hnone
        obtain ⟨j, hj, hrest, hfirst⟩ := ih h
        refine ⟨j + 1, hj, ?_, ?_⟩
        · rw [hrest, Nat.add_right_comm]
          rfl
        · intro i hi
          cases i with
          | zero => exact dropPrefix?_eq_none_iff.mp hnone
          | succ i => exact hfirst i (by omega)

/-- A block that stands somewhere is found. -/
theorem afterFirst?_ne_none {j : Nat} (h : block <+: s.drop j) : afterFirst? block s ≠ none := by
  have hhere {u : List Char} (hu : block <+: u) : dropPrefix? block u ≠ none :=
    fun hnone => dropPrefix?_eq_none_iff.mp hnone hu
  induction s generalizing j with
  | nil =>
      rw [List.drop_nil] at h
      exact hhere h
  | cons d s ih =>
      rw [afterFirst?]
      cases hd : dropPrefix? block (d :: s) with
      | some r => simp
      | none =>
          cases j with
          | zero => exact absurd hd (hhere h)
          | succ j => exact ih h

/-- The rests of the closing marker are tried from the longest overlap on. -/
theorem findSome?_sharedRests_eq_some
    (h : (c.sharedRests.findSome? fun shared => dropPrefix? shared s) = some rest) :
    ∃ k, c.Overlaps k ∧ c.closing.drop k <+: s ∧ rest = s.drop (c.closing.length - k) ∧
      ∀ l, k < l → c.Overlaps l → ¬ c.closing.drop l <+: s := by
  rw [sharedRests_eq, List.findSome?_map, List.findSome?_eq_some_iff] at h
  obtain ⟨longer, k, shorter, hsplit, hk, hlonger⟩ := h
  have hs := dropPrefix?_eq_some_iff.mp hk
  have hsorted := pairwise_overlaps c
  rw [hsplit, List.pairwise_append, List.pairwise_cons] at hsorted
  refine ⟨k, mem_overlaps_iff.mp (hsplit ▸ by simp), ⟨rest, hs.symm⟩, ?_, ?_⟩
  · rw [← List.length_drop, hs, List.drop_left]
  · intro l hl hoverlap
    have hmem : l ∈ longer ++ k :: shorter := hsplit ▸ mem_overlaps_iff.mpr hoverlap
    rcases List.mem_append.mp hmem with hmem | hmem
    · exact dropPrefix?_eq_none_iff.mp (hlonger l hmem)
    · rcases List.mem_cons.mp hmem with rfl | hmem
      · exact absurd hl (lt_irrefl _)
      · have := hsorted.2.1.1 l hmem
        omega

theorem findSome?_sharedRests_eq_none_iff :
    (c.sharedRests.findSome? fun shared => dropPrefix? shared s) = none ↔
      ∀ k, c.Overlaps k → ¬ c.closing.drop k <+: s := by
  rw [sharedRests_eq, List.findSome?_map, List.findSome?_eq_none_iff]
  simp only [mem_overlaps_iff, Function.comp, dropPrefix?_eq_none_iff]

end Search

/-! ### The comment at the front -/

section Front

variable {c : Comment} {s rest : List Char} {i e : Nat}

/-- What is left behind the comment at the front of a text starts where its span ends. -/
theorem exists_hasSpan_of_after? (h : c.after? s = some rest) :
    ∃ e, c.HasSpan s 0 e ∧ rest = s.drop e := by
  rw [after?] at h
  split at h
  · cases h
  · rename_i inner hinner
    obtain rfl := dropPrefix?_eq_some_iff.mp hinner
    have hopens : c.opening <+: (c.opening ++ inner).drop 0 := List.prefix_append _ _
    split at h
    · -- The closing marker starts inside the opening one, as far to the left as it can.
      rename_i behind hbehind
      cases h
      obtain ⟨k, hk, hstands, hrest, hlonger⟩ := findSome?_sharedRests_eq_some hbehind
      have hpos : 0 < k := hk.1
      have hclosing : k < c.closing.length := hk.2.1
      have hopening : k < c.opening.length := hk.2.2.1
      have hplace : c.opening.length - (c.opening.length - k) = k := by omega
      refine ⟨c.opening.length + (c.closing.length - k), ⟨hopens, ⟨c.opening.length - k, ?_, ?_⟩,
        ?_⟩, ?_⟩
      · rw [closesAt_inside_iff (by omega), hplace]
        exact ⟨hk, hstands⟩
      · omega
      · intro j hj
        by_cases hinside : j < c.opening.length
        · obtain ⟨hoverlap, hfits⟩ := (closesAt_inside_iff hinside).mp hj
          have hle : ¬ k < c.opening.length - j := fun hlt => hlonger _ hlt hoverlap hfits
          omega
        · omega
      · rw [hrest, List.drop_length_add_append]
    · -- No closing marker starts inside the opening one, so the first one behind it counts.
      rename_i hnone
      obtain ⟨j, hstands, hrest, hfirst⟩ := afterFirst?_eq_some h
      refine ⟨c.opening.length + j + c.closing.length,
        ⟨hopens, ⟨_, closesAt_behind_iff.mpr hstands, rfl⟩, ?_⟩, ?_⟩
      · intro j' hj'
        by_cases hinside : j' < c.opening.length
        · obtain ⟨hoverlap, hfits⟩ := (closesAt_inside_iff hinside).mp hj'
          exact absurd hfits (findSome?_sharedRests_eq_none_iff.mp hnone _ hoverlap)
        · obtain ⟨k, rfl⟩ := Nat.exists_eq_add_of_le (not_lt.mp hinside)
          have hle : ¬ k < j := fun hlt => hfirst k hlt (closesAt_behind_iff.mp hj')
          omega
      · rw [hrest, Nat.add_assoc, List.drop_length_add_append]

theorem after?_ne_none (h : c.HasSpan s 0 e) : c.after? s ≠ none := by
  obtain ⟨hopens, ⟨j, hj, -⟩, -⟩ := h
  obtain ⟨inner, rfl⟩ : c.opening <+: s := hopens
  rw [after?, dropPrefix?_eq_some_iff.mpr rfl]
  dsimp only
  split
  · simp
  · rename_i hnone
    by_cases hinside : j < c.opening.length
    · obtain ⟨hoverlap, hfits⟩ := (closesAt_inside_iff hinside).mp hj
      exact absurd hfits (findSome?_sharedRests_eq_none_iff.mp hnone _ hoverlap)
    · obtain ⟨k, rfl⟩ := Nat.exists_eq_add_of_le (not_lt.mp hinside)
      exact afterFirst?_ne_none (closesAt_behind_iff.mp hj)

/-- The comment at the front of a text is its span there. -/
theorem after?_eq_some_iff :
    c.after? s = some rest ↔ ∃ e, c.HasSpan s 0 e ∧ rest = s.drop e := by
  constructor
  · exact exists_hasSpan_of_after?
  · rintro ⟨e, hspan, rfl⟩
    obtain ⟨rest, hrest⟩ := Option.ne_none_iff_exists'.mp (after?_ne_none hspan)
    obtain ⟨e', hspan', rfl⟩ := exists_hasSpan_of_after? hrest
    rw [hrest, hspan.unique hspan']

theorem after?_eq_none_iff : c.after? s = none ↔ ∀ e, ¬ c.HasSpan s 0 e := by
  constructor
  · intro h e hspan
    exact after?_ne_none hspan h
  · intro h
    rw [Option.eq_none_iff_forall_ne_some]
    intro rest hrest
    obtain ⟨e, hspan, -⟩ := exists_hasSpan_of_after? hrest
    exact h e hspan

theorem after?_drop_eq_some_iff :
    c.after? (s.drop i) = some rest ↔ ∃ e, c.HasSpan s i e ∧ rest = s.drop e := by
  rw [after?_eq_some_iff]
  constructor
  · rintro ⟨e, hspan, rfl⟩
    exact ⟨i + e, hasSpan_drop_iff.mp hspan, List.drop_drop⟩
  · rintro ⟨e, hspan, rfl⟩
    obtain ⟨e, rfl⟩ := Nat.exists_eq_add_of_le hspan.lt.le
    exact ⟨e, hasSpan_drop_iff.mpr hspan, List.drop_drop.symm⟩

theorem after?_drop_eq_none_iff : c.after? (s.drop i) = none ↔ ∀ e, ¬ c.HasSpan s i e := by
  rw [after?_eq_none_iff]
  constructor
  · intro h e hspan
    obtain ⟨e, rfl⟩ := Nat.exists_eq_add_of_le hspan.lt.le
    exact h e (hasSpan_drop_iff.mpr hspan)
  · intro h e hspan
    exact h _ (hasSpan_drop_iff.mp hspan)

/-- A character in front of a text moves its spans by one place. -/
theorem exists_hasSpan_cons_iff {d : Char} :
    (∃ e, c.HasSpan (d :: s) (i + 1) e) ↔ ∃ e, c.HasSpan s i e := by
  rw [← not_iff_not, not_exists, not_exists, ← after?_drop_eq_none_iff,
    ← after?_drop_eq_none_iff, List.drop_succ_cons]

end Front

/-! ### One pass -/

/-- Reading a text from place `i` on and leaving out its comments gives `t`. At each place the
first kind of comment that has a span there is left out, and the reading goes on behind it. -/
inductive Scan (comments : List Comment) (s : List Char) : Nat → List Char → Prop where
  | done {i : Nat} : s.length ≤ i → Scan comments s i []
  | keep {i : Nat} {d : Char} {t : List Char} : s[i]? = some d →
      (∀ c ∈ comments, ∀ e, ¬ c.HasSpan s i e) → Scan comments s (i + 1) t →
      Scan comments s i (d :: t)
  | delete {i e : Nat} {front back : List Comment} {c : Comment} {t : List Char} :
      comments = front ++ c :: back → (∀ d ∈ front, ∀ e, ¬ d.HasSpan s i e) →
      c.HasSpan s i e → Scan comments s e t → Scan comments s i t

section Pass

variable {comments : List Comment} {s t : List Char} {i : Nat}

def NoSpan (comments : List Comment) (s : List Char) : Prop :=
  ∀ c ∈ comments, ∀ i e, ¬ c.HasSpan s i e

theorem afterAny?_drop_eq_none_iff :
    afterAny? comments (s.drop i) = none ↔ ∀ c ∈ comments, ∀ e, ¬ c.HasSpan s i e := by
  rw [afterAny?, List.findSome?_eq_none_iff]
  simp only [after?_drop_eq_none_iff]

theorem afterAny?_drop_eq_some_iff {rest : List Char} :
    afterAny? comments (s.drop i) = some rest ↔
      ∃ front c back e, comments = front ++ c :: back ∧
        (∀ d ∈ front, ∀ e, ¬ d.HasSpan s i e) ∧ c.HasSpan s i e ∧ rest = s.drop e := by
  rw [afterAny?, List.findSome?_eq_some_iff]
  simp only [after?_drop_eq_some_iff, after?_drop_eq_none_iff]
  constructor
  · rintro ⟨front, c, back, hcomments, ⟨e, hspan, hrest⟩, hfront⟩
    exact ⟨front, c, back, e, hcomments, hfront, hspan, hrest⟩
  · rintro ⟨front, c, back, e, hcomments, hfront, hspan, hrest⟩
    exact ⟨front, c, back, hcomments, ⟨e, hspan, hrest⟩, hfront⟩

theorem scan_removeOnce (comments : List Comment) (s : List Char) (i : Nat) :
    Scan comments s i (removeOnce comments (s.drop i)) := by
  induction hlength : s.length - i using Nat.strong_induction_on generalizing i with
  | _ length ih =>
      by_cases hi : s.length ≤ i
      · rw [List.drop_of_length_le hi, removeOnce_nil]
        exact .done hi
      · replace hi : i < s.length := not_le.mp hi
        cases hany : afterAny? comments (s.drop i) with
        | some rest =>
            rw [removeOnce_of_some hany]
            obtain ⟨front, c, back, e, hcomments, hfront, hspan, rfl⟩ :=
              afterAny?_drop_eq_some_iff.mp hany
            have hlt := hspan.lt
            exact .delete hcomments hfront hspan (ih _ (by omega) e rfl)
        | none =>
            have hnone := afterAny?_drop_eq_none_iff.mp hany
            rw [List.drop_eq_getElem_cons hi] at hany ⊢
            rw [removeOnce_of_none hany]
            exact .keep (List.getElem?_eq_getElem hi) hnone (ih _ (by omega) (i + 1) rfl)

/-- One pass of removal deletes the spans from left to right, and nothing else. -/
theorem scan_iff : Scan comments s i t ↔ t = removeOnce comments (s.drop i) := by
  constructor
  · intro h
    induction h with
    | done hi => rw [List.drop_of_length_le hi, removeOnce_nil]
    | @keep i d t hd hnone _ ih =>
        obtain ⟨hi, rfl⟩ := List.getElem?_eq_some_iff.mp hd
        have hany := afterAny?_drop_eq_none_iff.mpr hnone
        rw [List.drop_eq_getElem_cons hi] at hany ⊢
        rw [removeOnce_of_none hany, ih]
    | @delete i e front back c t hcomments hfront hspan _ ih =>
        have hany := afterAny?_drop_eq_some_iff.mpr
          ⟨front, c, back, e, hcomments, hfront, hspan, rfl⟩
        rw [removeOnce_of_some hany, ih]
  · rintro rfl
    exact scan_removeOnce comments s i

theorem noSpan_iff : NoSpan comments s ↔ ∀ i, afterAny? comments (s.drop i) = none := by
  simp only [NoSpan, afterAny?_drop_eq_none_iff]
  tauto

/-- A pass leaves a text alone exactly when it has no span. -/
theorem removeOnce_eq_self_iff : removeOnce comments s = s ↔ NoSpan comments s := by
  rw [noSpan_iff]
  induction s with
  | nil =>
      refine iff_of_true (removeOnce_nil comments) ?_
      intro i
      rw [List.drop_nil, Option.eq_none_iff_forall_ne_some]
      intro rest hrest
      exact absurd (length_afterAny?_lt hrest) (Nat.not_lt_zero _)
  | cons d s ih =>
      cases hany : afterAny? comments (d :: s) with
      | some rest =>
          -- A comment at the front is left out, which makes the text shorter.
          refine iff_of_false (removeOnce_ne_of_some hany) ?_
          intro hnone
          have hfront : afterAny? comments (d :: s) = none := hnone 0
          rw [hfront] at hany
          cases hany
      | none =>
          rw [removeOnce_of_none hany, List.cons_inj_right, ih]
          constructor
          · intro hrest i
            cases i with
            | zero => exact hany
            | succ i => exact hrest i
          · intro hnone i
            exact hnone (i + 1)

/-- The passes end at a text without spans. -/
theorem noSpan_removeAll (comments : List Comment) (s : List Char) :
    NoSpan comments (removeAll comments s) :=
  removeAll_induction (motive := fun _ t => NoSpan comments t)
    (fun _ hs => removeOnce_eq_self_iff.mp hs) (fun _ _ _ ht => ht) s

/-- All passes keep a part of the text in order. -/
theorem removeAll_sublist (comments : List Comment) (s : List Char) :
    (removeAll comments s).Sublist s := by
  refine removeAll_induction (motive := fun s t => t.Sublist s) (fun s _ => .refl s) ?_ s
  intro s t _ ht
  exact ht.trans (removeOnce_sublist comments s)

/-- A text without spans is left alone. -/
theorem removeAll_of_noSpan (h : NoSpan comments s) : removeAll comments s = s :=
  removeAll_of_eq (removeOnce_eq_self_iff.mpr h)

end Pass

end Galley.Comment
