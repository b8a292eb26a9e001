import Galley.Proofs.FurthestRows

/-!
Cuts in the middle of a shortest way.

The searches from the start and from the ends meet as soon as the changes of both make a way
(`ne_of_meeting?_eq_none`), and then at a place of a shortest way (`exists_of_meeting?`). A cut at
such a place loses nothing that the lists have in common (`lossless_of_leaves`), and it leaves
items in front of it and behind it (`IsCut`). So the search ends with a cut
(`Apart.exists_middle?`), and the changes between two lists keep as many items as the lists can
have in common (`length_le_keptCount_between`).
-/

open scoped List

namespace Galley.Diff

variable {α : Type} {as bs cs : List α} {d e x y : Nat}

/-! ### Cuts that lose nothing -/

/-- No way leads from one list to another with fewer than `d` changes. -/
def NeedsChanges (as bs : List α) (d : Nat) : Prop :=
  ∀ cs, cs <+ as → cs <+ bs → 2 * cs.length + d ≤ as.length + bs.length

theorem NeedsChanges.reverse (h : NeedsChanges as bs d) :
    NeedsChanges as.reverse bs.reverse d := by
  intro cs has hbs
  have hle := h cs.reverse (List.reverse_sublist.mp (by simpa using has))
    (List.reverse_sublist.mp (by simpa using hbs))
  simpa using hle

/-- Cutting two lists at a place loses nothing that they have in common. -/
def Lossless (as bs : List α) (x y : Nat) : Prop :=
  ∃ front back, front <+ as.take x ∧ front <+ bs.take y ∧ back <+ as.drop x ∧ back <+ bs.drop y ∧
    ∀ cs, cs <+ as → cs <+ bs → cs.length ≤ front.length + back.length

/-- A cut at a place of a shortest way loses nothing. -/
theorem lossless_of_leaves (hfront : Reaches as bs d x y) (hback : Leaves as bs e x y)
    (hneeds : NeedsChanges as bs (d + e)) : Lossless as bs x y := by
  obtain ⟨front, has, hbs, hlen⟩ := hfront.exists_common
  obtain ⟨back, has', hbs', hlen'⟩ := hback
  refine ⟨front, back, has, hbs, has', hbs', ?_⟩
  intro cs hcs hcs'
  have hle := hneeds cs hcs hcs'
  omega

theorem Lossless.reverse (h : Lossless as.reverse bs.reverse x y) :
    Lossless as bs (as.length - x) (bs.length - y) := by
  obtain ⟨front, back, hfa, hfb, hba, hbb, hmost⟩ := h
  rw [List.take_reverse] at hfa hfb
  rw [List.drop_reverse] at hba hbb
  refine ⟨back.reverse, front.reverse, ?_, ?_, ?_, ?_, ?_⟩
  · simpa using hba.reverse
  · simpa using hbb.reverse
  · simpa using hfa.reverse
  · simpa using hfb.reverse
  · intro cs has hbs
    have hle := hmost cs.reverse has.reverse hbs.reverse
    rw [List.length_reverse] at hle ⊢
    rw [List.length_reverse]
    omega

/-- Two lists with items that neither start nor end alike. -/
structure Apart [DecidableEq α] (as bs : List α) : Prop where
  left : as ≠ []
  right : bs ≠ []
  lead : commonLead as bs = 0
  trail : commonTrail as bs = 0

/-! ### Rounds of the search -/

section Search

variable [DecidableEq α] {row other : List Nat} {k : Int} {z : Nat}

theorem Apart.reverse (h : Apart as bs) : Apart as.reverse bs.reverse := by
  refine ⟨by simpa using h.left, by simpa using h.right, h.trail, ?_⟩
  rw [commonTrail, List.reverse_reverse, List.reverse_reverse]
  exact h.lead

/-- Without a change, one gets nowhere. -/
theorem Apart.eq_zero_of_reaches (h : Apart as bs) (hreach : Reaches as bs d x y) (hd : d = 0) :
    x = 0 ∧ y = 0 := by
  induction hreach with
  | start => exact ⟨rfl, rfl⟩
  | remove => cases hd
  | add => cases hd
  | @pass d x y a ha hb _ ih =>
      obtain ⟨hx, hy⟩ := ih hd
      rw [hx, ← h.lead] at ha
      rw [hy, ← h.lead] at hb
      exact absurd rfl (ne_of_getElem?_commonLead ha hb)

/-- The row of the round before; before the first round there is none. -/
def IsRowBefore (as bs : List α) : Nat → List Nat → Prop
  | 0, row => row = []
  | d + 1, row => IsRow (Reaches as bs d) d row

def nextRow (as bs : List α) (round : Nat) (row : List Nat) : List Nat :=
  List.zipWith (glide as bs) (starts row) (diagonals round)

/-- The diagonals of a round with the start and the end of the common items there. -/
def glides (as bs : List α) (round : Nat) (row : List Nat) : List (Int × Nat × Nat) :=
  (diagonals round).zip ((starts row).zip (nextRow as bs round row))

omit [DecidableEq α] in
theorem IsRowBefore.starts (h : IsRowBefore as bs d row) :
    IsRow (Arrives as bs d) d (starts row) := by
  cases d with
  | zero =>
      obtain rfl : row = [] := h
      exact IsRow.starts_nil
  | succ d => exact IsRow.starts h

theorem IsRowBefore.next (h : IsRowBefore as bs d row) :
    IsRowBefore as bs (d + 1) (nextRow as bs d row) :=
  h.starts.glide

theorem mem_glides_iff {place : Int × Nat × Nat} :
    place ∈ glides as bs d row ↔
      ∃ i : Nat, (diagonals d)[i]? = some place.1 ∧ (starts row)[i]? = some place.2.1 ∧
        (nextRow as bs d row)[i]? = some place.2.2 := by
  simp only [glides, List.mem_iff_getElem?, List.getElem?_zip_eq_some]

/-- Where the search meets the one from the ends, a change leads to the start of common items,
and the other search leads to the ends from the start and from the end of these. -/
theorem exists_of_meeting? (hbefore : IsRowBefore as bs d row)
    (hother : IsRow (Reaches as.reverse bs.reverse e) e other)
    (h : meeting? as.length ((as.length : Int) - bs.length) other (glides as bs d row) =
      some (k, x, z)) :
    (Arrives as bs d x (across x k) ∧ Leaves as bs e x (across x k)) ∧
      Reaches as bs d z (across z k) ∧ Leaves as bs e z (across z k) := by
  have hmeets := List.find?_some h
  obtain ⟨i, hk, hx, hz⟩ := mem_glides_iff.mp (List.mem_of_find?_eq_some h)
  dsimp only at hmeets hk hx hz
  obtain ⟨y, hy, harrives⟩ := hbefore.starts.furthest hx
  obtain rfl : k = x - y := by
    obtain ⟨-, rfl⟩ := getElem?_diagonals.mp hk
    omega
  obtain ⟨x', k', hx', hk', rfl⟩ := List.getElem?_zipWith_eq_some.mp hz
  obtain rfl := Option.some.inj (hx.symm.trans hx')
  obtain rfl := Option.some.inj (hk.symm.trans hk')
  rw [glide, across_eq] at hmeets ⊢
  have hdiagonal (n : Nat) : (x : Int) - y = (x + n : Nat) - (y + n : Nat) := by omega
  rw [hdiagonal (commonLead (as.drop x) (bs.drop y))] at hmeets ⊢
  rw [across_eq]
  obtain ⟨x', y', hreach, hdiag, hmet⟩ := hother.exists_of_meets hmeets
  have hleaves := hreach.leaves hdiag hmet
  exact ⟨⟨harrives.holds, hleaves.of_commonLead⟩, harrives.glide.holds, hleaves⟩

/-- Where the search does not meet the one from the ends, the lists do not have so much in common
that the changes of both would make a way. -/
theorem ne_of_meeting?_eq_none (hbefore : IsRowBefore as bs d row)
    (hother : IsRow (Reaches as.reverse bs.reverse e) e other)
    (h : meeting? as.length ((as.length : Int) - bs.length) other (glides as bs d row) = none)
    (has : cs <+ as) (hbs : cs <+ bs) : as.length + bs.length ≠ 2 * cs.length + (d + e) := by
  intro hlen
  obtain ⟨u, v, x, y, hx, hy, hfront, hback⟩ := exists_split has hbs hlen
  obtain ⟨i, hi, hu⟩ := hfront.exists_index
  obtain ⟨x₀, hx₀⟩ := hbefore.starts.exists_getElem? hi
  obtain ⟨z, hz⟩ := hbefore.next.exists_getElem? hi
  obtain ⟨w, hw, hfurthest⟩ := hbefore.next.furthest hz
  have hle := hfurthest.le hfront (by omega)
  have hmem : ((z : Int) - w, x₀, z) ∈ glides as bs d row :=
    mem_glides_iff.mpr ⟨i, getElem?_diagonals.mpr ⟨hi, by omega⟩, hx₀, hz⟩
  refine List.find?_eq_none.mp h _ hmem ?_
  exact hother.meets_of_le hback (by omega) (by omega)

/-- A cut that loses nothing and leaves items in front of it and behind it. -/
structure IsCut (as bs : List α) (x y : Nat) : Prop where
  lossless : Lossless as bs x y
  front : 0 < (as.take x).length + (bs.take y).length
  back : 0 < (as.drop x).length + (bs.drop y).length

omit [DecidableEq α] in
theorem IsCut.reverse (h : IsCut as.reverse bs.reverse x y) :
    IsCut as bs (as.length - x) (bs.length - y) := by
  obtain ⟨hlossless, hfront, hback⟩ := h
  simp only [List.length_take, List.length_drop, List.length_reverse] at hfront hback
  refine ⟨hlossless.reverse, ?_, ?_⟩
  · simp only [List.length_take]
    omega
  · simp only [List.length_drop]
    omega

/-- A place of a shortest way, between changes. -/
theorem Apart.isCut (h : Apart as bs) (hreach : Reaches as bs d x y) (hleaves : Leaves as bs e x y)
    (hneeds : NeedsChanges as bs (d + e)) (hd : 0 < d)
    (he : 0 < e ∨ x + y < as.length + bs.length) : IsCut as bs x y := by
  have hleft := List.length_pos_iff.mpr h.left
  have hright := List.length_pos_iff.mpr h.right
  refine ⟨lossless_of_leaves hreach hleaves hneeds, ?_, ?_⟩
  · have hle := hreach.changes_le
    simp only [List.length_take]
    omega
  · simp only [List.length_drop]
    by_contra hnone
    -- a way to the ends of both lists needs the changes of both searches
    obtain ⟨cs, has, hbs, hlen⟩ := hreach.exists_common
    have hle := hneeds cs (has.trans (List.take_sublist x as)) (hbs.trans (List.take_sublist y bs))
    omega

theorem Apart.two_mul_lt (h : Apart as bs) (has : cs <+ as) (hbs : cs <+ bs) :
    2 * cs.length < as.length + bs.length := by
  by_contra hge
  have hle := has.length_le
  have hle' := hbs.length_le
  obtain rfl := has.eq_of_length (by omega)
  obtain rfl := hbs.eq_of_length (by omega)
  have hlead := h.lead
  cases cs with
  | nil => exact h.left rfl
  | cons c cs => simp [commonLead] at hlead

theorem Apart.isCut_forward (h : Apart as bs) (harrives : Arrives as bs (d + 1) x y)
    (hleaves : Leaves as bs d x y) (hneeds : NeedsChanges as bs (d + 1 + d)) :
    IsCut as bs x y := by
  refine h.isCut harrives.reaches hleaves hneeds (Nat.succ_pos d) ?_
  have hleft := List.length_pos_iff.mpr h.left
  have hright := List.length_pos_iff.mpr h.right
  rcases Nat.eq_zero_or_pos d with rfl | hd
  · right
    cases harrives with
    | remove hreach =>
        have hzero := h.eq_zero_of_reaches hreach rfl
        omega
    | add hreach =>
        have hzero := h.eq_zero_of_reaches hreach rfl
        omega
  · exact .inl hd

theorem Apart.isCut_backward (h : Apart as bs) (hreach : Reaches as.reverse bs.reverse d x y)
    (hleaves : Leaves as.reverse bs.reverse d x y) (hneeds : NeedsChanges as bs (d + d)) :
    IsCut as bs (as.length - x) (bs.length - y) := by
  have hd : 0 < d := by
    by_contra hzero
    obtain rfl : d = 0 := Nat.eq_zero_of_not_pos hzero
    obtain ⟨rfl, rfl⟩ := h.reverse.eq_zero_of_reaches hreach rfl
    obtain ⟨cs, has, hbs, hlen⟩ := hleaves
    have hlt := h.reverse.two_mul_lt has hbs
    omega
  exact (h.reverse.isCut hreach hleaves hneeds.reverse hd (.inl hd)).reverse

omit [DecidableEq α] in
theorem meeting?_nil (total : Nat) (delta : Int) (places : List (Int × Nat × Nat)) :
    meeting? total delta [] places = none := by
  apply List.find?_eq_none.mpr
  rintro ⟨k, x, z⟩ -
  simp [meets]

/-- With an odd difference of lengths, the search from the start finds a cut in a round, or each
way has more changes than both searches have made. -/
theorem Apart.meeting?_forward (h : Apart as bs) (hforward : IsRowBefore as bs d row)
    (hbackward : IsRowBefore as.reverse bs.reverse d other)
    (hneeds : NeedsChanges as bs (2 * d - 1))
    (hodd : ((as.length : Int) - bs.length) % 2 ≠ 0) :
    (∃ k x z, meeting? as.length ((as.length : Int) - bs.length) other (glides as bs d row) =
        some (k, x, z) ∧ IsCut as bs x (across x k)) ∨
      meeting? as.length ((as.length : Int) - bs.length) other (glides as bs d row) = none ∧
        NeedsChanges as bs (2 * (d + 1) - 1) := by
  cases d with
  | zero =>
      obtain rfl : other = [] := hbackward
      refine .inr ⟨meeting?_nil _ _ _, ?_⟩
      -- the lengths differ, so one list has items that the other one has not
      intro cs has hbs
      have hle := has.length_le
      have hle' := hbs.length_le
      omega
  | succ d =>
      cases hmeet : meeting? as.length ((as.length : Int) - bs.length) other
          (glides as bs (d + 1) row) with
      | some place =>
          obtain ⟨k, x, z⟩ := place
          obtain ⟨⟨harrives, hleaves⟩, -⟩ := exists_of_meeting? hforward hbackward hmeet
          refine .inl ⟨k, x, z, rfl, h.isCut_forward harrives hleaves ?_⟩
          intro cs has hbs
          have hle := hneeds cs has hbs
          omega
      | none =>
          -- the numbers of changes of all ways are odd like the difference of lengths
          refine .inr ⟨rfl, ?_⟩
          intro cs has hbs
          have hle := hneeds cs has hbs
          have hne := ne_of_meeting?_eq_none hforward hbackward hmeet has hbs
          omega

/-- With an even difference of lengths, the search from the ends finds a cut in a round, or each
way has more changes than both searches have made. -/
theorem Apart.meeting?_backward (h : Apart as bs)
    (hforward : IsRow (Reaches as bs d) d other)
    (hbackward : IsRowBefore as.reverse bs.reverse d row)
    (hneeds : NeedsChanges as bs (2 * d - 1))
    (heven : ((as.length : Int) - bs.length) % 2 = 0) :
    (∃ k x z, meeting? as.length ((as.length : Int) - bs.length) other
        (glides as.reverse bs.reverse d row) = some (k, x, z) ∧
        IsCut as bs (as.length - z) (bs.length - across z k)) ∨
      meeting? as.length ((as.length : Int) - bs.length) other
        (glides as.reverse bs.reverse d row) = none ∧ NeedsChanges as bs (2 * (d + 1) - 1) := by
  -- From the ends, the reversed lists are searched, and the other search is that in their reverse.
  have hother : IsRow (Reaches as.reverse.reverse bs.reverse.reverse d) d other := by
    rwa [List.reverse_reverse, List.reverse_reverse]
  have hleft : as.reverse.length = as.length := List.length_reverse
  have hright : bs.reverse.length = bs.length := List.length_reverse
  rw [← hleft, ← hright]
  cases hmeet : meeting? as.reverse.length ((as.reverse.length : Int) - bs.reverse.length) other
      (glides as.reverse bs.reverse d row) with
  | some place =>
      obtain ⟨k, x, z⟩ := place
      obtain ⟨-, hreach, hleaves⟩ := exists_of_meeting? hbackward hother hmeet
      refine .inl ⟨k, x, z, rfl, ?_⟩
      rw [hleft, hright]
      refine h.isCut_backward hreach hleaves ?_
      intro cs has hbs
      have hle := hneeds cs has hbs
      omega
  | none =>
      refine .inr ⟨rfl, ?_⟩
      intro cs has hbs
      have hle := hneeds cs has hbs
      have hne := ne_of_meeting?_eq_none hbackward hother hmeet has.reverse hbs.reverse
      rw [hleft, hright, List.length_reverse] at hne
      omega

theorem middleFrom?_succ (delta : Int) (n round : Nat) (forward backward : List Nat) :
    middleFrom? as bs delta (n + 1) round forward backward =
      match (if delta % 2 != 0 then
        meeting? as.length delta backward (glides as bs round forward) else none) with
      | some (k, x, _) => some (x, across x k)
      | none =>
        match (if delta % 2 != 0 then none else
          meeting? as.length delta (nextRow as bs round forward)
            (glides as.reverse bs.reverse round backward)) with
        | some (k, _, x) => some (as.length - x, bs.length - across x k)
        | none => middleFrom? as bs delta n (round + 1) (nextRow as bs round forward)
            (nextRow as.reverse bs.reverse round backward) :=
  rfl

/-- The search finds a cut, since each round without one tells that a way has more changes, and
there is a way that removes all items and adds all others. -/
theorem Apart.exists_middleFrom? (h : Apart as bs) {n round : Nat} {forward backward : List Nat}
    (hn : (as.length + bs.length + 1) / 2 + 1 = n + round)
    (hforward : IsRowBefore as bs round forward)
    (hbackward : IsRowBefore as.reverse bs.reverse round backward)
    (hneeds : NeedsChanges as bs (2 * round - 1)) :
    ∃ x y, middleFrom? as bs ((as.length : Int) - bs.length) n round forward backward =
      some (x, y) ∧ IsCut as bs x y := by
  induction n generalizing round forward backward with
  | zero =>
      -- Removing all items and adding all others has too few changes for so many rounds.
      have hle := hneeds [] (List.nil_sublist as) (List.nil_sublist bs)
      rw [List.length_nil] at hle
      omega
  | succ n ih =>
      have hnext := ih (by omega) hforward.next hbackward.next
      rw [middleFrom?_succ]
      by_cases heven : ((as.length : Int) - bs.length) % 2 = 0
      · rw [heven]
        rcases h.meeting?_backward hforward.next hbackward hneeds heven with
          ⟨k, x, z, hmeet, hcut⟩ | ⟨hmeet, hneeds⟩
        · exact ⟨_, _, by rw [hmeet]; rfl, hcut⟩
        · rw [hmeet]
          exact hnext hneeds
      · have hodd : (((as.length : Int) - bs.length) % 2 != 0) = true := by simpa using heven
        rw [if_pos hodd, if_pos hodd]
        rcases h.meeting?_forward hforward hbackward hneeds heven with
          ⟨k, x, z, hmeet, hcut⟩ | ⟨hmeet, hneeds⟩
        · exact ⟨_, _, by rw [hmeet], hcut⟩
        · rw [hmeet]
          exact hnext hneeds

/-- The middle of two lists that neither start nor end alike is a cut. -/
theorem Apart.exists_middle? (h : Apart as bs) :
    ∃ x y, middle? as bs = some (x, y) ∧ IsCut as bs x y := by
  refine h.exists_middleFrom? rfl rfl rfl ?_
  intro cs has hbs
  have hle := has.length_le
  have hle' := hbs.length_le
  omega

end Search

/-! ### What is kept -/

section Kept

variable [DecidableEq α]

omit [DecidableEq α] in
theorem sublist_of_sublist_append_left {lead : List α} (h : cs <+ lead ++ as) :
    cs.drop lead.length <+ as := by
  simpa using h.drop lead.length

omit [DecidableEq α] in
theorem sublist_of_sublist_append_right {trail : List α} (h : cs <+ as ++ trail) :
    cs.take (cs.length - trail.length) <+ as := by
  have hdrop := h.reverse.drop trail.length
  rw [List.drop_reverse] at hdrop
  simpa using hdrop

/-- If the runs of shorter lists keep as much as possible, the runs of cut lists do. -/
theorem length_le_keptCount_runsCut {n : Nat}
    (ih : ∀ {as bs cs : List α}, as.length + bs.length < n → cs <+ as → cs <+ bs →
      cs.length ≤ keptCount (runsFrom n as bs))
    (hn : as.length + bs.length ≤ n) (hlead : commonLead as bs = 0)
    (htrail : commonTrail as bs = 0) (has : cs <+ as) (hbs : cs <+ bs) :
    cs.length ≤ keptCount (runsCut n as bs) := by
  by_cases hleft : as = []
  · rw [hleft] at has
    rw [List.sublist_nil.mp has]
    exact Nat.zero_le _
  by_cases hright : bs = []
  · rw [hright] at hbs
    rw [List.sublist_nil.mp hbs]
    exact Nat.zero_le _
  have hapart : Apart as bs := ⟨hleft, hright, hlead, htrail⟩
  obtain ⟨x, y, hmiddle, hcut⟩ := hapart.exists_middle?
  obtain ⟨front, back, hfa, hfb, hba, hbb, hmost⟩ := hcut.lossless
  have hlen (ds : List α) (z : Nat) : (ds.take z).length + (ds.drop z).length = ds.length := by
    rw [← List.length_append, List.take_append_drop]
  have hx := hlen as x
  have hy := hlen bs y
  have hfront := ih (by have hback := hcut.back; omega) hfa hfb
  have hback := ih (by have hfront := hcut.front; omega) hba hbb
  rw [runsCut, if_neg (by simp [hleft, hright]), hmiddle]
  simp only [keptCount_append]
  exact Nat.le_trans (hmost cs has hbs) (Nat.add_le_add hfront hback)

/-- The runs between two lists keep as many items as the lists can have in common. -/
theorem length_le_keptCount_runsFrom {n : Nat} (hn : as.length + bs.length < n) (has : cs <+ as)
    (hbs : cs <+ bs) : cs.length ≤ keptCount (runsFrom n as bs) := by
  induction n generalizing as bs cs with
  | zero => exact absurd hn (Nat.not_lt_zero _)
  | succ n ih =>
      obtain ⟨lead, as, bs, trail, rfl, rfl, hlead, htrail, hruns⟩ := exists_runsFrom_succ n as bs
      rw [List.append_assoc] at has hbs
      have hinner := length_le_keptCount_runsCut ih
        (by simp only [List.length_append] at hn; omega) hlead htrail
        (sublist_of_sublist_append_right (sublist_of_sublist_append_left has))
        (sublist_of_sublist_append_right (sublist_of_sublist_append_left hbs))
      rw [List.length_take, List.length_drop] at hinner
      rw [hruns, keptCount_append, keptCount_append, (alike_runOf lead .kept).kept,
        (alike_runOf trail .kept).kept]
      simp only [keptCount_cons, keptCount_nil, kept_kept]
      omega

/-- The changes between two lists keep as many items as the lists can have in common. -/
theorem length_le_keptCount_between (has : cs <+ as) (hbs : cs <+ bs) :
    cs.length ≤ keptCount (between as bs) := by
  rw [← (alike_between as bs).kept]
  exact length_le_keptCount_runsFrom (Nat.lt_succ_self _) has hbs

end Kept

end Galley.Diff
