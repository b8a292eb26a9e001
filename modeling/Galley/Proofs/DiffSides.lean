import Galley.Diff
import Mathlib.Data.List.Basic

/-!
The two sides of a difference.

Whatever places the search cuts at, the runs between two lists tell about these two lists
(`sides_runsFrom`). Sliding and grouping runs moves items, but it changes neither of the two lists
nor the number of items kept (`Alike`): each move of a cursor does not
(`Cursor.alike_of_up?`, `Cursor.alike_of_down?`), so no sequence of them does (`alike_slide`). The
changes between two lists therefore tell about these two lists (`older_between`,
`newer_between`), and they keep as many items as the search found in common (`alike_between`).
-/

namespace Galley.Diff

variable {α : Type}

/-! ### Items kept -/

def Run.kept (r : Run α) : List α :=
  if r.mark = .kept then r.items else []

def keptCount (runs : List (Run α)) : Nat :=
  (runs.flatMap Run.kept).length

@[simp] theorem keptCount_nil : keptCount ([] : List (Run α)) = 0 := rfl

@[simp] theorem keptCount_cons (r : Run α) (runs : List (Run α)) :
    keptCount (r :: runs) = r.kept.length + keptCount runs := by
  simp [keptCount]

@[simp] theorem keptCount_append (rs ts : List (Run α)) :
    keptCount (rs ++ ts) = keptCount rs + keptCount ts := by
  simp [keptCount]

section Marks

variable (items : List α)

@[simp] theorem older_kept : Run.older ⟨.kept, items⟩ = items := rfl

@[simp] theorem older_removed : Run.older ⟨.removed, items⟩ = items := rfl

@[simp] theorem older_added : Run.older ⟨.added, items⟩ = [] := rfl

@[simp] theorem newer_kept : Run.newer ⟨.kept, items⟩ = items := rfl

@[simp] theorem newer_removed : Run.newer ⟨.removed, items⟩ = [] := rfl

@[simp] theorem newer_added : Run.newer ⟨.added, items⟩ = items := rfl

@[simp] theorem kept_kept : Run.kept ⟨.kept, items⟩ = items := rfl

@[simp] theorem kept_removed : Run.kept ⟨.removed, items⟩ = [] := rfl

@[simp] theorem kept_added : Run.kept ⟨.added, items⟩ = [] := rfl

end Marks

/-! ### Runs that tell the same -/

/-- Runs tell about the same two lists and keep as many items. -/
structure Alike (rs ts : List (Run α)) : Prop where
  older : older rs = older ts
  newer : newer rs = newer ts
  kept : keptCount rs = keptCount ts

namespace Alike

variable {rs ts us vs : List (Run α)}

theorem refl (rs : List (Run α)) : Alike rs rs :=
  ⟨rfl, rfl, rfl⟩

theorem symm (h : Alike rs ts) : Alike ts rs :=
  ⟨h.older.symm, h.newer.symm, h.kept.symm⟩

theorem trans (h : Alike rs ts) (h' : Alike ts us) : Alike rs us :=
  ⟨h.older.trans h'.older, h.newer.trans h'.newer, h.kept.trans h'.kept⟩

theorem append (h : Alike rs ts) (h' : Alike us vs) : Alike (rs ++ us) (ts ++ vs) :=
  ⟨by simp [h.older, h'.older], by simp [h.newer, h'.newer], by simp [h.kept, h'.kept]⟩

theorem append_left (us : List (Run α)) (h : Alike rs ts) : Alike (us ++ rs) (us ++ ts) :=
  (refl us).append h

theorem append_right (us : List (Run α)) (h : Alike rs ts) : Alike (rs ++ us) (ts ++ us) :=
  h.append (refl us)

end Alike

section Steps

variable (items more : List α) (rs : List (Run α))

theorem alike_runOf (mark : Mark) : Alike (runOf mark items) [⟨mark, items⟩] := by
  rw [runOf]
  split
  · rename_i hempty
    rw [List.isEmpty_iff.mp hempty]
    cases mark <;> exact ⟨rfl, rfl, rfl⟩
  · exact .refl _

theorem reverse_runOf (mark : Mark) : (runOf mark items).reverse = runOf mark items := by
  rw [runOf]
  split <;> rfl

theorem alike_of_isEmpty {r : Run α} (h : r.items.isEmpty = true) : Alike (r :: rs) rs := by
  obtain ⟨mark, items⟩ := r
  obtain rfl : items = [] := List.isEmpty_iff.mp h
  cases mark <;> exact ⟨by simp, by simp, by simp⟩

theorem alike_join (mark : Mark) :
    Alike (⟨mark, items⟩ :: ⟨mark, more⟩ :: rs) (⟨mark, items ++ more⟩ :: rs) := by
  cases mark <;> exact ⟨by simp, by simp, by simp [Nat.add_assoc]⟩

theorem alike_swap :
    Alike (⟨.removed, items⟩ :: ⟨.added, more⟩ :: rs) (⟨.added, more⟩ :: ⟨.removed, items⟩ :: rs) :=
  ⟨by simp, by simp, by simp⟩

theorem alike_keepAhead : Alike (keepAhead items rs) (⟨.kept, items⟩ :: rs) := by
  rw [keepAhead.eq_def]
  split
  · exact (alike_join _ _ _ _).symm
  · exact .refl _

theorem alike_reverse_keepBehind :
    Alike (keepBehind items rs).reverse (rs.reverse ++ [⟨.kept, items⟩]) := by
  rw [keepBehind.eq_def]
  split
  · rename_i more rest
    rw [List.reverse_cons, List.reverse_cons, List.append_assoc]
    exact (alike_join more items [] .kept).symm.append_left _
  · rw [List.reverse_cons]
    exact .refl _

variable {items} {front back tail lead kept : List α}

/-- Added items that end like the kept items in front of them. -/
theorem alike_slide_up (hkept : front ++ tail = kept) (hadded : more ++ tail = items) :
    Alike (⟨.kept, kept⟩ :: ⟨.added, items⟩ :: rs)
      (⟨.kept, front⟩ :: ⟨.added, tail ++ more⟩ :: ⟨.kept, tail⟩ :: rs) := by
  subst hkept hadded
  exact ⟨by simp, by simp, by simp [Nat.add_assoc]⟩

/-- Added items that start like the kept items behind them. -/
theorem alike_slide_down (hkept : lead ++ back = kept) (hadded : lead ++ more = items) :
    Alike (⟨.added, items⟩ :: ⟨.kept, kept⟩ :: rs)
      (⟨.kept, lead⟩ :: ⟨.added, more ++ lead⟩ :: ⟨.kept, back⟩ :: rs) := by
  subst hkept hadded
  exact ⟨by simp, by simp, by simp [Nat.add_assoc]⟩

end Steps

/-! ### Common items at the ends -/

section Common

variable [DecidableEq α]

theorem take_commonLead (as bs : List α) :
    as.take (commonLead as bs) = bs.take (commonLead as bs) := by
  induction as generalizing bs with
  | nil => cases bs <;> rfl
  | cons a as ih =>
      cases bs with
      | nil => rfl
      | cons b bs =>
          rw [commonLead]
          split
          · rename_i hab
            rw [List.take_succ_cons, List.take_succ_cons, hab, ih]
          · rfl

theorem commonLead_le_left (as bs : List α) : commonLead as bs ≤ as.length := by
  induction as generalizing bs with
  | nil => cases bs <;> simp [commonLead]
  | cons a as ih =>
      cases bs with
      | nil => simp [commonLead]
      | cons b bs =>
          rw [commonLead]
          split
          · exact Nat.succ_le_succ (ih bs)
          · exact Nat.zero_le _

theorem commonLead_le_right (as bs : List α) : commonLead as bs ≤ bs.length := by
  have htake := congrArg List.length (take_commonLead as bs)
  have hle := commonLead_le_left as bs
  rw [List.length_take, List.length_take] at htake
  omega

theorem commonTrail_le_left (as bs : List α) : commonTrail as bs ≤ as.length := by
  simpa [commonTrail] using commonLead_le_left as.reverse bs.reverse

theorem commonTrail_le_right (as bs : List α) : commonTrail as bs ≤ bs.length := by
  simpa [commonTrail] using commonLead_le_right as.reverse bs.reverse

theorem drop_commonTrail (as bs : List α) :
    as.drop (as.length - commonTrail as bs) = bs.drop (bs.length - commonTrail as bs) := by
  have hlead := congrArg List.reverse (take_commonLead as.reverse bs.reverse)
  rwa [List.reverse_take, List.reverse_take, List.reverse_reverse, List.reverse_reverse,
    List.length_reverse, List.length_reverse] at hlead

theorem commonLead_drop (as bs : List α) :
    commonLead (as.drop (commonLead as bs)) (bs.drop (commonLead as bs)) = 0 := by
  induction as generalizing bs with
  | nil => cases bs <;> rfl
  | cons a as ih =>
      cases bs with
      | nil => rfl
      | cons b bs =>
          by_cases hab : a = b
          · simpa [commonLead, hab] using ih bs
          · simp [commonLead, hab]

theorem commonLead_take_le (as bs : List α) (i j : Nat) :
    commonLead (as.take i) (bs.take j) ≤ commonLead as bs := by
  induction as generalizing bs i j with
  | nil => cases bs <;> simp [commonLead]
  | cons a as ih =>
      cases bs with
      | nil => simp [commonLead]
      | cons b bs =>
          cases i with
          | zero => simp [commonLead]
          | succ i =>
              cases j with
              | zero => simp [commonLead]
              | succ j =>
                  rw [List.take_succ_cons, List.take_succ_cons, commonLead, commonLead]
                  split
                  · exact Nat.succ_le_succ (ih bs i j)
                  · exact Nat.le_refl 0

theorem commonTrail_take (as bs : List α) :
    commonTrail (as.take (as.length - commonTrail as bs))
      (bs.take (bs.length - commonTrail as bs)) = 0 := by
  have hdrop (cs : List α) (hle : commonTrail as bs ≤ cs.length) :
      (cs.take (cs.length - commonTrail as bs)).reverse = cs.reverse.drop (commonTrail as bs) := by
    rw [List.reverse_take, Nat.sub_sub_self hle]
  rw [commonTrail, hdrop as (commonTrail_le_left as bs), hdrop bs (commonTrail_le_right as bs)]
  exact commonLead_drop as.reverse bs.reverse

theorem commonLead_append_drop (as bs : List α) :
    as.take (commonLead as bs) ++ bs.drop (commonLead as bs) = bs := by
  rw [take_commonLead, List.take_append_drop]

theorem take_append_commonTrail (as bs : List α) :
    bs.take (bs.length - commonTrail as bs) ++ as.drop (as.length - commonTrail as bs) = bs := by
  rw [drop_commonTrail, List.take_append_drop]

end Common

/-! ### Moves of a cursor -/

namespace Cursor

def runs (c : Cursor α) : List (Run α) :=
  c.before.reverse ++ c.here :: c.after

section Moves

variable {before after : List (Run α)} {r here : Run α} {c c' : Cursor α}

theorem runs_before_cons :
    runs ⟨r :: before, here, after⟩ = before.reverse ++ r :: here :: after := by
  simp [runs]

theorem runs_after_cons :
    runs ⟨before, here, r :: after⟩ = before.reverse ++ here :: r :: after := rfl

variable [DecidableEq α]

/-- Sliding up leaves what the runs tell. -/
theorem alike_of_up? (h : c.up? = some c') : Alike c.runs c'.runs := by
  obtain ⟨before, ⟨mark, items⟩, after⟩ := c
  cases before with
  | nil => cases h
  | cons r before =>
      obtain ⟨mark', items'⟩ := r
      rw [runs_before_cons]
      have hempty (hr : items'.isEmpty = true) :
          Alike (before.reverse ++ ⟨mark', items'⟩ :: ⟨mark, items⟩ :: after)
            (runs ⟨before, ⟨mark, items⟩, after⟩) :=
        (alike_of_isEmpty _ hr).append_left _
      -- A kept run does not move. A change is joined to one of its own mark and swapped with one of
      -- the other mark; only an added one slides past kept items.
      cases mark <;> cases mark' <;> simp only [up?, Option.some.injEq, reduceCtorEq] at h
      case removed.kept =>
        split at h
        · cases h
          exact hempty ‹_›
        · cases h
      case removed.removed =>
        subst h
        exact (alike_join _ _ _ _).append_left _
      case removed.added =>
        subst h
        rw [runs_after_cons]
        exact (alike_swap _ _ _).symm.append_left _
      case added.kept =>
        split at h
        · split at h
          · cases h
            exact hempty ‹_›
          · cases h
        · cases h
          have hslide := alike_slide_up _ after (List.take_append_drop _ items')
            (take_append_commonTrail items' items)
          rw [runs, List.reverse_append, reverse_runOf, List.append_assoc]
          refine Alike.append_left _ (hslide.trans ?_)
          exact (alike_runOf _ _).symm.append ((alike_keepAhead _ _).symm.append_left [_])
      case added.removed =>
        subst h
        rw [runs_after_cons]
        exact (alike_swap _ _ _).append_left _
      case added.added =>
        subst h
        exact (alike_join _ _ _ _).append_left _

/-- Sliding down leaves what the runs tell. -/
theorem alike_of_down? (h : c.down? = some c') : Alike c.runs c'.runs := by
  obtain ⟨before, ⟨mark, items⟩, after⟩ := c
  cases after with
  | nil => cases h
  | cons r after =>
      obtain ⟨mark', items'⟩ := r
      rw [runs_after_cons]
      have hempty (hr : items'.isEmpty = true) :
          Alike (before.reverse ++ ⟨mark, items⟩ :: ⟨mark', items'⟩ :: after)
            (runs ⟨before, ⟨mark, items⟩, after⟩) :=
        ((alike_of_isEmpty _ hr).append_left [_]).append_left _
      cases mark <;> cases mark' <;> simp only [down?, Option.some.injEq, reduceCtorEq] at h
      case removed.kept =>
        split at h
        · cases h
          exact hempty ‹_›
        · cases h
      case removed.removed =>
        subst h
        exact (alike_join _ _ _ _).append_left _
      case removed.added =>
        subst h
        rw [runs_before_cons]
        exact (alike_swap _ _ _).append_left _
      case added.kept =>
        split at h
        · split at h
          · cases h
            exact hempty ‹_›
          · cases h
        · cases h
          have hslide := alike_slide_down _ after (List.take_append_drop _ items')
            (commonLead_append_drop items' items)
          refine (hslide.append_left _).trans ?_
          rw [runs, List.append_cons]
          refine (alike_reverse_keepBehind _ _).symm.append ?_
          exact Alike.append_left [_] ((alike_runOf _ _).symm.append_right _)
      case added.removed =>
        subst h
        rw [runs_before_cons]
        exact (alike_swap _ _ _).symm.append_left _
      case added.added =>
        subst h
        exact (alike_join _ _ _ _).append_left _

omit [DecidableEq α] in
theorem alike_repeatMove {move : Cursor α → Option (Cursor α)}
    (hmove : ∀ {c c'}, move c = some c' → Alike c.runs c'.runs) (n : Nat) (c : Cursor α) :
    Alike c.runs (repeatMove move n c).runs := by
  induction n generalizing c with
  | zero => exact .refl _
  | succ n ih =>
      rw [repeatMove]
      split
      · rename_i c' hc
        exact (hmove hc).trans (ih c')
      · exact .refl _

theorem alike_settle (c : Cursor α) : Alike c.runs c.settle.runs :=
  (alike_repeatMove alike_of_up? _ _).trans (alike_repeatMove alike_of_down? _ _)

end Moves

end Cursor

/-! ### All moves, and groups -/

section Changes

variable [DecidableEq α]

theorem alike_slideFrom (mark : Mark) (n : Nat) (before after : List (Run α)) :
    Alike (before.reverse ++ after) (slideFrom mark n before after) := by
  induction n generalizing before after with
  | zero => exact .refl _
  | succ n ih =>
      cases after with
      | nil =>
          rw [List.append_nil]
          exact .refl _
      | cons r after =>
          rw [slideFrom]
          split
          · have hrest := ih ((Cursor.settle ⟨before, r, after⟩).here ::
              (Cursor.settle ⟨before, r, after⟩).before) (Cursor.settle ⟨before, r, after⟩).after
            rw [List.reverse_cons, List.append_assoc] at hrest
            exact (Cursor.alike_settle ⟨before, r, after⟩).trans hrest
          · simpa using ih (r :: before) after

theorem alike_slide (rs : List (Run α)) : Alike rs (slide rs) :=
  (alike_slideFrom .removed _ [] rs).trans (alike_slideFrom .added _ [] _)

omit [DecidableEq α] in
theorem alike_grouped (removed added : List α) (rs : List (Run α)) :
    Alike (⟨.removed, removed⟩ :: ⟨.added, added⟩ :: rs) (grouped removed added rs) := by
  induction rs generalizing removed added with
  | nil => exact .refl _
  | cons r rs ih =>
      obtain ⟨mark, items⟩ := r
      cases mark with
      | removed =>
          refine .trans ?_ (ih (removed ++ items) added)
          refine .trans ((alike_swap items added rs).symm.append_left [_]) ?_
          exact alike_join _ _ _ _
      | added =>
          refine .trans ?_ (ih removed (added ++ items))
          exact (alike_join _ _ _ _).append_left [_]
      | kept =>
          refine Alike.append_left [_, _, _] ?_
          refine .trans ?_ (ih [] [])
          exact (Alike.trans (alike_of_isEmpty _ rfl) (alike_of_isEmpty _ rfl)).symm

end Changes

/-! ### Runs between two lists -/

section Runs

variable [DecidableEq α]

/-- The runs between two lists that have nothing in common at their ends: each list is cut in the
middle of a shortest way. -/
def runsCut (n : Nat) (as bs : List α) : List (Run α) :=
  if as.isEmpty || bs.isEmpty then runOf .removed as ++ runOf .added bs
  else
    match middle? as bs with
    | some (x, y) =>
      runsFrom n (as.take x) (bs.take y) ++ runsFrom n (as.drop x) (bs.drop y)
    | none => runOf .removed as ++ runOf .added bs

/-- What two lists have in common at their ends is kept. -/
theorem exists_runsFrom_succ (n : Nat) (as bs : List α) :
    ∃ lead as' bs' trail, as = lead ++ as' ++ trail ∧ bs = lead ++ bs' ++ trail ∧
      commonLead as' bs' = 0 ∧ commonTrail as' bs' = 0 ∧
      runsFrom (n + 1) as bs = runOf .kept lead ++ runsCut n as' bs' ++ runOf .kept trail := by
  let lead := commonLead as bs
  let as' := as.drop lead
  let bs' := bs.drop lead
  let trail := commonTrail as' bs'
  refine ⟨as.take lead, as'.take (as'.length - trail), bs'.take (bs'.length - trail),
    as'.drop (as'.length - trail), ?_, ?_, ?_, commonTrail_take as' bs', rfl⟩
  · rw [List.append_assoc, List.take_append_drop, List.take_append_drop]
  · rw [List.append_assoc, take_append_commonTrail, commonLead_append_drop]
  · have hle := commonLead_take_le as' bs' (as'.length - trail) (bs'.length - trail)
    rw [commonLead_drop as bs] at hle
    exact Nat.le_zero.mp hle

omit [DecidableEq α] in
theorem sides_replaced (as bs : List α) :
    older (runOf .removed as ++ runOf .added bs) = as ∧
      newer (runOf .removed as ++ runOf .added bs) = bs := by
  have hruns := (alike_runOf as .removed).append (alike_runOf bs .added)
  exact ⟨hruns.older.trans (by simp), hruns.newer.trans (by simp)⟩

theorem sides_runsFrom (n : Nat) (as bs : List α) :
    older (runsFrom n as bs) = as ∧ newer (runsFrom n as bs) = bs := by
  induction n generalizing as bs with
  | zero => exact sides_replaced as bs
  | succ n ih =>
      obtain ⟨lead, as, bs, trail, rfl, rfl, -, -, hruns⟩ := exists_runsFrom_succ n as bs
      have hinner : older (runsCut n as bs) = as ∧ newer (runsCut n as bs) = bs := by
        rw [runsCut]
        split
        · exact sides_replaced as bs
        · split
          · simp [ih]
          · exact sides_replaced as bs
      have hlead := alike_runOf lead .kept
      have htrail := alike_runOf trail .kept
      rw [hruns]
      simp [hinner, hlead.older, hlead.newer, htrail.older, htrail.newer]

/-- The changes between two lists come from the runs between them by moves. -/
theorem alike_between (as bs : List α) : Alike (runs as bs) (between as bs) := by
  refine (alike_slide _).trans (.trans ?_ (alike_grouped [] [] _))
  exact (Alike.trans (alike_of_isEmpty _ rfl) (alike_of_isEmpty _ rfl)).symm

theorem older_between (as bs : List α) : older (between as bs) = as :=
  (alike_between as bs).older.symm.trans (sides_runsFrom _ as bs).1

theorem newer_between (as bs : List α) : newer (between as bs) = bs :=
  (alike_between as bs).newer.symm.trans (sides_runsFrom _ as bs).2

end Runs

end Galley.Diff
