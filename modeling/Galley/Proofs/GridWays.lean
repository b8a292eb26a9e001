import Galley.Proofs.DiffSides

/-!
Ways through the grid of two lists.

A way removes items of one list, adds items of another and passes items that both have. The items
passed on the way to a place are common to what lies in front of it (`Reaches.exists_common`),
and common items are passed on some way (`reaches_of_common`). So a way to the ends of both
lists is as short as the lists have much in common, and every such way can be cut behind any
number of its changes into a way from the start and a way from the end (`exists_split`).
-/

open scoped List

namespace Galley.Diff

variable {α : Type} {as bs cs : List α} {d e x y : Nat}

/-- Some way with `d` changes leads behind the first `x` items of one list and the first `y` items
of another. Behind the end of a list, a way goes on as if there were more items. -/
inductive Reaches (as bs : List α) : Nat → Nat → Nat → Prop
  | start : Reaches as bs 0 0 0
  | remove {d x y : Nat} (h : Reaches as bs d x y) : Reaches as bs (d + 1) (x + 1) y
  | add {d x y : Nat} (h : Reaches as bs d x y) : Reaches as bs (d + 1) x (y + 1)
  | pass {d x y : Nat} {a : α} (ha : as[x]? = some a) (hb : bs[y]? = some a)
      (h : Reaches as bs d x y) : Reaches as bs d (x + 1) (y + 1)

namespace Reaches

theorem left_le (h : Reaches as bs d x y) : x ≤ y + d := by
  induction h <;> omega

theorem right_le (h : Reaches as bs d x y) : y ≤ x + d := by
  induction h <;> omega

theorem changes_le (h : Reaches as bs d x y) : d ≤ x + y := by
  induction h <;> omega

/-- The items passed are common to what lies in front of the place. -/
theorem exists_common (h : Reaches as bs d x y) :
    ∃ cs, cs <+ as.take x ∧ cs <+ bs.take y ∧ x + y = 2 * cs.length + d := by
  induction h with
  | start => exact ⟨[], List.nil_sublist _, List.nil_sublist _, rfl⟩
  | @remove d x y _ ih =>
      obtain ⟨cs, has, hbs, hlen⟩ := ih
      exact ⟨cs, has.trans (List.take_sublist_take_left (Nat.le_succ x)), hbs, by omega⟩
  | @add d x y _ ih =>
      obtain ⟨cs, has, hbs, hlen⟩ := ih
      exact ⟨cs, has, hbs.trans (List.take_sublist_take_left (Nat.le_succ y)), by omega⟩
  | @pass d x y a ha hb _ ih =>
      obtain ⟨cs, has, hbs, hlen⟩ := ih
      refine ⟨cs ++ [a], ?_, ?_, ?_⟩
      · rw [List.take_add_one, ha]
        exact has.append (.refl [a])
      · rw [List.take_add_one, hb]
        exact hbs.append (.refl [a])
      · rw [List.length_append, List.length_singleton]
        omega

end Reaches

/-- Common items of the first items of a list end at the last of these or do without it. -/
theorem sublist_take_succ (h : cs <+ as.take (x + 1)) :
    cs <+ as.take x ∨ ∃ cs' a, cs = cs' ++ [a] ∧ as[x]? = some a ∧ cs' <+ as.take x := by
  rw [List.take_add_one] at h
  obtain ⟨front, last, rfl, hfront, hlast⟩ := List.sublist_append_iff.mp h
  cases ha : as[x]? with
  | none =>
      rw [ha] at hlast
      obtain rfl := List.sublist_nil.mp hlast
      exact .inl (by simpa using hfront)
  | some a =>
      rw [ha] at hlast
      rcases List.sublist_singleton.mp hlast with rfl | rfl
      · exact .inl (by simpa using hfront)
      · exact .inr ⟨front, a, rfl, rfl, hfront⟩

theorem length_le_of_sublist_take (h : cs <+ as.take x) : cs.length ≤ x :=
  Nat.le_trans h.length_le (List.length_take_le x as)

/-- Some way passes given common items. -/
theorem reaches_of_common (has : cs <+ as.take x) (hbs : cs <+ bs.take y)
    (hlen : x + y = 2 * cs.length + d) : Reaches as bs d x y := by
  -- the last item of either list is changed unless the common items end at both
  induction x generalizing cs y d with
  | zero =>
      obtain rfl : cs = [] := List.sublist_nil.mp (by simpa using has)
      obtain rfl : y = d := by simpa using hlen
      clear hbs hlen
      induction y with
      | zero => exact .start
      | succ y ih => exact .add ih
  | succ x ihx =>
      have hx := length_le_of_sublist_take has
      induction y generalizing cs d with
      | zero =>
          obtain rfl : cs = [] := List.sublist_nil.mp (by simpa using hbs)
          obtain rfl : x + 1 = d := by simpa using hlen
          exact .remove (ihx (List.nil_sublist _) hbs (by simp))
      | succ y ihy =>
          have hy := length_le_of_sublist_take hbs
          rcases sublist_take_succ has with has' | ⟨cs₁, a, rfl, ha, hcs₁⟩
          · have hx' := length_le_of_sublist_take has'
            obtain ⟨d, rfl⟩ : ∃ d', d = d' + 1 := ⟨d - 1, by omega⟩
            exact .remove (ihx has' hbs (by omega))
          · rcases sublist_take_succ hbs with hbs' | ⟨cs₂, b, heq, hb, hcs₂⟩
            · have hy' := length_le_of_sublist_take hbs'
              obtain ⟨d, rfl⟩ : ∃ d', d = d' + 1 := ⟨d - 1, by omega⟩
              exact .add (ihy has hbs' (by omega) hx)
            · obtain ⟨rfl, hab⟩ := List.append_inj' heq rfl
              obtain rfl : a = b := by simpa using hab
              refine .pass ha hb (ihx hcs₁ hcs₂ ?_)
              rw [List.length_append, List.length_singleton] at hlen
              omega

/-- A way can be cut behind any number of its changes. -/
theorem Reaches.exists_cut {n : Nat} (h : Reaches as bs n x y) (hn : n = d + e) :
    ∃ u v x' y', x = u + x' ∧ y = v + y' ∧ Reaches as bs d u v ∧
      Reaches (as.drop u) (bs.drop v) e x' y' := by
  -- The induction takes the last step off the way: it belongs to the part behind the cut, or there
  -- is nothing behind it.
  induction h generalizing e with
  | start =>
      obtain ⟨rfl, rfl⟩ : d = 0 ∧ e = 0 := by omega
      exact ⟨0, 0, 0, 0, rfl, rfl, .start, .start⟩
  | @remove n x y h ih =>
      cases e with
      | zero =>
          obtain rfl : n + 1 = d := hn
          exact ⟨x + 1, y, 0, 0, rfl, rfl, h.remove, .start⟩
      | succ e =>
          obtain ⟨u, v, x', y', rfl, rfl, hfront, hback⟩ := ih (by omega : n = d + e)
          exact ⟨u, v, x' + 1, y', rfl, rfl, hfront, hback.remove⟩
  | @add n x y h ih =>
      cases e with
      | zero =>
          obtain rfl : n + 1 = d := hn
          exact ⟨x, y + 1, 0, 0, rfl, rfl, h.add, .start⟩
      | succ e =>
          obtain ⟨u, v, x', y', rfl, rfl, hfront, hback⟩ := ih (by omega : n = d + e)
          exact ⟨u, v, x', y' + 1, rfl, rfl, hfront, hback.add⟩
  | @pass n x y a ha hb h ih =>
      obtain ⟨u, v, x', y', rfl, rfl, hfront, hback⟩ := ih hn
      refine ⟨u, v, x' + 1, y' + 1, rfl, rfl, hfront, .pass (a := a) ?_ ?_ hback⟩
      · rwa [List.getElem?_drop]
      · rwa [List.getElem?_drop]

/-- A way to the ends of both lists leads from their ends as well. -/
theorem Reaches.from_end {u v : Nat} (h : Reaches (as.drop u) (bs.drop v) e x y)
    (hx : u + x = as.length) (hy : v + y = bs.length) : Reaches as.reverse bs.reverse e x y := by
  obtain ⟨cs, has, hbs, hlen⟩ := h.exists_common
  have hbehind {ds : List α} {w z : Nat} (hcs : cs <+ (ds.drop w).take z)
      (hz : w + z = ds.length) : cs.reverse <+ ds.reverse.take z := by
    obtain rfl : w = ds.length - z := by omega
    rw [List.take_reverse]
    exact (hcs.trans (List.take_sublist _ _)).reverse
  refine reaches_of_common (hbehind has hx) (hbehind hbs hy) ?_
  rw [List.length_reverse]
  exact hlen

/-- Given common items, a way from the start and a way from the end meet, whatever number of
changes the first one has. -/
theorem exists_split (has : cs <+ as) (hbs : cs <+ bs)
    (hlen : as.length + bs.length = 2 * cs.length + (d + e)) :
    ∃ u v x y, u + x = as.length ∧ v + y = bs.length ∧ Reaches as bs d u v ∧
      Reaches as.reverse bs.reverse e x y := by
  have hreach : Reaches as bs (d + e) as.length bs.length :=
    reaches_of_common (by rwa [List.take_length]) (by rwa [List.take_length]) hlen
  obtain ⟨u, v, x, y, hx, hy, hfront, hback⟩ := hreach.exists_cut rfl
  exact ⟨u, v, x, y, hx.symm, hy.symm, hfront, hback.from_end hx.symm hy.symm⟩

/-- What lies behind a place has so much in common that `e` changes lead to the ends. -/
def Leaves (as bs : List α) (e x y : Nat) : Prop :=
  ∃ cs, cs <+ as.drop x ∧ cs <+ bs.drop y ∧ as.length + bs.length ≤ x + y + 2 * cs.length + e

/-- From a place that a way from the end gets to, or gets past, its changes lead to the ends. -/
theorem Reaches.leaves {x' y' : Nat} (h : Reaches as.reverse bs.reverse e x' y')
    (hdiag : as.length + y + y' = bs.length + x + x') (hmet : as.length ≤ x + x') :
    Leaves as bs e x y := by
  obtain ⟨cs, has, hbs, hlen⟩ := h.exists_common
  have hbehind {ds : List α} {w z : Nat} (hcs : cs <+ ds.reverse.take z) (hz : ds.length ≤ w + z) :
      cs.reverse.drop (w + z - ds.length) <+ ds.drop w := by
    rw [List.take_reverse] at hcs
    have hdrop := hcs.reverse.drop (w + z - ds.length)
    rw [List.reverse_reverse, List.drop_drop] at hdrop
    exact hdrop.trans (List.drop_sublist_drop_left ds (by omega))
  refine ⟨cs.reverse.drop (x + x' - as.length), hbehind has hmet, ?_, ?_⟩
  · rw [show x + x' - as.length = y + y' - bs.length by omega]
    exact hbehind hbs (by omega)
  · rw [List.length_drop, List.length_reverse]
    omega

variable [DecidableEq α]

/-- If changes lead to the ends from behind common items, they do so from in front of these. -/
theorem Leaves.of_commonLead
    (h : Leaves as bs e (x + commonLead (as.drop x) (bs.drop y))
      (y + commonLead (as.drop x) (bs.drop y))) : Leaves as bs e x y := by
  obtain ⟨cs, has, hbs, hlen⟩ := h
  have hlead := take_commonLead (as.drop x) (bs.drop y)
  have hle := commonLead_le_left (as.drop x) (bs.drop y)
  generalize commonLead (as.drop x) (bs.drop y) = n at *
  refine ⟨(as.drop x).take n ++ cs, ?_, ?_, ?_⟩
  · have hcs := has.append_left ((as.drop x).take n)
    rwa [← List.drop_drop, List.take_append_drop] at hcs
  · have hcs := hbs.append_left ((bs.drop y).take n)
    rwa [← List.drop_drop, List.take_append_drop, ← hlead] at hcs
  · rw [List.length_append, List.length_take, Nat.min_eq_left hle]
    omega

end Galley.Diff
