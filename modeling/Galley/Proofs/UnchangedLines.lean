import Galley.Proofs.DiffLines
import Galley.Proofs.ShortestCuts

/-!
Lines that a difference shows as unchanged.

The changes between two lists keep as much of either list as the other one has in common with it
(`KeepsMost`), so nothing of a list is changed exactly if the other one has all its items
(`KeepsMost.changed_eq_nil_iff`). The items of a difference are lines with their line feeds, and
the last line of a text in normal form has none. Lines that are among those of another text are
therefore shown as unchanged but for the last one, which the other text has to end in, too
(`unchanged_lines_shown`, `last_line_shown_as_changed`).
-/

open scoped List

namespace Galley

open Text

namespace Diff

/-! ### Kept and changed items -/

section Items

variable {α : Type} {as bs kept changed front : List α} {a : α}

def itemsOf (mark : Mark) (runs : List (Run α)) : List α :=
  ((marked runs).filter fun p => p.1 == mark).map Prod.snd

/-- Some items of a list are kept and the others are changed. Another list has the kept ones, too,
and it has no more in common with the first one. -/
structure KeepsMost (as bs kept changed : List α) : Prop where
  left : kept <+ as
  right : kept <+ bs
  perm : as ~ kept ++ changed
  most : ∀ {cs}, cs <+ as → cs <+ bs → cs.length ≤ kept.length

namespace KeepsMost

theorem kept_eq (h : KeepsMost as bs kept changed) (hsub : as <+ bs) : kept = as :=
  h.left.eq_of_length_le (h.most (.refl as) hsub)

/-- Nothing is changed exactly if the other list has all items. -/
theorem changed_eq_nil_iff (h : KeepsMost as bs kept changed) : changed = [] ↔ as <+ bs := by
  have hlen := h.perm.length_eq
  rw [List.length_append] at hlen
  constructor
  · rintro rfl
    have hall : kept = as := h.left.eq_of_length (by simpa using hlen.symm)
    exact hall ▸ h.right
  · intro hsub
    rw [h.kept_eq hsub] at hlen
    exact List.eq_nil_of_length_eq_zero (by omega)

/-- If the other list has all items but the last one, that one is changed. -/
theorem eq_of_notMem (h : KeepsMost (front ++ [a]) bs kept changed) (hfront : front <+ bs)
    (ha : a ∉ bs) : kept = front ∧ changed = [a] := by
  have hkept : kept = front := by
    obtain ⟨items, last, rfl, hitems, hlast⟩ := List.sublist_append_iff.mp h.left
    rcases List.sublist_singleton.mp hlast with rfl | rfl
    · rw [List.append_nil]
      refine hitems.eq_of_length_le ?_
      simpa using h.most (List.sublist_append_left front [a]) hfront
    · exact absurd (h.right.subset (by simp)) ha
  rw [hkept] at h
  exact ⟨hkept, (List.singleton_perm.mp ((List.perm_append_left_iff front).mp h.perm)).symm⟩

end KeepsMost

/-- Without the runs of one mark, items are kept or have the other mark. -/
theorem parts_marked (runs : List (Run α)) {without other : Mark}
    (hmarks : ∀ mark : Mark, (mark == .kept && mark != without) = (mark == .kept) ∧
      (!(mark == .kept) && mark != without) = (mark == other)) :
    itemsOf .kept runs <+ ((marked runs).filter fun p => p.1 != without).map Prod.snd ∧
      ((marked runs).filter fun p => p.1 != without).map Prod.snd ~
        itemsOf .kept runs ++ itemsOf other runs := by
  have hkept : ((marked runs).filter fun p => p.1 != without).filter (fun p => p.1 == .kept) =
      (marked runs).filter fun p => p.1 == .kept := by
    simp only [List.filter_filter, (hmarks _).1]
  have hchanged : ((marked runs).filter fun p => p.1 != without).filter (fun p => !(p.1 == .kept)) =
      (marked runs).filter fun p => p.1 == other := by
    simp only [List.filter_filter, (hmarks _).2]
  rw [itemsOf, itemsOf, ← List.map_append, ← hkept, ← hchanged]
  exact ⟨List.filter_sublist.map _, (List.filter_append_perm _ _).symm.map _⟩

theorem parts_older (runs : List (Run α)) :
    itemsOf .kept runs <+ older runs ∧
      older runs ~ itemsOf .kept runs ++ itemsOf .removed runs := by
  rw [← older_eq_filter]
  exact parts_marked runs fun mark => by cases mark <;> decide

theorem parts_newer (runs : List (Run α)) :
    itemsOf .kept runs <+ newer runs ∧
      newer runs ~ itemsOf .kept runs ++ itemsOf .added runs := by
  rw [← newer_eq_filter]
  exact parts_marked runs fun mark => by cases mark <;> decide

theorem length_itemsOf_kept (runs : List (Run α)) :
    (itemsOf .kept runs).length = keptCount runs := by
  rw [itemsOf, filter_marked runs (· == .kept), keptCount]
  congr
  funext r
  obtain ⟨mark, items⟩ := r
  cases mark <;> rfl

variable [DecidableEq α]

/-- The changes between two lists keep as much of the first one as the second one has. -/
theorem keepsMost_removed (as bs : List α) :
    KeepsMost as bs (itemsOf .kept (between as bs)) (itemsOf .removed (between as bs)) := by
  obtain ⟨hleft, hperm⟩ := parts_older (between as bs)
  obtain ⟨hright, -⟩ := parts_newer (between as bs)
  rw [older_between] at hleft hperm
  rw [newer_between] at hright
  refine ⟨hleft, hright, hperm, fun has hbs => ?_⟩
  rw [length_itemsOf_kept]
  exact length_le_keptCount_between has hbs

/-- The changes between two lists keep as much of the second one as the first one has. -/
theorem keepsMost_added (as bs : List α) :
    KeepsMost bs as (itemsOf .kept (between as bs)) (itemsOf .added (between as bs)) := by
  obtain ⟨hright, -⟩ := parts_older (between as bs)
  obtain ⟨hleft, hperm⟩ := parts_newer (between as bs)
  rw [older_between] at hright
  rw [newer_between] at hleft hperm
  refine ⟨hleft, hright, hperm, fun hbs has => ?_⟩
  rw [length_itemsOf_kept]
  exact length_le_keptCount_between has hbs

end Items

/-! ### Lines -/

section Lines

variable {ls ms kept changed : List (List Char)}

theorem terminated_concat (ls : List (List Char)) (l : List Char) :
    terminated (ls ++ [l]) = ls.map (· ++ ['\n']) ++ [l] := by
  induction ls with
  | nil => rfl
  | cons m ls ih => rw [List.cons_append, terminated_cons m (by simp), ih]; rfl

theorem terminated_sublist (h : ls <+ ms) (hlast : ls.getLast? = ms.getLast?) :
    terminated ls <+ terminated ms := by
  rcases List.eq_nil_or_concat' ls with rfl | ⟨ls, l, rfl⟩
  · exact List.nil_sublist _
  rcases List.eq_nil_or_concat' ms with rfl | ⟨ms, m, rfl⟩
  · rw [List.sublist_nil.mp h]
  obtain rfl : l = m := by simpa using hlast
  have hfront := (List.append_sublist_append_right [l]).mp h
  rw [terminated_concat, terminated_concat]
  exact (hfront.map _).append_right [l]

theorem last_notMem_terminated {l : List Char} (hl : '\n' ∉ l) (hlast : ms.getLast? ≠ some l) :
    l ∉ terminated ms := by
  rcases List.eq_nil_or_concat' ms with rfl | ⟨ms, m, rfl⟩
  · exact List.not_mem_nil
  rw [terminated_concat]
  intro hmem
  rcases List.mem_append.mp hmem with hmem | hmem
  · obtain ⟨m, -, rfl⟩ := List.mem_map.mp hmem
    exact hl (by simp)
  · rw [List.mem_singleton.mp hmem] at hlast
    exact hlast (by simp)

theorem dropLast_terminated_sublist (h : ls <+ ms) :
    ls.dropLast.map (· ++ ['\n']) <+ terminated ms := by
  have hfront : ls.dropLast <+ ms.dropLast := by
    simpa [List.tail_reverse] using h.reverse.tail.reverse
  rcases List.eq_nil_or_concat' ms with rfl | ⟨ms, m, rfl⟩
  · rw [List.sublist_nil.mp hfront]
    exact List.nil_sublist _
  · rw [List.dropLast_concat] at hfront
    rw [terminated_concat]
    exact (hfront.map _).trans (List.sublist_append_left _ _)

theorem terminated_sublist_iff (hls : ∀ l ∈ ls, '\n' ∉ l) (hms : ∀ l ∈ ms, '\n' ∉ l) :
    terminated ls <+ terminated ms ↔ ls <+ ms ∧ (ls = [] ∨ ls.getLast? = ms.getLast?) := by
  constructor
  · intro h
    have hsub := h.map unterminated
    rw [map_unterminated_terminated hls, map_unterminated_terminated hms] at hsub
    refine ⟨hsub, ?_⟩
    rcases List.eq_nil_or_concat' ls with rfl | ⟨ls, l, rfl⟩
    · exact .inl rfl
    · right
      rw [List.getLast?_concat]
      by_contra hlast
      refine last_notMem_terminated (hls l (by simp)) (Ne.symm hlast) (h.subset ?_)
      rw [terminated_concat]
      simp
  · rintro ⟨hsub, rfl | hlast⟩
    · exact List.nil_sublist _
    · exact terminated_sublist hsub hlast

theorem KeepsMost.changed_lines_eq_nil_iff
    (h : KeepsMost (terminated ls) (terminated ms) kept changed) (hls : ∀ l ∈ ls, '\n' ∉ l)
    (hms : ∀ l ∈ ms, '\n' ∉ l) :
    changed.map unterminated = [] ↔ ls <+ ms ∧ (ls = [] ∨ ls.getLast? = ms.getLast?) := by
  rw [List.map_eq_nil_iff, h.changed_eq_nil_iff, terminated_sublist_iff hls hms]

/-- Of lines that are among others, all but the last one are kept. The last one is changed if the
others end in another line. -/
theorem KeepsMost.lines (h : KeepsMost (terminated ls) (terminated ms) kept changed)
    (hsub : ls <+ ms) (hls : ∀ l ∈ ls, '\n' ∉ l) :
    kept.map unterminated = (if ls.getLast? = ms.getLast? then ls else ls.dropLast) ∧
      changed.map unterminated = if ls.getLast? = ms.getLast? then [] else ls.getLast?.toList := by
  split
  · rename_i hlast
    have hall := terminated_sublist hsub hlast
    rw [h.kept_eq hall, h.changed_eq_nil_iff.mpr hall]
    exact ⟨map_unterminated_terminated hls, rfl⟩
  · rename_i hlast
    rcases List.eq_nil_or_concat' ls with rfl | ⟨ls, l, rfl⟩
    · rw [h.kept_eq (List.nil_sublist _), h.changed_eq_nil_iff.mpr (List.nil_sublist _)]
      exact ⟨rfl, rfl⟩
    · -- Behind the last line stands no line feed here, but one does behind the same line there.
      obtain ⟨hfeeds, hl⟩ := List.forall_mem_append.mp hls
      have hl := hl l (List.mem_singleton_self l)
      have hfront := dropLast_terminated_sublist hsub
      rw [terminated_concat] at h
      rw [List.dropLast_concat] at hfront ⊢
      rw [List.getLast?_concat] at hlast ⊢
      obtain ⟨rfl, rfl⟩ := h.eq_of_notMem hfront (last_notMem_terminated hl (Ne.symm hlast))
      constructor
      · rw [List.map_map]
        exact (List.map_congr_left fun l hl => unterminated_append_newline (hfeeds l hl)).trans
          (List.map_id' ls)
      · rw [List.map_singleton, unterminated_eq_self hl]
        rfl

/-- The lines behind the sign of a mark are the items with it. -/
theorem linesSigned_sign (hls : ∀ l ∈ ls, l ≠ [] ∧ '\n' ∉ l) (hms : ∀ l ∈ ms, l ≠ [] ∧ '\n' ∉ l)
    (mark : Mark) :
    linesSigned [mark.sign] (shown (joinLines ls) (joinLines ms)) =
      (itemsOf mark (between (terminated ls) (terminated ms))).map unterminated := by
  have hsign : (fun p : Mark × List Char => [mark.sign].contains p.1.sign) =
      fun p => p.1 == mark := by
    funext ⟨mark', line⟩
    cases mark <;> cases mark' <;> rfl
  rw [linesSigned_shown hls hms, hsign, itemsOf]

end Lines

end Diff

namespace Normalizer

open Diff

/-- The difference between two texts in normal form, in either direction, shows no line of the
first text as changed exactly if these lines are among those of the second text and both texts end
in the same line, or there are none. If they are among those lines but the texts end in different
ones, it shows the last of them as changed and all others as unchanged. -/
theorem unchanged_lines_shown (n : Normalizer) (s t : List Char) :
    let ls := n.lines s
    let ms := n.lines t
    let forth := shown (n.normalize s) (n.normalize t)
    let back := shown (n.normalize t) (n.normalize s)
    (linesSigned ['-'] forth = [] ↔ ls <+ ms ∧ (ls = [] ∨ ls.getLast? = ms.getLast?)) ∧
    (linesSigned ['+'] back = [] ↔ ls <+ ms ∧ (ls = [] ∨ ls.getLast? = ms.getLast?)) ∧
    (ls <+ ms →
      let unchanged := if ls.getLast? = ms.getLast? then ls else ls.dropLast
      let changed := if ls.getLast? = ms.getLast? then [] else ls.getLast?.toList
      (linesSigned [' '] forth = unchanged ∧ linesSigned ['-'] forth = changed) ∧
        linesSigned [' '] back = unchanged ∧ linesSigned ['+'] back = changed) := by
  intro ls ms forth back
  have hls : ∀ l ∈ ls, l ≠ [] ∧ '\n' ∉ l := fun _ => n.ne_nil_of_mem_lines
  have hms : ∀ l ∈ ms, l ≠ [] ∧ '\n' ∉ l := fun _ => n.ne_nil_of_mem_lines
  have hls' : ∀ l ∈ ls, '\n' ∉ l := fun l hl => (hls l hl).2
  have hms' : ∀ l ∈ ms, '\n' ∉ l := fun l hl => (hms l hl).2
  have hremoved := keepsMost_removed (terminated ls) (terminated ms)
  have hadded := keepsMost_added (terminated ms) (terminated ls)
  have hforth (mark : Mark) : linesSigned [mark.sign] forth = _ := linesSigned_sign hls hms mark
  have hback (mark : Mark) : linesSigned [mark.sign] back = _ := linesSigned_sign hms hls mark
  refine ⟨?_, ?_, fun hsub => ⟨?_, ?_⟩⟩
  · rw [← hremoved.changed_lines_eq_nil_iff hls' hms']
    exact iff_of_eq (congrArg (· = []) (hforth .removed))
  · rw [← hadded.changed_lines_eq_nil_iff hls' hms']
    exact iff_of_eq (congrArg (· = []) (hback .added))
  · obtain ⟨hkept, hchanged⟩ := hremoved.lines hsub hls'
    exact ⟨(hforth .kept).trans hkept, (hforth .removed).trans hchanged⟩
  · obtain ⟨hkept, hchanged⟩ := hadded.lines hsub hls'
    exact ⟨(hback .kept).trans hkept, (hback .added).trans hchanged⟩

/-- A line between two others is added. -/
theorem unchanged_lines_shown_inner_line :
    let n : Normalizer := {}
    let s := "begin\nend".toList
    let t := "begin\n  skip\nend\n".toList
    let forth := shown (n.normalize s) (n.normalize t)
    let back := shown (n.normalize t) (n.normalize s)
    n.lines s <+ n.lines t ∧
      (linesSigned [' '] forth = n.lines s ∧ linesSigned ['-'] forth = []) ∧
      linesSigned [' '] back = n.lines s ∧ linesSigned ['+'] back = [] := by
  intro n s t forth back
  have hsub : n.lines s <+ n.lines t := by decide +kernel
  have hlast : (n.lines s).getLast? = (n.lines t).getLast? := by decide +kernel
  obtain ⟨-, -, hshown⟩ := n.unchanged_lines_shown s t
  have hlines := hshown hsub
  simp only [if_pos hlast] at hlines
  exact ⟨hsub, hlines⟩

/-- With a line behind it, the last line is shown as removed and added. -/
theorem last_line_shown_as_changed :
    let n : Normalizer := {}
    let s := "a".toList
    let t := "a\nb".toList
    let forth := shown (n.normalize s) (n.normalize t)
    n.lines s <+ n.lines t ∧ linesSigned ['-'] forth = ["a".toList] ∧
      linesSigned ['+'] forth = ["a".toList, "b".toList] := by
  decide +kernel

end Normalizer

end Galley
