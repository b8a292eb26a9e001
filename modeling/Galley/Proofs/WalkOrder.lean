import Galley.Proofs.Trees
import Mathlib.Data.List.Lex
import Mathlib.Data.List.Sort
import Mathlib.Data.String.Basic

/-!
The order of a walk.

The walk of a tree comes to the places of its files (`FileTree.mem_walk_iff`) in the
lexicographic order of their names (`FileTree.pairwise_walk`), since it goes through the entries
of each directory by name, and to each place once (`FileTree.nodup_walk`). So two trees that
differ in the order of entries only (`FileTree.Reordered`) are walked alike
(`FileTree.Reordered.walk_eq`), and a path leads to the same place in both
(`FileTree.Reordered.resolve`).
-/

namespace Galley.FileTree

variable {t t' u : FileTree} {names : List String} {name : String}
  {entries entries' : List (String × FileTree)}

/-! ### Entries -/

theorem mem_of_entry? (h : entry? name (.dir entries) = some u) : (name, u) ∈ entries := by
  obtain ⟨e, he, rfl⟩ := Option.map_eq_some_iff.mp h
  have hname : e.1 = name := by simpa using List.find?_some he
  exact hname ▸ List.mem_of_find?_eq_some he

theorem entry?_eq_none_iff : entry? name (.dir entries) = none ↔ name ∉ entries.map Prod.fst := by
  rw [FileTree.entry?, Option.map_eq_none_iff, List.find?_eq_none, List.mem_map, not_exists]
  simp

/-! ### What a walk comes to -/

/-- A walk comes to the places where the tree holds a file. -/
theorem mem_walk_iff (h : t.WellFormed) :
    names ∈ t.walk ↔ ∃ content, t.at? names = some (.file content) := by
  refine ⟨fun hnames => (at?_of_mem_walk t h names hnames).1, ?_⟩
  rintro ⟨content, hat⟩
  induction names generalizing t with
  | nil =>
      obtain rfl := Option.some.inj hat
      exact List.mem_singleton_self _
  | cons name names ih =>
      obtain ⟨u, hentry, hat⟩ := Option.bind_eq_some_iff.mp hat
      have hu := ih (h.entry? hentry) hat
      cases t with
      | file content => cases hentry
      | locked reason => cases hentry
      | dir entries =>
          rw [(walk_dir_perm entries).mem_iff]
          exact List.mem_flatMap.mpr
            ⟨(name, u), mem_of_entry? hentry, List.mem_map_of_mem hu⟩

/-- Entries in the order of a walk. -/
theorem pairwise_sorted_entries (h : (entries.map Prod.fst).Nodup) :
    (entries.mergeSort fun a b => decide (a.1 ≤ b.1)).Pairwise fun a b => a.1 < b.1 := by
  have hle : (entries.mergeSort fun a b => decide (a.1 ≤ b.1)).Pairwise
      fun a b => decide (a.1 ≤ b.1) := by
    refine List.pairwise_mergeSort (fun a b c hab hbc => ?_) (fun a b => ?_) _
    · exact decide_eq_true (le_trans (of_decide_eq_true hab) (of_decide_eq_true hbc))
    · simpa using le_total a.1 b.1
  have hne : (entries.mergeSort fun a b => decide (a.1 ≤ b.1)).Pairwise fun a b => a.1 ≠ b.1 :=
    List.pairwise_map.mp (((List.mergeSort_perm _ _).map Prod.fst).nodup_iff.mpr h)
  exact (hle.and hne).imp fun hab => lt_of_le_of_ne (of_decide_eq_true hab.1) hab.2

mutual

/-- A walk goes in the lexicographic order of names. -/
theorem pairwise_walk : ∀ t : FileTree, t.WellFormed → t.walk.Pairwise (· < ·)
  | .locked _, h => h.elim
  | .file _, _ => List.pairwise_singleton _ _
  | .dir entries, h => by
      rw [walk_dir, List.pairwise_flatMap]
      refine ⟨fun e he => ?_, ?_⟩
      · refine (pairwise_walkEntries entries h.2 e (List.mem_mergeSort.mp he)).map _
          fun _ _ hlt => ?_
        exact List.cons_lt_cons_iff.mpr (.inr ⟨rfl, hlt⟩)
      · refine (pairwise_sorted_entries h.1).imp fun hlt names hfirst names' hsecond => ?_
        obtain ⟨_, -, rfl⟩ := List.mem_map.mp hfirst
        obtain ⟨_, -, rfl⟩ := List.mem_map.mp hsecond
        exact List.cons_lt_cons_iff.mpr (.inl hlt)

theorem pairwise_walkEntries : ∀ entries : List (String × FileTree),
    EntriesWellFormed entries → ∀ e ∈ entries, e.2.walk.Pairwise (· < ·)
  | [], _, _, he => nomatch he
  | (_, t) :: rest, h, e, he => by
      rcases List.mem_cons.mp he with rfl | hrest
      · exact pairwise_walk t h.2.1
      · exact pairwise_walkEntries rest h.2.2 e hrest

end

/-- A walk lists no place twice. -/
theorem nodup_walk (t : FileTree) (h : t.WellFormed) : t.walk.Nodup :=
  (pairwise_walk t h).imp fun hlt => ne_of_lt hlt

/-! ### Trees with reordered entries -/

/-- A tree with the entries of its directories in another order. -/
inductive Reordered : FileTree → FileTree → Prop where
  | file (content : FileContent) : Reordered (.file content) (.file content)
  | locked (reason : String) : Reordered (.locked reason) (.locked reason)
  | dir {entries entries' : List (String × FileTree)}
      (names : (entries.map Prod.fst).Perm (entries'.map Prod.fst))
      (inner : ∀ name u u', (name, u) ∈ entries → (name, u') ∈ entries' → Reordered u u') :
      Reordered (.dir entries) (.dir entries')

namespace Reordered

theorem wellFormed (h : t.Reordered t') (ht : t.WellFormed) : t'.WellFormed := by
  induction h with
  | file content => trivial
  | locked reason => exact ht
  | dir names inner ih =>
      refine ⟨names.nodup_iff.mp ht.1, entriesWellFormed_iff.mpr fun e' he' => ?_⟩
      obtain ⟨⟨name, u⟩, hu, hname⟩ := List.mem_map.mp
        (names.mem_iff.mpr (List.mem_map_of_mem he'))
      obtain rfl : name = e'.1 := hname
      obtain ⟨hfile, hinner⟩ := entriesWellFormed_iff.mp ht.2 _ hu
      exact ⟨hfile, ih _ _ _ hu he' hinner⟩

/-- Entries of one name are reordered trees. -/
theorem entry? (h : t.Reordered t') (ht : t.WellFormed) (name : String) :
    Option.Rel Reordered (t.entry? name) (t'.entry? name) := by
  have ht' := h.wellFormed ht
  cases h with
  | file content => exact .none
  | locked reason => exact .none
  | dir names inner =>
      cases hentry : FileTree.entry? name (.dir _) with
      | none =>
          have hnone := entry?_eq_none_iff.mpr
            (mt names.mem_iff.mpr (entry?_eq_none_iff.mp hentry))
          rw [hnone]
          exact .none
      | some u =>
          have hu := mem_of_entry? hentry
          obtain ⟨⟨name', u'⟩, hu', hname⟩ := List.mem_map.mp
            (names.mem_iff.mp (List.mem_map_of_mem hu))
          obtain rfl : name' = name := hname
          have hentry' := entry?_of_mem ht'.1 hu'
          rw [hentry']
          exact .some (inner _ _ _ hu hu')

theorem at? (h : t.Reordered t') (ht : t.WellFormed) (names : List String) :
    Option.Rel Reordered (t.at? names) (t'.at? names) := by
  induction names generalizing t t' with
  | nil => exact .some h
  | cons name names ih =>
      have hentry := h.entry? ht name
      rw [FileTree.at?, FileTree.at?]
      generalize hu : t.entry? name = found at hentry ⊢
      generalize t'.entry? name = found' at hentry ⊢
      cases hentry with
      | none => exact .none
      | some hinner => exact ih hinner (ht.entry? hu)

theorem eq_file_iff {found found' : Option FileTree} (h : Option.Rel Reordered found found')
    (content : FileContent) : found = some (.file content) ↔ found' = some (.file content) := by
  cases h with
  | none => simp
  | some h => cases h <;> simp

/-- Trees that differ in the order of entries only are walked alike. -/
theorem walk_eq (h : t.Reordered t') (ht : t.WellFormed) : t.walk = t'.walk := by
  have ht' := h.wellFormed ht
  have hmem (names : List String) : names ∈ t.walk ↔ names ∈ t'.walk := by
    simp only [mem_walk_iff ht, mem_walk_iff ht', eq_file_iff (h.at? ht names)]
  exact (pairwise_walk t ht).eq_of_mem_iff (pairwise_walk t' ht') hmem

/-! ### Paths in reordered trees -/

/-- Places with reordered trees, here and above. -/
structure Places (p p' : Place) : Prop where
  here : p.here.Reordered p'.here
  hereWellFormed : p.here.WellFormed
  above : List.Forall₂ (fun t t' => t.Reordered t' ∧ t.WellFormed) p.above p'.above

/-- Steps from such places lead to such places again, or to a fault in both. -/
def Steps (x x' : Except ReadFault Place) : Prop :=
  (∃ f, x = .error f ∧ x' = .error f) ∨ ∃ q q', x = .ok q ∧ x' = .ok q' ∧ Places q q'

section Following

variable {p p' : Place}

theorem Steps.bind {x x' : Except ReadFault Place} {f f' : Place → Except ReadFault Place}
    (h : Steps x x') (hf : ∀ q q', Places q q' → Steps (f q) (f' q')) :
    Steps (x >>= f) (x' >>= f') := by
  rcases h with ⟨e, rfl, rfl⟩ | ⟨q, q', rfl, rfl, hplaces⟩
  · exact .inl ⟨e, rfl, rfl⟩
  · exact hf q q' hplaces

/-- Steps one after the other. -/
theorem Places.foldlM {α : Type} {f : Place → α → Except ReadFault Place}
    (hf : ∀ a q q', Places q q' → Steps (f q a) (f q' a)) (as : List α) (h : Places p p') :
    Steps (as.foldlM f p) (as.foldlM f p') := by
  induction as generalizing p p' with
  | nil => exact .inr ⟨p, p', rfl, rfl, h⟩
  | cons a as ih =>
      rw [List.foldlM_cons, List.foldlM_cons]
      exact (hf a p p' h).bind fun _ _ => ih

theorem Places.down (h : Places p p') (name : String) : Steps (p.down name) (p'.down name) := by
  have hentry := h.here.entry? h.hereWellFormed name
  rw [Place.down, Place.down]
  generalize hu : p.here.entry? name = found at hentry ⊢
  generalize p'.here.entry? name = found' at hentry ⊢
  cases hentry with
  | none => exact .inl ⟨_, rfl, rfl⟩
  | some hinner =>
      exact .inr ⟨_, _, rfl, rfl, hinner, h.hereWellFormed.entry? hu,
        .cons ⟨h.here, h.hereWellFormed⟩ h.above⟩

theorem Places.step (h : Places p p') (piece : List Char) :
    Steps (p.step piece) (p'.step piece) := by
  have hdown := h.down
  obtain ⟨above, t⟩ := p
  obtain ⟨above', t'⟩ := p'
  obtain ⟨hhere, ht, habove⟩ := id h
  cases hhere with
  | file content => exact .inl ⟨_, rfl, rfl⟩
  | locked reason => exact ht.elim
  | dir names inner =>
      simp only [Place.step]
      rcases FilePath.ofPiece?_cases piece with hpart | hpart | ⟨s, hpart⟩
      · rw [hpart]
        exact .inr ⟨_, _, rfl, rfl, h⟩
      · rw [hpart]
        cases habove with
        | nil => exact .inr ⟨_, _, rfl, rfl, h⟩
        | cons hnearest habove =>
            exact .inr ⟨_, _, rfl, rfl, hnearest.1, hnearest.2, habove⟩
      · rw [hpart]
        dsimp only
        split
        · exact .inl ⟨_, rfl, rfl⟩
        · exact hdown s

end Following

/-- A path leads to a fault in both trees, or to reordered trees. -/
theorem resolve (h : t.Reordered t') (ht : t.WellFormed) (home : List String) (path : String) :
    (∃ f, t.resolve home path = .error f ∧ t'.resolve home path = .error f) ∨
      ∃ u u', t.resolve home path = .ok u ∧ t'.resolve home path = .ok u' ∧ u.Reordered u' ∧
        u.WellFormed := by
  have hroot : Places ⟨[], t⟩ ⟨[], t'⟩ := ⟨h, ht, .nil⟩
  rw [FileTree.resolve, FileTree.resolve]
  by_cases hempty : path.toList.isEmpty = true
  · exact .inl ⟨_, if_pos hempty, if_pos hempty⟩
  · by_cases hzero : path.toList.contains '\x00' = true
    · simp only [if_neg hempty, if_pos hzero]
      exact .inl ⟨_, rfl, rfl⟩
    · simp only [if_neg hempty, if_neg hzero]
      -- First down to the directory where the path starts, then along its pieces.
      have hstart := hroot.foldlM (fun name _ _ hq => hq.down name)
        (if path.toList.head? == some '/' then [] else home)
      have hstop := hstart.bind fun _ _ hq =>
        hq.foldlM (fun piece _ _ hr => hr.step piece) (pathPieces path.toList)
      rw [← bind_assoc, ← bind_assoc]
      rcases hstop with ⟨f, hf, hf'⟩ | ⟨q, q', hq, hq', hplaces⟩
      · exact .inl ⟨f, by rw [hf]; rfl, by rw [hf']; rfl⟩
      · exact .inr ⟨q.here, q'.here, by rw [hq]; rfl, by rw [hq']; rfl, hplaces.here,
          hplaces.hereWellFormed⟩

end Reordered

end Galley.FileTree
