import Galley.Discovery
import Galley.Proofs.Outcomes
import Galley.Proofs.Paths

/-!
Places in a tree of files.

A place of a tree is told by the names that lead down to it (`FileTree.at?`). A path leads to
the place that its parts tell once its dots are taken away (`FileTree.at?_of_resolve`). So paths
lead to the same when they tell the same names, however they are spelled
(`Files.resolve_eq_of_address`). Walking a tree lists places of files only
(`FileTree.at?_of_mem_walk`), and comes to all of them unless a directory cannot be listed
(`FileTree.WellFormed.firstLocked?_eq_none`).
-/

namespace Galley

namespace FileTree

/-! ### Following paths -/

/-- What a path leads to, in steps. -/
theorem resolve_eq_ok_iff {t u : FileTree} {home : List String} {path : String} :
    t.resolve home path = .ok u ↔
      path ≠ "" ∧ '\x00' ∉ path.toList ∧ ∃ start p,
        (if path.toList.head? = some '/' then [] else home).foldlM Place.down ⟨[], t⟩ = .ok start ∧
        (pathPieces path.toList).foldlM Place.step start = .ok p ∧ p.here = u := by
  rw [resolve]
  by_cases hempty : path = ""
  · simp [hempty]
  · by_cases hzero : '\x00' ∈ path.toList
    · simp [hempty, hzero]
    · simp only [List.isEmpty_iff, String.toList_eq_nil_iff, hempty, List.contains_eq_mem, hzero,
        decide_false, Bool.false_eq_true, if_false, beq_iff_eq, ne_eq, not_false_eq_true,
        true_and, bind_eq_ok_iff, pure_eq_ok_iff]
      constructor
      · rintro ⟨start, hstart, p, hp, rfl⟩
        exact ⟨start, p, hstart, hp, rfl⟩
      · rintro ⟨start, p, hstart, hp, rfl⟩
        exact ⟨start, hstart, p, hp, rfl⟩

/-! ### Places in a tree -/

/-- The tree at the end of a list of names. -/
def at? : List String → FileTree → Option FileTree
  | [], t => some t
  | name :: rest, t => (t.entry? name).bind (at? rest)

theorem at?_concat (names : List String) (name : String) (t : FileTree) :
    at? (names ++ [name]) t = (at? names t).bind fun u => u.entry? name := by
  induction names generalizing t with
  | nil => simp [at?]
  | cons n names ih =>
      rw [List.cons_append, at?, at?]
      cases t.entry? n with
      | none => rfl
      | some u => exact ih u

/-- The place is reached from a tree by the names. -/
inductive Trail (t : FileTree) : List String → Place → Prop where
  | start : Trail t [] ⟨[], t⟩
  | down {names : List String} {p : Place} {s : String} {u : FileTree} :
      Trail t names p → p.here.entry? s = some u → Trail t (names ++ [s]) ⟨p.here :: p.above, u⟩

section Trails

open FilePath

variable {t : FileTree} {names home : List String} {p q : Place}

theorem Trail.at? (h : Trail t names p) : t.at? names = some p.here := by
  induction h with
  | start => rfl
  | down _ hentry ih => rw [at?_concat, ih, Option.bind_some, hentry]

theorem down_eq_ok_iff {name : String} :
    p.down name = .ok q ↔ ∃ u, p.here.entry? name = some u ∧ q = ⟨p.here :: p.above, u⟩ := by
  rw [Place.down]
  cases p.here.entry? name with
  | none => simp
  | some u => simp [eq_comm]

/-- Names lead down to their place. -/
theorem Trail.downs {more : List String} (h : Trail t names p)
    (hdown : more.foldlM Place.down p = .ok q) : Trail t (names ++ more) q := by
  induction more generalizing names p with
  | nil =>
      cases hdown
      rwa [List.append_nil]
  | cons name more ih =>
      rw [List.foldlM_cons, bind_eq_ok_iff] at hdown
      obtain ⟨r, hr, hq⟩ := hdown
      obtain ⟨u, hentry, rfl⟩ := down_eq_ok_iff.mp hr
      have hmore := ih (h.down hentry) hq
      rwa [List.append_assoc, List.singleton_append] at hmore

/-- One piece of a path leads on in the tree; two dots at the root lead to the root. -/
theorem Trail.step {piece : List Char} (h : Trail t names p) (hstep : p.step piece = .ok q) :
    Trail t ((PathPart.ofPiece? piece).toList.foldl nextNames names) q := by
  rw [Place.step] at hstep
  split at hstep
  · cases hstep
  · split at hstep
    · rename_i hempty
      cases hstep
      rw [List.isEmpty_iff.mp hempty]
      exact h
    · cases hstep
  · rcases ofPiece?_cases piece with hpart | hpart | ⟨s, hpart⟩
    · rw [hpart] at hstep ⊢
      cases hstep
      exact h
    · -- Two dots: a place without a way back is the root, which is its own parent.
      rw [hpart] at hstep ⊢
      cases h with
      | start =>
          cases hstep
          exact .start
      | down hback hentry =>
          cases hstep
          simpa [nextNames] using hback
    · rw [hpart] at hstep ⊢
      dsimp only at hstep
      split at hstep
      · cases hstep
      · obtain ⟨u, hentry, rfl⟩ := down_eq_ok_iff.mp hstep
        exact h.down hentry

/-- The pieces of a path lead to the place of its names. -/
theorem Trail.steps {pieces : List (List Char)} (h : Trail t names p)
    (hsteps : pieces.foldlM Place.step p = .ok q) :
    Trail t ((pieces.filterMap PathPart.ofPiece?).foldl nextNames names) q := by
  induction pieces generalizing names p with
  | nil =>
      cases hsteps
      exact h
  | cons piece pieces ih =>
      rw [List.foldlM_cons, bind_eq_ok_iff] at hsteps
      obtain ⟨r, hr, hq⟩ := hsteps
      have hrest := ih (h.step hr) hq
      cases hpart : PathPart.ofPiece? piece with
      | none =>
          rw [hpart] at hrest
          rwa [List.filterMap_cons_none hpart]
      | some part =>
          rw [hpart] at hrest
          rwa [List.filterMap_cons_some hpart]

/-! ### What paths lead to -/

/-- A path leads to the place that its parts tell. -/
theorem at?_of_resolve {u : FileTree} {path : String} (h : t.resolve home path = .ok u) :
    t.at? ((FilePath.named path).parts.foldl nextNames home) = some u := by
  obtain ⟨-, -, start, p, hstart, hsteps, rfl⟩ := resolve_eq_ok_iff.mp h
  rw [foldl_nextNames_parts]
  exact ((Trail.start.downs hstart).steps hsteps).at?

/-- One name more at the end of the pieces of a path. -/
theorem foldlM_step_concat {pieces : List (List Char)} {name : String} {start : Place}
    {v : FileTree} (hname : IsFileName name) (h : pieces.foldlM Place.step start = .ok p)
    (hentry : p.here.entry? name = some v) :
    (pieces ++ [name.toList]).foldlM Place.step start = .ok ⟨p.here :: p.above, v⟩ := by
  have hstep : p.step name.toList = .ok ⟨p.here :: p.above, v⟩ := by
    rw [Place.step, hname.part]
    cases hhere : p.here with
    | file content => simp [hhere, entry?] at hentry
    | locked reason => simp [hhere, entry?] at hentry
    | dir entries =>
        dsimp only
        rw [if_neg (Nat.not_lt.mpr hname.short)]
        exact down_eq_ok_iff.mpr ⟨v, hentry, by rw [hhere]⟩
  rw [List.foldlM_append, h]
  exact congrArg (· >>= pure) hstep

/-- An empty piece at the end of a path leads nowhere else. -/
theorem foldlM_step_of_concat_nil {pieces : List (List Char)} {start : Place}
    (h : (pieces ++ [[]]).foldlM Place.step start = .ok p) :
    pieces.foldlM Place.step start = .ok p := by
  rw [List.foldlM_append] at h
  cases hfront : pieces.foldlM Place.step start with
  | error f =>
      rw [hfront] at h
      cases h
  | ok q =>
      rw [hfront] at h
      have hlast : (q.step [] >>= pure) = .ok p := h
      cases hhere : q.here with
      | file content => simp [Place.step, hhere] at hlast
      | locked reason => simpa [Place.step, hhere] using hlast
      | dir entries => simpa [Place.step, hhere, PathPart.ofPiece?] using hlast

/-- A path with the name of an entry appended leads to the entry. -/
theorem resolve_joinText {text name : String} {u v : FileTree} (hname : IsFileName name)
    (h : t.resolve home text = .ok u) (hentry : u.entry? name = some v) :
    t.resolve home (FilePath.joinText text name) = .ok v := by
  obtain ⟨htext, hzero, start, p, hstart, hsteps, rfl⟩ := resolve_eq_ok_iff.mp h
  obtain ⟨front, -, hpieces, hjoin⟩ := FilePath.pathPieces_joinText hname htext
  refine resolve_eq_ok_iff.mpr ⟨FilePath.joinText_ne_empty htext, ?_, start,
    ⟨p.here :: p.above, v⟩, ?_, ?_, rfl⟩
  · rcases FilePath.toList_joinText text name with ⟨hempty, -⟩ | ⟨chars, hchars, -, hlist⟩
    · exact absurd hempty htext
    · have hfront : '\x00' ∉ chars := by
        rcases hchars with hchars | hchars <;> rw [hchars] at hzero <;> simp_all
      rw [hlist]
      simp [hfront, hname.noZero]
  · rwa [FilePath.head?_joinText htext]
  · rw [hjoin]
    refine foldlM_step_concat hname ?_ hentry
    rcases hpieces with hpieces | hpieces
    · rw [← hpieces]
      exact hsteps
    · rw [hpieces] at hsteps
      exact foldlM_step_of_concat_nil hsteps

end Trails

/-! ### Walking a tree -/

mutual

/-- Every name in a tree is one that a file can have, the names in each directory are distinct,
and each directory can be listed. -/
def WellFormed : FileTree → Prop
  | .file _ => True
  | .dir entries => (entries.map Prod.fst).Nodup ∧ EntriesWellFormed entries
  | .locked _ => False
termination_by structural t => t

def EntriesWellFormed : List (String × FileTree) → Prop
  | [] => True
  | (name, t) :: rest => IsFileName name ∧ WellFormed t ∧ EntriesWellFormed rest
termination_by structural entries => entries

end

theorem entriesWellFormed_iff {entries : List (String × FileTree)} :
    EntriesWellFormed entries ↔ ∀ e ∈ entries, IsFileName e.1 ∧ e.2.WellFormed := by
  induction entries with
  | nil => simp [EntriesWellFormed]
  | cons e rest ih => simp [EntriesWellFormed, ih, and_assoc]

theorem leavesOfEntries_eq_map (entries : List (String × FileTree)) :
    leavesOfEntries entries = entries.map fun e => (e.1, e.2.leaves) := by
  induction entries with
  | nil => rfl
  | cons e rest ih =>
      rw [leavesOfEntries, ih]
      rfl

/-- The walk of a directory goes through its entries in the order of their names. -/
theorem leaves_dir (entries : List (String × FileTree)) : (FileTree.dir entries).leaves =
    (entries.mergeSort fun a b => decide (a.1 ≤ b.1)).flatMap fun e =>
      e.2.leaves.map fun leaf => (e.1 :: leaf.1, leaf.2) := by
  have hsort : (entries.mergeSort fun a b => decide (a.1 ≤ b.1)).map (fun e => (e.1, e.2.leaves)) =
      (entries.map fun e => (e.1, e.2.leaves)).mergeSort fun a b => decide (a.1 ≤ b.1) :=
    List.map_mergeSort fun _ _ _ _ => rfl
  rw [leaves, leavesOfEntries_eq_map, ← hsort, List.flatMap_map]

/-- Entries in the order of their names are gone through as they stand. -/
theorem leaves_dir_of_sorted {entries : List (String × FileTree)}
    (h : entries.Pairwise fun a b => a.1 ≤ b.1) : (FileTree.dir entries).leaves =
      entries.flatMap fun e => e.2.leaves.map fun leaf => (e.1 :: leaf.1, leaf.2) := by
  rw [leaves_dir, List.mergeSort_of_pairwise (h.imp fun hle => decide_eq_true hle)]

@[simp] theorem walk_file (content : FileContent) : (FileTree.file content).walk = [[]] := rfl

theorem walk_dir (entries : List (String × FileTree)) : (FileTree.dir entries).walk =
    (entries.mergeSort fun a b => decide (a.1 ≤ b.1)).flatMap fun e =>
      e.2.walk.map fun names => e.1 :: names := by
  rw [walk, leaves_dir, List.filterMap_flatMap]
  refine List.flatMap_congr fun e _ => ?_
  rw [walk, List.filterMap_map, List.map_filterMap]
  refine List.filterMap_congr fun leaf _ => ?_
  obtain ⟨names, t⟩ := leaf
  cases t <;> rfl

/-- The walk of a directory visits its entries in some order. -/
theorem walk_dir_perm (entries : List (String × FileTree)) :
    (FileTree.dir entries).walk.Perm
      (entries.flatMap fun e => e.2.walk.map fun names => e.1 :: names) := by
  rw [walk_dir]
  exact (List.mergeSort_perm _ _).flatMap_right _

theorem entry?_of_mem {entries : List (String × FileTree)}
    (hkeys : (entries.map Prod.fst).Nodup) {e : String × FileTree} (he : e ∈ entries) :
    entry? e.1 (.dir entries) = some e.2 := by
  change (entries.find? fun a => a.1 == e.1).map Prod.snd = some e.2
  induction entries with
  | nil => cases he
  | cons a rest ih =>
      rw [List.map_cons, List.nodup_cons] at hkeys
      rcases List.mem_cons.mp he with rfl | hmem
      · simp
      · have hne : a.1 ≠ e.1 := fun heq => hkeys.1 (heq ▸ List.mem_map_of_mem hmem)
        rw [List.find?_cons_of_neg (by simpa using hne)]
        exact ih hkeys.2 hmem

mutual

/-- A walk leads to files by names that files can have. -/
theorem at?_of_mem_walk : ∀ (t : FileTree), t.WellFormed → ∀ names ∈ t.walk,
    (∃ content, t.at? names = some (.file content)) ∧ ∀ name ∈ names, IsFileName name
  | .locked _, h, _, _ => h.elim
  | .file content, _, names, hnames => by
      obtain rfl := List.mem_singleton.mp hnames
      exact ⟨⟨content, rfl⟩, by simp⟩
  | .dir entries, h, names, hnames => by
      obtain ⟨e, he, hwalk⟩ := List.mem_flatMap.mp ((walk_dir_perm entries).mem_iff.mp hnames)
      obtain ⟨rest, hrest, rfl⟩ := List.mem_map.mp hwalk
      obtain ⟨⟨content, hat⟩, hall⟩ := at?_of_mem_walkEntries entries h.2 e he rest hrest
      refine ⟨⟨content, ?_⟩, List.forall_mem_cons.mpr
        ⟨(entriesWellFormed_iff.mp h.2 e he).1, hall⟩⟩
      rw [at?, entry?_of_mem h.1 he, Option.bind_some, hat]

theorem at?_of_mem_walkEntries : ∀ (entries : List (String × FileTree)),
    EntriesWellFormed entries → ∀ e ∈ entries, ∀ names ∈ e.2.walk,
    (∃ content, e.2.at? names = some (.file content)) ∧ ∀ name ∈ names, IsFileName name
  | [], _, _, he => nomatch he
  | (_, t) :: rest, h, e, he => by
      rcases List.mem_cons.mp he with rfl | hrest
      · exact at?_of_mem_walk t h.2.1
      · exact at?_of_mem_walkEntries rest h.2.2 e hrest

end

mutual

/-- A walk of a well-formed tree comes to files only. -/
theorem eq_file_of_mem_leaves : ∀ (t : FileTree), t.WellFormed → ∀ leaf ∈ t.leaves,
    ∃ content, leaf.2 = .file content
  | .locked _, h, _, _ => h.elim
  | .file content, _, _, hleaf => ⟨content, by rw [List.mem_singleton.mp hleaf]⟩
  | .dir entries, h, leaf, hleaf => by
      rw [leaves_dir] at hleaf
      obtain ⟨e, he, hmem⟩ := List.mem_flatMap.mp hleaf
      obtain ⟨inner, hinner, rfl⟩ := List.mem_map.mp hmem
      exact eq_file_of_mem_leavesOfEntries entries h.2 e (List.mem_mergeSort.mp he) inner hinner

theorem eq_file_of_mem_leavesOfEntries : ∀ (entries : List (String × FileTree)),
    EntriesWellFormed entries → ∀ e ∈ entries, ∀ leaf ∈ e.2.leaves,
    ∃ content, leaf.2 = .file content
  | [], _, _, he => nomatch he
  | (_, t) :: rest, h, e, he => by
      rcases List.mem_cons.mp he with rfl | hrest
      · exact eq_file_of_mem_leaves t h.2.1
      · exact eq_file_of_mem_leavesOfEntries rest h.2.2 e hrest

end

/-- A walk of a well-formed tree lists every directory. -/
theorem WellFormed.firstLocked?_eq_none {t : FileTree} (h : t.WellFormed) :
    t.firstLocked? = none := by
  rw [firstLocked?, List.findSome?_eq_none_iff]
  rintro ⟨names, u⟩ hleaf
  obtain ⟨content, hu⟩ := eq_file_of_mem_leaves t h _ hleaf
  obtain rfl : u = .file content := hu
  rfl

/-! ### Trees inside a tree -/

theorem WellFormed.entry? {t u : FileTree} {name : String} (h : t.WellFormed)
    (hentry : t.entry? name = some u) : u.WellFormed := by
  cases t with
  | file content => cases hentry
  | locked reason => cases hentry
  | dir entries =>
      obtain ⟨e, he, rfl⟩ := Option.map_eq_some_iff.mp hentry
      exact (entriesWellFormed_iff.mp h.2 e (List.mem_of_find?_eq_some he)).2

theorem WellFormed.at? {t u : FileTree} {names : List String} (h : t.WellFormed)
    (hat : t.at? names = some u) : u.WellFormed := by
  induction names generalizing t with
  | nil =>
      cases hat
      exact h
  | cons name names ih =>
      obtain ⟨v, hentry, hrest⟩ := Option.bind_eq_some_iff.mp hat
      exact ih (h.entry? hentry) hrest

/-- What a path leads to is as well formed as the tree. -/
theorem WellFormed.resolve {t u : FileTree} {home : List String} {path : String}
    (h : t.WellFormed) (hresolve : t.resolve home path = .ok u) : u.WellFormed :=
  h.at? (at?_of_resolve hresolve)

end FileTree

/-! ### Addresses of paths -/

/-- Paths with the same address lead to the same. -/
theorem Files.resolve_eq_of_address {fs : Files} {p q : FilePath} {t u : FileTree}
    (hp : fs.resolve p = .ok t) (hq : fs.resolve q = .ok u) (h : fs.address p = fs.address q) :
    t = u := by
  cases p with
  | scratch n =>
      cases q with
      | scratch m =>
          obtain rfl : n = m := Sum.inr.inj h
          exact Except.ok.inj (hp.symm.trans hq)
      | named text => cases h
  | named text =>
      cases q with
      | scratch m => cases h
      | named text' =>
          have hat := FileTree.at?_of_resolve hp
          rw [Sum.inl.inj h, FileTree.at?_of_resolve hq] at hat
          exact (Option.some.inj hat).symm

end Galley
