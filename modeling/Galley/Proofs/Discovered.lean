import Galley.Proofs.Outcomes
import Galley.Proofs.Trees

/-!
What is found below a directory.

A search lists the files of a directory's tree that the pattern covers, each by the path
that leads to it from the directory (`Glob.foundIn`).
-/

namespace Galley.Glob

/-! ### Paths below a root -/

section Below

variable {text : String} {names : List String}

theorem pathBelow_named (text : String) (names : List String) :
    ∃ text', pathBelow (.named text) names = .named text' := by
  induction names generalizing text with
  | nil => exact ⟨text, rfl⟩
  | cons name names ih => exact ih _

/-- The parts of a path below a root are those of the root and the names. -/
theorem parts_pathBelow (htext : text ≠ "") (hnames : ∀ name ∈ names, IsFileName name) :
    (pathBelow (.named text) names).parts = (FilePath.named text).parts ++ names.map .name := by
  induction names generalizing text with
  | nil => simp [pathBelow]
  | cons name names ih =>
      obtain ⟨hname, hnames⟩ := List.forall_mem_cons.mp hnames
      have hne : FilePath.joinText text name ≠ "" := FilePath.joinText_ne_empty htext
      have hjoin := ih hne hnames
      rw [FilePath.parts_joinText hname htext, List.append_assoc] at hjoin
      exact hjoin

/-- The address of a path below a root is that of the root and the names. -/
theorem address_pathBelow (fs : Files) (htext : text ≠ "")
    (hnames : ∀ name ∈ names, IsFileName name) :
    fs.address (pathBelow (.named text) names) =
      .inl ((FilePath.named text).parts.foldl FilePath.nextNames fs.home ++ names) := by
  obtain ⟨text', htext'⟩ := pathBelow_named text names
  have hparts := parts_pathBelow htext hnames
  rw [htext'] at hparts ⊢
  rw [Files.address, FilePath.address, hparts, List.foldl_append, FilePath.foldl_nextNames]

/-- A path below a root leads to what the names lead to. -/
theorem resolve_pathBelow {fs : Files} {root : FileTree} {content : FileContent}
    (hroot : fs.resolve (.named text) = .ok root) (hat : root.at? names = some (.file content))
    (hnames : ∀ name ∈ names, IsFileName name) :
    fs.resolve (pathBelow (.named text) names) = .ok (.file content) := by
  induction names generalizing text root with
  | nil =>
      cases hat
      exact hroot
  | cons name names ih =>
      obtain ⟨hname, hnames⟩ := List.forall_mem_cons.mp hnames
      obtain ⟨inner, hentry, hinner⟩ := Option.bind_eq_some_iff.mp hat
      exact ih (FileTree.resolve_joinText hname hroot hentry) hinner hnames

end Below

/-- A directory is reached by a path with a text. -/
theorem eq_named_of_resolve {fs : Files} {root : FilePath} {entries : List (String × FileTree)}
    (h : fs.resolve root = .ok (.dir entries)) :
    ∃ text, root = .named text ∧ text ≠ "" ∧
      fs.tree.resolve fs.home text = .ok (.dir entries) := by
  cases root with
  | named text => exact ⟨text, rfl, (FileTree.resolve_eq_ok_iff.mp h).1, h⟩
  | scratch n =>
      rw [Files.resolve] at h
      split at h <;> cases h

/-! ### Searches -/

/-- The paths of the files of a tree that a pattern covers, in the order of paths. -/
def foundIn (g : Glob) (root : FilePath) (t : FileTree) : List FilePath :=
  ((t.walk.filter fun names => g.covers (String.intercalate "/" names)).map
    (pathBelow root)).mergeSort FilePath.le

variable {g : Glob} {fs : Files} {root : FilePath} {paths : List FilePath}

/-- What is found is what the walk of the tree comes to and the pattern covers. -/
theorem foundIn_perm (g : Glob) (root : FilePath) (t : FileTree) :
    (g.foundIn root t).Perm
      ((t.walk.filter fun names => g.covers (String.intercalate "/" names)).map
        (pathBelow root)) :=
  List.mergeSort_perm _ _

theorem exists_names_of_mem_foundIn {t : FileTree} {p : FilePath} (hp : p ∈ g.foundIn root t) :
    ∃ names ∈ t.walk, pathBelow root names = p := by
  obtain ⟨names, hcovered, hbelow⟩ := List.mem_map.mp ((foundIn_perm g root t).mem_iff.mp hp)
  exact ⟨names, (List.mem_filter.mp hcovered).1, hbelow⟩

/-- A search lists what is found in a directory, if every directory below it can be listed. -/
theorem outcome_discover_eq_ok_iff :
    (g.discover fs root).outcome = .ok paths ↔
      ∃ entries, fs.resolve root = .ok (.dir entries) ∧
        (FileTree.dir entries).firstLocked? = none ∧ g.foundIn root (.dir entries) = paths := by
  rw [discover]
  cases hresolve : fs.resolve root with
  | error f => simp
  | ok t =>
      cases t with
      | file content => simp
      | locked reason =>
          have hlocked : (FileTree.locked reason).firstLocked? = some ([], reason) := rfl
          simp [hlocked]
      | dir entries =>
          cases hlocked : (FileTree.dir entries).firstLocked? with
          | some found => simp [hlocked]
          | none =>
              simp only [hlocked, Attempt.outcome_write_bind, Attempt.outcome_pure,
                Except.ok.injEq, FileTree.dir.injEq, exists_eq_left', true_and]
              rfl

/-- A search is refused for its directory, or for one below it. -/
theorem eq_of_outcome_discover {f : ModelFault} (h : (g.discover fs root).outcome = .error f) :
    ∃ message, f = .notSearched root message := by
  rw [discover] at h
  split at h
  · exact ⟨_, (Except.error.inj h).symm⟩
  · exact ⟨_, (Except.error.inj h).symm⟩
  · split at h
    · exact ⟨_, (Except.error.inj h).symm⟩
    · rw [Attempt.outcome_write_bind, Attempt.outcome_pure] at h
      cases h

/-- Searches in what is found at the same place come to the same. -/
theorem discover_congr {fs' : Files} (h : fs.resolve root = fs'.resolve root) :
    g.discover fs root = g.discover fs' root := by
  rw [discover, discover, h]

/-- What is found lies in the tree of files. -/
theorem named_of_mem_discover (h : (g.discover fs root).outcome = .ok paths) {p : FilePath}
    (hp : p ∈ paths) : ∃ text, p = .named text := by
  obtain ⟨entries, hresolve, -, rfl⟩ := outcome_discover_eq_ok_iff.mp h
  obtain ⟨names, -, rfl⟩ := exists_names_of_mem_foundIn hp
  cases root with
  | named text => exact pathBelow_named text names
  | scratch n =>
      rw [Files.resolve] at hresolve
      split at hresolve <;> cases hresolve

end Galley.Glob
