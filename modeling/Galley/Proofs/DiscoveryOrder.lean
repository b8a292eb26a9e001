import Galley.Proofs.Discovered
import Galley.Proofs.FileEndings
import Galley.Proofs.WalkOrder

/-!
What is found below a directory, and in which order.

Paths below one root are ordered as the names that lead down to them
(`Glob.before_pathBelow_iff`). A walk goes in the order of these names, so that the paths of what
it comes to are in order as they are (`Glob.pairwise_map_pathBelow`) and sorting them changes
nothing (`Glob.foundIn_eq`). What is found is thus told by the places of files alone, whatever the
order in which directories list their entries (`Glob.discover_exact_in_order`).
-/

namespace Galley

namespace FilePath

def Before (p q : FilePath) : Prop :=
  p.le q = true ∧ q.le p = false

theorem partsLe_append (front as bs : List PathPart) :
    partsLe (front ++ as) (front ++ bs) = partsLe as bs := by
  have hlt (a : PathPart) : a.lt a = false := by
    cases a <;> simp [PathPart.lt]
  induction front with
  | nil => rfl
  | cons a front ih => simp [partsLe, hlt, ih]

/-- Names are ordered one by one. -/
theorem partsLe_map_name (as bs : List String) :
    partsLe (as.map .name) (bs.map .name) = decide (¬ bs < as) := by
  induction as generalizing bs with
  | nil => simp [partsLe]
  | cons a as ih =>
      cases bs with
      | nil => simp [partsLe]
      | cons b bs =>
          have hlt : (PathPart.name a).lt (.name b) = decide (a < b) := rfl
          rw [List.map_cons, List.map_cons, partsLe, hlt, ih, Bool.eq_iff_iff, Bool.or_eq_true,
            Bool.and_eq_true, beq_iff_eq, PathPart.name.injEq, decide_eq_true_iff,
            decide_eq_true_iff, decide_eq_true_iff, List.cons_lt_cons_iff]
          rcases lt_trichotomy a b with hab | rfl | hba
          · simp [hab, hab.not_gt, hab.ne']
          · simp
          · simp [hba, hba.not_gt, hba.ne']

end FilePath

namespace Glob

variable {g : Glob} {text : String} {names names' : List String}

/-- Paths below one root are ordered as the names that lead down to them. -/
theorem before_pathBelow_iff (htext : text ≠ "") (hnames : ∀ name ∈ names, IsFileName name)
    (hnames' : ∀ name ∈ names', IsFileName name) :
    (pathBelow (.named text) names).Before (pathBelow (.named text) names') ↔ names < names' := by
  rw [FilePath.Before, FilePath.le, FilePath.le, parts_pathBelow htext hnames,
    parts_pathBelow htext hnames', FilePath.partsLe_append, FilePath.partsLe_append,
    FilePath.partsLe_map_name, FilePath.partsLe_map_name, decide_eq_true_iff,
    decide_eq_false_iff_not, not_not]
  exact and_iff_right_of_imp lt_asymm

section Found

variable {root : FilePath} {t t' : FileTree}

/-- The paths of what a walk comes to are in order. -/
theorem pairwise_map_pathBelow (htext : text ≠ "") (ht : t.WellFormed) (q : List String → Bool) :
    ((t.walk.filter q).map (pathBelow (.named text))).Pairwise FilePath.Before := by
  refine List.pairwise_map.mpr (((FileTree.pairwise_walk t ht).filter q).imp_of_mem ?_)
  intro names names' hin hin' hlt
  have hnames {names : List String} (h : names ∈ t.walk.filter q) :
      ∀ name ∈ names, IsFileName name :=
    (FileTree.at?_of_mem_walk t ht names (List.mem_filter.mp h).1).2
  exact (before_pathBelow_iff htext (hnames hin) (hnames hin')).mpr hlt

/-- Sorting what is found changes nothing. -/
theorem foundIn_eq (htext : text ≠ "") (ht : t.WellFormed) (g : Glob) :
    g.foundIn (.named text) t =
      (t.walk.filter fun names => g.covers (String.intercalate "/" names)).map
        (pathBelow (.named text)) :=
  List.mergeSort_of_pairwise ((pairwise_map_pathBelow htext ht _).imp fun h => h.1)

/-- A path is found when it leads down to a file by names that the pattern covers. -/
theorem mem_foundIn_iff (ht : t.WellFormed) {p : FilePath} : p ∈ g.foundIn root t ↔
    ∃ names content, t.at? names = some (.file content) ∧
      g.covers (String.intercalate "/" names) = true ∧ p = pathBelow root names := by
  rw [(foundIn_perm g root t).mem_iff, List.mem_map]
  simp only [List.mem_filter, FileTree.mem_walk_iff ht]
  constructor
  · rintro ⟨names, ⟨⟨content, hat⟩, hcovers⟩, rfl⟩
    exact ⟨names, content, hat, hcovers, rfl⟩
  · rintro ⟨names, content, hat, hcovers, rfl⟩
    exact ⟨names, ⟨⟨content, hat⟩, hcovers⟩, rfl⟩

/-- A search does not tell in which order directories list their entries. -/
theorem discover_reordered {fs : Files} (h : fs.tree.Reordered t') (hfs : fs.tree.WellFormed)
    (g : Glob) (root : FilePath) : g.discover { fs with tree := t' } root = g.discover fs root := by
  cases root with
  | scratch n => rfl
  | named text =>
      rcases h.resolve hfs fs.home text with ⟨f, hf, hf'⟩ | ⟨u, u', hu, hu', hinner, hwellFormed⟩
      · simp only [discover, Files.resolve, hf, hf']
      · have hwalk := hinner.walk_eq hwellFormed
        have hopen := hwellFormed.firstLocked?_eq_none
        have hopen' := (hinner.wellFormed hwellFormed).firstLocked?_eq_none
        cases hinner with
        | file content => simp only [discover, Files.resolve, hu, hu']
        | locked reason => exact hwellFormed.elim
        | dir names inner => simp only [discover, Files.resolve, hu, hu', hopen, hopen', hwalk]

end Found

/-- A search below a directory finds the files that lie below it, at any depth, and whose path
from there the pattern covers. Each is found once, in the order of paths, which is the order in
which a walk by name comes to them. The order in which directories list their entries does not
count. By the default pattern those files are found whose name has one of its two endings. -/
theorem discover_exact_in_order (g : Glob) (fs : Files) (root : FilePath)
    (entries : List (String × FileTree)) (htree : fs.tree.WellFormed)
    (hroot : fs.resolve root = .ok (.dir entries)) :
    ∃ found, (g.discover fs root).outcome = .ok found ∧
      (∀ p, p ∈ found ↔ ∃ names content,
        (FileTree.dir entries).at? names = some (.file content) ∧
        g.covers (String.intercalate "/" names) = true ∧ p = pathBelow root names) ∧
      (∀ names content, (FileTree.dir entries).at? names = some (.file content) →
        fs.resolve (pathBelow root names) = .ok (.file content) ∧
        (pathBelow root names).parts = root.parts ++ names.map .name) ∧
      found.Nodup ∧ found.Pairwise FilePath.Before ∧
      found = ((FileTree.dir entries).walk.filter fun names =>
        g.covers (String.intercalate "/" names)).map (pathBelow root) ∧
      (∀ t', fs.tree.Reordered t' →
        g.discover { fs with tree := t' } root = g.discover fs root) ∧
      (ofText defaultText = .ok g → ∀ p, p ∈ found ↔ ∃ names name content,
        (FileTree.dir entries).at? (names ++ [name]) = some (.file content) ∧
        (∃ stem, name = stem ++ ".yml" ∨ name = stem ++ ".yaml") ∧
        p = pathBelow root (names ++ [name])) := by
  obtain ⟨text, rfl, htext, hresolve⟩ := eq_named_of_resolve hroot
  have ht : (FileTree.dir entries).WellFormed := htree.resolve hresolve
  have heq := foundIn_eq htext ht g
  have hordered : (g.foundIn (.named text) (.dir entries)).Pairwise FilePath.Before :=
    heq ▸ pairwise_map_pathBelow htext ht _
  refine ⟨g.foundIn (.named text) (.dir entries),
    outcome_discover_eq_ok_iff.mpr ⟨entries, hroot, ht.firstLocked?_eq_none, rfl⟩,
    fun p => mem_foundIn_iff ht, ?_, hordered.imp ?_, hordered, heq,
    fun t' h => discover_reordered h htree g _, ?_⟩
  · intro names content hat
    have hnames : ∀ name ∈ names, IsFileName name :=
      (FileTree.at?_of_mem_walk _ ht names ((FileTree.mem_walk_iff ht).mpr ⟨content, hat⟩)).2
    exact ⟨resolve_pathBelow hroot hat hnames, parts_pathBelow htext hnames⟩
  · rintro p _ ⟨hle, hnot⟩ rfl
    rw [hle] at hnot
    cases hnot
  · intro hg p
    rw [mem_foundIn_iff ht]
    constructor
    · rintro ⟨names, content, hat, hcovers, rfl⟩
      rcases List.eq_nil_or_concat names with rfl | ⟨names, name, rfl⟩
      · cases hat
      · rw [List.concat_eq_append] at hat hcovers ⊢
        exact ⟨names, name, content, hat, (covers_default_iff hg names name).mp hcovers, rfl⟩
    · rintro ⟨names, name, content, hat, hending, rfl⟩
      exact ⟨names ++ [name], content, hat, (covers_default_iff hg names name).mpr hending, rfl⟩

/-- A directory beside a file whose name goes on behind that of the directory: the files of the
directory come first, although in texts a slash comes behind a dot. -/
theorem discover_exact_in_order_directory_beside_file :
    let entries : List (String × FileTree) :=
      [("a", .dir [("x.yml", .file (.text ""))]), ("a.yml", .file (.text ""))]
    let fs : Files := { tree := .dir [("models", .dir entries)] }
    fs.tree.WellFormed ∧ ∃ g, ofText defaultText = .ok g ∧
      (g.discover fs (.named "models")).outcome =
        .ok [.named "models/a/x.yml", .named "models/a.yml"] := by
  intro entries fs
  have htree : fs.tree.WellFormed := by
    have hmodels : IsFileName "models" := ⟨rfl, by decide, by decide, by decide⟩
    have hinner : IsFileName "a" := ⟨rfl, by decide, by decide, by decide⟩
    have hfirst : IsFileName "x.yml" := ⟨rfl, by decide, by decide, by decide⟩
    have hsecond : IsFileName "a.yml" := ⟨rfl, by decide, by decide, by decide⟩
    simp [fs, entries, FileTree.WellFormed, FileTree.EntriesWellFormed, hmodels, hinner, hfirst,
      hsecond]
  obtain ⟨g, hg⟩ : ∃ g, ofText defaultText = .ok g := ⟨_, rfl⟩
  obtain ⟨found, hfound, -, -, -, -, hwalk, -⟩ :=
    discover_exact_in_order g fs (.named "models") entries htree rfl
  have hnames : (FileTree.dir entries).walk = [["a", "x.yml"], ["a.yml"]] := by
    rw [FileTree.walk_dir, List.mergeSort_of_pairwise]
    · simp [entries, FileTree.walk_dir]
    · simp [entries]
  have hfirst : g.covers (String.intercalate "/" ["a", "x.yml"]) = true :=
    (covers_default_iff hg ["a"] "x.yml").mpr ⟨"x", .inl rfl⟩
  have hsecond : g.covers (String.intercalate "/" ["a.yml"]) = true :=
    (covers_default_iff hg [] "a.yml").mpr ⟨"a", .inl rfl⟩
  refine ⟨htree, g, hg, hfound.trans (congrArg Except.ok ?_)⟩
  rw [hwalk, hnames]
  simp only [List.filter_cons, hfirst, hsecond, if_true, List.filter_nil]
  rfl

end Glob

end Galley
