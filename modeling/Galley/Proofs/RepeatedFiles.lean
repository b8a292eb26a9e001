import Galley.Proofs.SessionCalls
import Galley.Proofs.WalkOrder
import Mathlib.Data.List.Nodup

/-!
Files that a build from a directory loads twice.

A search finds each file of a directory once (`Glob.nodup_address_discover`). The project
file comes in front of what was found unless one of the found paths has its parts. Found
paths are spelled as the directory is, with names behind it, so the project file is loaded
a second time when it lies in the directory but is spelled in another way
(`Session.files_repeat_iff`), as a plain name beside a directory given as a dot.
-/

namespace Galley

namespace Glob

variable {g : Glob} {fs : Files} {root : FilePath} {found : List FilePath}

/-- A search goes through the directory that its root leads to. -/
theorem directory_of_discover (htree : fs.tree.WellFormed)
    (h : (g.discover fs root).outcome = .ok found) :
    ∃ text entries, root = .named text ∧ text ≠ "" ∧ fs.resolve root = .ok (.dir entries) ∧
      (FileTree.dir entries).WellFormed ∧ g.foundIn root (.dir entries) = found := by
  obtain ⟨entries, hresolve, -, hfound⟩ := outcome_discover_eq_ok_iff.mp h
  obtain ⟨text, rfl, htext, htextResolve⟩ := eq_named_of_resolve hresolve
  exact ⟨text, entries, rfl, htext, hresolve, htree.resolve htextResolve, hfound⟩

/-- What a search finds are files, by paths spelled as the root with names behind it. -/
theorem names_of_mem_discover (htree : fs.tree.WellFormed)
    (h : (g.discover fs root).outcome = .ok found) {p : FilePath} (hp : p ∈ found) :
    fs.isFile p = true ∧ ∃ names : List String, p.parts = root.parts ++ names.map .name := by
  obtain ⟨text, entries, rfl, htext, hroot, hentries, rfl⟩ := directory_of_discover htree h
  obtain ⟨names, hwalk, rfl⟩ := exists_names_of_mem_foundIn hp
  obtain ⟨⟨content, hat⟩, hnames⟩ := FileTree.at?_of_mem_walk _ hentries names hwalk
  have hfile := resolve_pathBelow hroot hat hnames
  exact ⟨by rw [Files.isFile, hfile], names, parts_pathBelow htext hnames⟩

/-- A search finds no file twice. -/
theorem nodup_address_discover (htree : fs.tree.WellFormed)
    (h : (g.discover fs root).outcome = .ok found) : (found.map fs.address).Nodup := by
  obtain ⟨text, entries, rfl, htext, hroot, hentries, rfl⟩ := directory_of_discover htree h
  rw [((foundIn_perm g (.named text) _).map fs.address).nodup_iff, List.map_map]
  refine ((FileTree.nodup_walk _ hentries).filter _).map_on fun front hfront back hback heq => ?_
  have hnames (names) (hmem : names ∈ (FileTree.dir entries).walk) :
      fs.address (pathBelow (.named text) names) =
        .inl ((FilePath.named text).parts.foldl FilePath.nextNames fs.home ++ names) :=
    address_pathBelow fs htext (FileTree.at?_of_mem_walk _ hentries names hmem).2
  rw [Function.comp_apply, Function.comp_apply, hnames front (List.mem_filter.mp hfront).1,
    hnames back (List.mem_filter.mp hback).1] at heq
  exact List.append_cancel_left (Sum.inl.inj heq)

/-- A path to a found file has the parts of a found path if it is spelled as the root is,
with names behind it. -/
theorem any_same_discover (htree : fs.tree.WellFormed)
    (h : (g.discover fs root).outcome = .ok found) {p : FilePath}
    (hp : fs.address p ∈ found.map fs.address) :
    found.any p.same = true ↔ ∃ names : List String, p.parts = root.parts ++ names.map .name := by
  constructor
  · intro hsame
    obtain ⟨q, hq, hparts⟩ := List.any_eq_true.mp hsame
    obtain ⟨-, names, hnames⟩ := names_of_mem_discover htree h hq
    exact ⟨names, (eq_of_beq hparts).trans hnames⟩
  · rintro ⟨names, hnames⟩
    obtain ⟨q, hq, haddress⟩ := List.mem_map.mp hp
    obtain ⟨-, names', hnames'⟩ := names_of_mem_discover htree h hq
    obtain ⟨text', rfl⟩ := named_of_mem_discover h hq
    cases p with
    | scratch n => cases haddress
    | named text =>
        have heq := Sum.inl.inj haddress
        rw [hnames, hnames', List.foldl_append, List.foldl_append, FilePath.foldl_nextNames,
          FilePath.foldl_nextNames] at heq
        refine List.any_eq_true.mpr ⟨_, hq, beq_iff_eq.mpr ?_⟩
        rw [hnames, hnames', List.append_cancel_left heq]

end Glob

namespace Session

section

variable [CallerTypes]

/-- The files of a build from a directory, beside those that the search found. -/
structure CollectsFound (s : Session) (fs : Files) (directory : FilePath)
    (found files : List FilePath) : Prop where
  /-- What was found are files, each of them once. -/
  isFile : ∀ p ∈ found, fs.isFile p = true
  distinct : (found.map fs.address).Nodup
  /-- At most the project file comes in front. -/
  front : files = found ∨ ∃ project, s.settings.projectFile = some project ∧
    files = project :: found
  /-- A file is loaded twice exactly if it is the project file, was found, and is not spelled
  as names below the directory. -/
  repeats : ¬ (files.map fs.address).Nodup ↔
    ∃ project, s.settings.projectFile = some project ∧ fs.isFile project = true ∧
      fs.address project ∈ found.map fs.address ∧
      ∀ names : List String, project.parts ≠ directory.parts ++ names.map .name

variable {s : Session} {fs : Files} {directory : FilePath} {pattern : Option String}

theorem collectsFound_projectPart (htree : fs.tree.WellFormed) {g : Glob} {found : List FilePath}
    (h : (g.discover fs directory).outcome = .ok found) :
    CollectsFound s fs directory found (s.projectPart fs found ++ found) where
  isFile p hp := (Glob.names_of_mem_discover htree h hp).1
  distinct := Glob.nodup_address_discover htree h
  front := by
    rcases projectPart_cases s fs found with hnone | ⟨project, hone, hproject, -⟩
    · exact .inl (by rw [hnone, List.nil_append])
    · exact .inr ⟨project, hproject, by rw [hone, List.singleton_append]⟩
  repeats := by
    have hfound := Glob.nodup_address_discover htree h
    -- The found files are distinct, so a repetition is that of the project file put in front.
    constructor
    · intro hrepeat
      rcases projectPart_cases s fs found with hnone | ⟨project, hone, hproject, hfile, hsame⟩
      · rw [hnone] at hrepeat
        exact absurd hfound hrepeat
      · rw [hone] at hrepeat
        have hmem : fs.address project ∈ found.map fs.address := by
          by_contra hnot
          exact hrepeat (List.nodup_cons.mpr ⟨hnot, hfound⟩)
        refine ⟨project, hproject, hfile, hmem, fun names hnames => ?_⟩
        have hany := (Glob.any_same_discover htree h hmem).mpr ⟨names, hnames⟩
        exact absurd hany (Bool.eq_false_iff.mp hsame)
    · rintro ⟨project, hproject, hfile, hmem, hspelled⟩ hnodup
      have hsame : found.any project.same = false := by
        rw [Bool.eq_false_iff]
        intro hany
        obtain ⟨names, hnames⟩ := (Glob.any_same_discover htree h hmem).mp hany
        exact hspelled names hnames
      have hfront : s.projectPart fs found = [project] := by
        simp [projectPart, hproject, hfile, hsame]
      rw [hfront] at hnodup
      exact (List.nodup_cons.mp hnodup).1 hmem

/-- A build from a directory loads no file twice, except for a project file that lies in the
directory, is covered by the pattern, and is not spelled as names below the directory:
that one is loaded as the project file and again as it was found. -/
theorem files_repeat_iff (s : Session) (fs : Files) (directory : FilePath)
    (pattern : Option String) (htree : fs.tree.WellFormed)
    (hbuilds : s.builds fs (.loadDirectory directory pattern) = true) :
    ∃ found b, (find fs directory (pattern.getD s.settings.pattern)).outcome = .ok found ∧
      (s.act fs (.loadDirectory directory pattern)).session.build = some b ∧
      CollectsFound s fs directory found b.files := by
  obtain ⟨fs', found, scratch, hloads, hact⟩ := act_of_builds hbuilds
  cases hloads with
  | directory hfind =>
      obtain ⟨g, -, hdiscover⟩ := outcome_find_eq_ok_iff.mp hfind
      refine ⟨found, s.buildOf fs found, hfind, by rw [hact, value_load], ?_⟩
      rw [files_buildOf]
      exact collectsFound_projectPart htree hdiscover

end

/-- The project file lies in the directory that is loaded, beside another file. It is spelled as a
name below the directory, so no file is loaded twice. -/
theorem files_repeat_iff_inner_directory :
    let entries : List (String × FileTree) :=
      [("a.yml", .file (.text "mode: other\n")), ("module.yml", .file (.text "mode: base\n"))]
    let fs : Files := { tree := .dir [("models", .dir entries)] }
    let s : Session := { settings := { projectFile := some (.named "models/module.yml") } }
    fs.tree.WellFormed ∧ fs.isFile (.named "models/module.yml") = true ∧
      s.builds fs (.loadDirectory (.named "models") none) = true ∧
      ∃ found b, (find fs (.named "models") Glob.defaultText).outcome = .ok found ∧
        (s.act fs (.loadDirectory (.named "models") none)).session.build = some b ∧
        CollectsFound s fs (.named "models") found b.files ∧ (b.files.map fs.address).Nodup := by
  intro entries fs s
  have hname : IsFileName "models" ∧ IsFileName "a.yml" ∧ IsFileName "module.yml" := by
    refine ⟨⟨?_, ?_, ?_, ?_⟩, ⟨?_, ?_, ?_, ?_⟩, ⟨?_, ?_, ?_, ?_⟩⟩ <;> decide
  have hentries : (FileTree.dir entries).WellFormed := by
    simp [entries, FileTree.WellFormed, FileTree.EntriesWellFormed, hname]
  have htree : fs.tree.WellFormed := ⟨List.nodup_singleton _, hname.1, hentries, trivial⟩
  have hfile : fs.isFile (.named "models/module.yml") = true := by decide +kernel
  obtain ⟨g, hg⟩ : ∃ g, Glob.ofText? Glob.defaultText = some g :=
    Option.isSome_iff_exists.mp (by decide +kernel)
  have hfind : (find fs (.named "models") s.settings.pattern).outcome = .ok _ :=
    outcome_find_of_foundIn hg rfl hentries.firstLocked?_eq_none rfl
  have hbuilds : s.builds fs (.loadDirectory (.named "models") none) = true := by
    rw [builds, refusal?, Option.getD_none]
    exact hfind ▸ rfl
  obtain ⟨found, b, hfound, hbuild, hcollects⟩ :=
    files_repeat_iff s fs (.named "models") none htree hbuilds
  refine ⟨htree, hfile, hbuilds, found, b, hfound, hbuild, hcollects, ?_⟩
  by_contra hrepeat
  obtain ⟨project, hproject, -, -, hspelled⟩ := hcollects.repeats.mp hrepeat
  cases hproject
  exact hspelled ["module.yml"] (by decide)

/-- The project file beside a directory given as a dot: it is loaded twice, and so its item is
there twice. -/
theorem project_file_found_again :
    let fs : Files := { tree := .dir [("module.yml", .file (.text "services: [a]\n"))] }
    let s := new [.collection "services" .json]
    ∃ b, (s.act fs (.loadDirectory (.named ".") none)).session.build = some b ∧
      b.files = [.named "module.yml", .named "./module.yml"] ∧
      ¬ (b.files.map fs.address).Nodup ∧
      b.model.map (fun m => m.value? "services") = .ok (some (.list [.text "a", .text "a"])) := by
  intro fs s
  have hpattern : ((Glob.ofText? Glob.defaultText).any fun g => g.covers "module.yml") = true := by
    decide +kernel
  obtain ⟨g, hg, hcovers⟩ := (Option.any_eq_true _ _).mp hpattern
  have hleaves : fs.tree.leaves = _ := FileTree.leaves_dir_of_sorted (List.pairwise_singleton _ _)
  have hwalk : fs.tree.walk = [["module.yml"]] := by
    rw [FileTree.walk, hleaves]
    rfl
  have hopen : fs.tree.firstLocked? = none := by
    rw [FileTree.firstLocked?, hleaves]
    rfl
  have hfound : g.foundIn (.named ".") fs.tree = [.named "./module.yml"] := by
    have hname : String.intercalate "/" ["module.yml"] = "module.yml" := by decide
    have hbelow : Glob.pathBelow (.named ".") ["module.yml"] = .named "./module.yml" := by decide
    simp [Glob.foundIn, hwalk, hname, hcovers, hbelow]
  have hfind : (find fs (.named ".") s.settings.pattern).outcome = .ok [.named "./module.yml"] :=
    outcome_find_of_foundIn hg rfl hopen hfound
  have hproject : s.projectPart fs [.named "./module.yml"] = [.named "module.yml"] := by
    decide +kernel
  have hfiles : (s.buildOf fs [.named "./module.yml"]).files =
      [.named "module.yml", .named "./module.yml"] := by
    rw [files_buildOf, hproject]
    rfl
  have hload : fs.loader.LoadsAll [.named "module.yml", .named "./module.yml"]
      [⟨[(.text "services", .seq [.text "a"])]⟩, ⟨[(.text "services", .seq [.text "a"])]⟩] :=
    .cons rfl (.cons rfl .nil)
  refine ⟨s.buildOf fs [.named "./module.yml"], ?_, hfiles, ?_, ?_⟩
  · have hact : s.act fs (.loadDirectory (.named ".") none) =
        (s.load fs [.named "./module.yml"]).value := act_loadDirectory hfind
    rw [hact, value_load]
  · rw [hfiles]
    decide
  · rw [buildOf, hproject]
    dsimp only [List.cons_append, List.nil_append]
    rw [Build.outcomeOf_of_loadsAll hload]
    rfl

end Session

end Galley
