import Galley.Proofs.Overrides
import Galley.Proofs.ReadKeys
import Galley.Proofs.SessionCalls

/-!
The project file as the base of a model.

A project file that is not among the files of a call comes in front of them, and then a
scalar of any other file counts before its own. One that is among them stays where it
stands: it begins the build only if it is the first of them, and its scalars count before
those of the files in front of it (`Session.project_file_leads_iff`).
-/

namespace Galley.Session

open Yaml.Value

theorem distinct_of_loadsAll {fs : Files} {files : List FilePath} {documents : List Document}
    (h : fs.loader.LoadsAll files documents) : ∀ d ∈ documents, d.value.distinct = true := by
  induction h with
  | nil => simp
  | cons hd _ ih => exact List.forall_mem_cons.mpr ⟨Files.distinct_of_loader hd, ih⟩

section

variable [CallerTypes] {s : Session} {fs : Files} {project : FilePath} {paths : List FilePath}

/-- A list of paths begins with a path of the same parts as another one. -/
def LeadsWith (project : FilePath) (paths : List FilePath) : Prop :=
  ∃ first rest, paths = first :: rest ∧ project.same first = true

/-- The project file comes in front unless it is among the given paths. -/
theorem projectPart_append (hproject : s.settings.projectFile = some project)
    (hfile : fs.isFile project = true) (paths : List FilePath) :
    s.projectPart fs paths ++ paths =
      if paths.any project.same then paths else project :: paths := by
  rw [projectPart, hproject]
  by_cases hlisted : paths.any project.same = true
  · simp [hlisted]
  · simp [hlisted, hfile]

theorem leadsWith_projectPart_iff (hproject : s.settings.projectFile = some project)
    (hfile : fs.isFile project = true) (paths : List FilePath) :
    LeadsWith project (s.projectPart fs paths ++ paths) ↔
      (paths.any project.same = true → LeadsWith project paths) := by
  rw [projectPart_append hproject hfile]
  by_cases hlisted : paths.any project.same = true
  · simp [hlisted]
  · have hsame : project.same project = true := beq_self_eq_true _
    simp [hlisted, LeadsWith, hsame]

/-- The model of a build is made of the merge of its documents. -/
theorem model_buildOf_eq_ok_iff {documents : List Document} {m : Model}
    (h : fs.loader.LoadsAll (s.buildOf fs paths).files documents) :
    (s.buildOf fs paths).model = .ok m ↔
      (s.resolvers.resolve (Document.mergeAll documents)).outcome = .ok m := by
  rw [files_buildOf] at h
  rw [buildOf, Build.outcomeOf_of_loadsAll h]
  cases (s.resolvers.resolve (Document.mergeAll documents)).outcome with
  | ok n => simp [Build.settle, Build.model]
  | error f => simp [Build.settle, Build.model]

/-- Where the project file stands in a build, and what it counts there. It comes in front of
the files of a call unless it is among them, so the build begins with it exactly when it is
not among them behind another file. The model is made of the merge of the documents, in
which a scalar makes up for all that the documents in front of it hold at its path, and is
what the merge holds there when the documents behind it are silent. So scalars of a project
file in front give way to those of every other file, and behind another file they do not. -/
theorem project_file_leads_iff (s : Session) (fs : Files) (c : Call) (project : FilePath)
    (hproject : s.settings.projectFile = some project) (hbuilds : s.builds fs c = true) :
    ∃ fs' paths scratch b, Loads s fs c fs' paths scratch ∧
      (s.act fs c).session.build = some b ∧
      (fs'.isFile project = true →
        b.files = (if paths.any project.same then paths else project :: paths) ∧
        (LeadsWith project b.files ↔
          (paths.any project.same = true → LeadsWith project paths))) ∧
      ∀ documents, fs'.loader.LoadsAll b.files documents →
        (∀ m, b.model = .ok m ↔
          (s.resolvers.resolve (Document.mergeAll documents)).outcome = .ok m) ∧
        ∀ front e back path u, documents = front ++ e :: back →
          (∀ k ∈ path, k.distinct = true) → valueAt? path e.value = some u →
          u.isScalar = true →
          valueAt? path (Document.mergeAll documents).value =
            valueAt? path (Document.mergeAll (e :: back)).value ∧
          ((∀ d ∈ back, d.value.SilentAt path) →
            valueAt? path (Document.mergeAll documents).value = some u) := by
  obtain ⟨fs', paths, scratch, hloads, hact⟩ := act_of_builds hbuilds
  refine ⟨fs', paths, scratch, s.buildOf fs' paths, hloads, ?_, ?_, ?_⟩
  · rw [hact, value_load]
  · intro hfile
    rw [files_buildOf]
    exact ⟨projectPart_append hproject hfile paths,
      leadsWith_projectPart_iff hproject hfile paths⟩
  · intro documents hdocuments
    refine ⟨fun m => model_buildOf_eq_ok_iff hdocuments, ?_⟩
    rintro front e back path u rfl hpath hu hscalar
    have hdistinct := distinct_of_loadsAll hdocuments
    refine ⟨Document.mergeAll_at_scalar hdistinct hpath hu hscalar, ?_⟩
    intro hsilent
    exact Document.mergeAll_at_last_scalar hdistinct hpath hu hscalar hsilent

end

/-- A project file beside the one file of a call: it comes in front, and gives way. -/
theorem project_file_leads_iff_beside_file :
    let entries : List (String × FileTree) :=
      [("a.yml", .file (.text "mode: other\n")), ("module.yml", .file (.text "mode: base\n"))]
    let fs : Files := { tree := .dir entries }
    let s := new [.singleSection "mode" .text]
    let c : Call := .load [.named "a.yml"]
    s.settings.projectFile = some (.named "module.yml") ∧ s.builds fs c = true ∧
      ∃ b documents, (s.act fs c).session.build = some b ∧
        b.files = [.named "module.yml", .named "a.yml"] ∧
        fs.loader.LoadsAll b.files documents ∧
        valueAt? [.text "mode"] (Document.mergeAll documents).value = some (.text "other") := by
  intro entries fs s c
  have hbuilds : s.builds fs c = true := rfl
  refine ⟨rfl, hbuilds, ?_⟩
  obtain ⟨fs', paths, scratch, b, hloads, hbuild, hfront, hmerge⟩ :=
    project_file_leads_iff s fs c (.named "module.yml") rfl hbuilds
  have hloads : Loads s fs (.load [.named "a.yml"]) fs' paths scratch := hloads
  cases hloads with
  | files =>
      have hfiles : b.files = [.named "module.yml", .named "a.yml"] :=
        (hfront (by decide +kernel)).1
      have hdocuments : fs.loader.LoadsAll b.files
          [⟨[(.text "mode", .text "base")]⟩, ⟨[(.text "mode", .text "other")]⟩] := by
        rw [hfiles]
        exact .cons rfl (.cons rfl .nil)
      refine ⟨b, _, hbuild, hfiles, hdocuments, ?_⟩
      obtain ⟨-, hscalars⟩ := hmerge _ hdocuments
      exact (hscalars [⟨[(.text "mode", .text "base")]⟩] ⟨[(.text "mode", .text "other")]⟩ []
        [.text "mode"] (.text "other") rfl (by simp [Yaml.Value.distinct]) rfl rfl).2 (by simp)

/-- A project file that a search finds behind another file: the build begins with the other
file, and the value of the project file is the one in the model. -/
theorem project_file_found_behind :
    let entries : List (String × FileTree) :=
      [("a.yml", .file (.text "mode: other\n")), ("module.yml", .file (.text "mode: base\n"))]
    let fs : Files := { tree := .dir [("models", .dir entries)] }
    let s : Session :=
      { settings := { projectFile := some (.named "models/module.yml") }
        resolvers := [.singleSection "mode" .text] }
    fs.isFile (.named "models/module.yml") = true ∧
      ∃ b, (s.act fs (.loadDirectory (.named "models") none)).session.build = some b ∧
        b.files = [.named "models/a.yml", .named "models/module.yml"] ∧
        b.model.map (fun m => m.value? "mode") = .ok (some (.text "base")) := by
  intro entries fs s
  let paths : List FilePath := [.named "models/a.yml", .named "models/module.yml"]
  have hfile : fs.isFile (.named "models/module.yml") = true := by decide +kernel
  have hpattern : ((Glob.ofText? Glob.defaultText).any fun g =>
      g.covers "a.yml" && g.covers "module.yml") = true := by
    decide +kernel
  obtain ⟨g, hg, hcovers⟩ := (Option.any_eq_true _ _).mp hpattern
  obtain ⟨hfirst, hsecond⟩ := Bool.and_eq_true_iff.mp hcovers
  have hleaves : (FileTree.dir entries).leaves = _ :=
    FileTree.leaves_dir_of_sorted (by simp [entries])
  have hwalk : (FileTree.dir entries).walk = [["a.yml"], ["module.yml"]] := by
    rw [FileTree.walk, hleaves]
    rfl
  have hopen : (FileTree.dir entries).firstLocked? = none := by
    rw [FileTree.firstLocked?, hleaves]
    rfl
  have hfound : g.foundIn (.named "models") (.dir entries) = paths := by
    have hnames : String.intercalate "/" ["a.yml"] = "a.yml" ∧
        String.intercalate "/" ["module.yml"] = "module.yml" := by decide
    have hbelow : Glob.pathBelow (.named "models") ["a.yml"] = .named "models/a.yml" ∧
        Glob.pathBelow (.named "models") ["module.yml"] = .named "models/module.yml" := by decide
    have hsorted : paths.Pairwise fun p q => p.le q = true := by decide
    rw [Glob.foundIn, hwalk]
    simp [hnames, hfirst, hsecond, hbelow, paths, List.mergeSort_of_pairwise hsorted]
  have hfind : (find fs (.named "models") Glob.defaultText).outcome = .ok paths :=
    outcome_find_of_foundIn hg rfl hopen hfound
  have hfiles : (s.buildOf fs paths).files = paths := by
    rw [files_buildOf, @projectPart_append _ s fs (.named "models/module.yml") rfl hfile]
    rfl
  refine ⟨hfile, s.buildOf fs paths, ?_, hfiles, ?_⟩
  · have hact : s.act fs (.loadDirectory (.named "models") none) = (s.load fs paths).value :=
      act_loadDirectory hfind
    rw [hact, value_load]
  · have hload : fs.loader.LoadsAll (s.buildOf fs paths).files
        [⟨[(.text "mode", .text "other")]⟩, ⟨[(.text "mode", .text "base")]⟩] := by
      rw [hfiles]
      exact .cons rfl (.cons rfl .nil)
    obtain ⟨m, hm, hmode⟩ : ∃ m, (s.resolvers.resolve (Document.mergeAll
        [⟨[(.text "mode", .text "other")]⟩, ⟨[(.text "mode", .text "base")]⟩])).outcome = .ok m ∧
        m.value? "mode" = some (.text "base") := ⟨_, rfl, rfl⟩
    rw [(model_buildOf_eq_ok_iff hload).mpr hm]
    exact congrArg Except.ok hmode

end Galley.Session
