import Galley.Proofs.BuildStages
import Galley.Proofs.Discovered
import Galley.Proofs.ScratchFiles
import Galley.Session.Check

/-!
Calls on a session.

A call on a session reads it, is refused, or loads a model (`act_cases`). Reading and
refusals change nothing but the selected template. A load puts a new build in the place of
the old one and its scratch file in the place of the old scratch file, whether the build
succeeds or not (`value_load`).
-/

namespace Galley.Session

/-! ### Searches and files -/

section Files

variable {fs : Files}

theorem outcome_find_eq_ok_iff {directory : FilePath} {pattern : String} {paths : List FilePath} :
    (find fs directory pattern).outcome = .ok paths ↔
      ∃ g, Glob.ofText pattern = .ok g ∧ (g.discover fs directory).outcome = .ok paths :=
  Attempt.outcome_bind_eq_ok_iff

/-- A search that goes through lists what its pattern finds in the directory. -/
theorem outcome_find_of_foundIn {directory : FilePath} {pattern : String} {g : Glob}
    {entries : List (String × FileTree)} {paths : List FilePath}
    (hg : Glob.ofText? pattern = some g) (hdirectory : fs.resolve directory = .ok (.dir entries))
    (hopen : (FileTree.dir entries).firstLocked? = none)
    (hfound : g.foundIn directory (.dir entries) = paths) :
    (find fs directory pattern).outcome = .ok paths := by
  refine outcome_find_eq_ok_iff.mpr ⟨g, ?_, ?_⟩
  · rw [Glob.ofText, hg]
  · exact Glob.outcome_discover_eq_ok_iff.mpr ⟨entries, hdirectory, hopen, hfound⟩

/-- A search is refused for its pattern or for its directory. -/
theorem eq_of_outcome_find {directory : FilePath} {pattern : String} {f : ModelFault}
    (h : (find fs directory pattern).outcome = .error f) :
    f = .badPattern pattern ∨ ∃ message, f = .notSearched directory message := by
  rw [find, Attempt.outcome_bind_eq_error_iff, Attempt.outcome_ofExcept] at h
  rcases h with hpattern | ⟨g, -, hdirectory⟩
  · left
    rw [Glob.ofText] at hpattern
    split at hpattern
    · cases hpattern
    · exact (Except.error.inj hpattern).symm
  · exact .inr (Glob.eq_of_outcome_discover hdirectory)

theorem addScratch?_isSome (fs : Files) (lead text : String) :
    (fs.addScratch? lead text).isSome = (Files.acceptsLead lead && fs.hasRoom text) := by
  rw [Files.addScratch?]
  split <;> simp_all

/-- A file that does not load has a fault about loading. -/
theorem isLoadFault_of_loader {p : FilePath} {f : ModelFault}
    (h : (fs.loader p).outcome = .error f) : f.isLoadFault = true := by
  rw [Files.loader] at h
  split at h
  · cases h
    rfl
  · cases h
    rfl
  · split at h
    · cases h
      rfl
    · cases h

end Files

variable [CallerTypes]

/-! ### Calls -/

inductive Call where
  | load (paths : List FilePath)
  | loadDirectory (directory : FilePath) (pattern : Option String)
  | loadText (text : String)
  | selectTemplate (path : FilePath)
  | render (supply : Model → Supplement)
  | checkSame (path : FilePath) (supply : Model → Supplement)
  | checkContains (fragment : String) (supply : Model → Supplement)

namespace Call

def isLoad : Call → Bool
  | load _ | loadDirectory _ _ | loadText _ => true
  | _ => false

/-- No path that a call loads from is that of a scratch file with the given number or a
later one. -/
def Outside (serial : Nat) : Call → Prop
  | load paths => ∀ p ∈ paths, p.Outside serial
  | loadDirectory directory _ => directory.Outside serial
  | _ => True

end Call

/-- One call: the session and the files afterwards, and the outcome. -/
def act (s : Session) (fs : Files) : Call → Loading
  | .load paths => (s.load fs paths).value
  | .loadDirectory directory pattern => (s.loadDirectory fs directory pattern).value
  | .loadText text => (s.loadText fs text).value
  | .selectTemplate path => { session := s.withTemplate path, files := fs, outcome := .ok () }
  | .render supply =>
    { session := s, files := fs, outcome := (s.render fs supply).run.value.map fun _ => () }
  | .checkSame path supply =>
    { session := s, files := fs, outcome := (s.checkSame fs path supply).run.value }
  | .checkContains fragment supply =>
    { session := s, files := fs, outcome := (s.checkContains fs fragment supply).run.value }

def after (s : Session) (fs : Files) (calls : List Call) : Session × Files :=
  calls.foldl (fun now c => ((now.1.act now.2 c).session, (now.1.act now.2 c).files)) (s, fs)

/-- A session with the same settings and resolvers on which nothing was called yet. -/
def fresh (s : Session) : Session :=
  { s with build := none, template := none, scratch := none }

/-- Why a call is refused before anything is built. -/
def refusal? (s : Session) (fs : Files) : Call → Option ModelFault
  | .loadDirectory directory pattern =>
    match (find fs directory (pattern.getD s.settings.pattern)).outcome with
    | .ok _ => none
    | .error f => some f
  | .loadText text =>
    if Files.acceptsLead s.settings.scratchLead && fs.hasRoom text then none else some .io
  | _ => none

def IsRefusal (f : ModelFault) : Prop :=
  (∃ pattern message, f = .badPattern pattern message) ∨
    (∃ directory message, f = .notSearched directory message) ∨ ∃ message, f = .io message

/-- Whether a call gets as far as a build. -/
def builds (s : Session) (fs : Files) (c : Call) : Bool :=
  c.isLoad && (s.refusal? fs c).isNone

/-- What a call loads: files beside a scratch file made for it. -/
inductive Loads (s : Session) (fs : Files) : Call → Files → List FilePath → Option Scratch → Prop
    where
  | files (paths : List FilePath) : Loads s fs (.load paths) fs paths none
  | directory {directory : FilePath} {pattern : Option String} {paths : List FilePath} :
      (find fs directory (pattern.getD s.settings.pattern)).outcome = .ok paths →
      Loads s fs (.loadDirectory directory pattern) fs paths none
  | text {text : String} {t : Scratch} {fs' : Files} :
      fs.addScratch? s.settings.scratchLead text = some (t, fs') →
      Loads s fs (.loadText text) fs' [t.path] (some t)

/-! ### Loading -/

section Loading

variable {s : Session} {fs : Files} {c : Call}

/-- The project file, if it comes in front of the given files. -/
def projectPart (s : Session) (fs : Files) (paths : List FilePath) : List FilePath :=
  match s.settings.projectFile with
  | none => []
  | some project => if fs.isFile project && !paths.any project.same then [project] else []

theorem value_modelFiles (s : Session) (fs : Files) (paths : List FilePath) :
    (s.modelFiles fs paths).value = s.projectPart fs paths ++ paths := by
  rw [modelFiles, projectPart]
  cases s.settings.projectFile with
  | none => rfl
  | some project =>
      dsimp only
      split <;> rfl

/-- The project file comes in front if it is a file and none of the given paths has its
parts. -/
theorem projectPart_cases (s : Session) (fs : Files) (paths : List FilePath) :
    s.projectPart fs paths = [] ∨ ∃ project, s.projectPart fs paths = [project] ∧
      s.settings.projectFile = some project ∧ fs.isFile project = true ∧
      paths.any project.same = false := by
  rw [projectPart]
  split
  · exact .inl rfl
  · rename_i project hproject
    split
    · rename_i hcond
      exact .inr ⟨project, rfl, hproject, by simpa using hcond⟩
    · exact .inl rfl

theorem eq_of_mem_projectPart {paths : List FilePath} {p : FilePath}
    (h : p ∈ s.projectPart fs paths) : s.settings.projectFile = some p := by
  rcases projectPart_cases s fs paths with hnone | ⟨project, hone, hproject, -⟩
  · rw [hnone] at h
    cases h
  · rw [hone, List.mem_singleton] at h
    rw [h, hproject]

def buildOf (s : Session) (fs : Files) (paths : List FilePath) : Build :=
  let files := s.projectPart fs paths ++ paths
  Build.settle { files, resolvers := s.resolvers } (Build.outcomeOf fs.loader files s.resolvers)

theorem files_buildOf (s : Session) (fs : Files) (paths : List FilePath) :
    (s.buildOf fs paths).files = s.projectPart fs paths ++ paths :=
  Build.files_settle _

/-- A load puts its build and its scratch file in the place of the old ones, whatever the
build comes to. -/
theorem value_load (s : Session) (fs : Files) (paths : List FilePath) (scratch : Option Scratch) :
    (s.load fs paths scratch).value =
      { session := { s with build := some (s.buildOf fs paths), scratch }
        files := s.release fs
        outcome := ((Build.outcomeOf fs.loader (s.projectPart fs paths ++ paths) s.resolvers).map
          fun _ => ()).mapError .model } := by
  rw [load, Logged.value_bind, Logged.value_bind, value_modelFiles,
    Build.value_run_of_pending rfl, ← Build.outcomeOf_eq]
  rw [buildOf]
  dsimp only
  cases Build.outcomeOf fs.loader (s.projectPart fs paths ++ paths) s.resolvers <;> rfl

/-- A search that succeeds is followed by a load of what was found. -/
theorem value_loadDirectory (s : Session) (fs : Files) (directory : FilePath)
    (pattern : Option String) :
    (s.loadDirectory fs directory pattern).value =
      match (find fs directory (pattern.getD s.settings.pattern)).outcome with
      | .ok paths => (s.load fs paths).value
      | .error f => s.refuse fs f := by
  rw [loadDirectory, Logged.value_bind, Attempt.outcome]
  cases (find fs directory (pattern.getD s.settings.pattern)).run.value <;> rfl

/-- A call for a directory is the load of what is found in it. -/
theorem act_loadDirectory {directory : FilePath} {pattern : Option String}
    {paths : List FilePath}
    (h : (find fs directory (pattern.getD s.settings.pattern)).outcome = .ok paths) :
    s.act fs (.loadDirectory directory pattern) = (s.load fs paths).value := by
  rw [act, value_loadDirectory, h]

/-- A text is loaded from a new scratch file, if there can be one. -/
theorem value_loadText (s : Session) (fs : Files) (text : String) :
    (s.loadText fs text).value =
      match fs.addScratch? s.settings.scratchLead text with
      | none => s.refuse fs .io
      | some (t, fs') => (s.load fs' [t.path] (some t)).value := by
  rw [loadText, Logged.value_bind, Files.writeScratch]
  cases fs.addScratch? s.settings.scratchLead text <;> rfl

/-! ### What a call does -/

/-- The session after a call that loads nothing. -/
def Call.selecting (s : Session) : Call → Session
  | .selectTemplate path => s.withTemplate path
  | _ => s

theorem act_of_not_isLoad (h : c.isLoad = false) :
    (s.act fs c).session = c.selecting s ∧ (s.act fs c).files = fs := by
  cases c with
  | load paths => cases h
  | loadDirectory directory pattern => cases h
  | loadText text => cases h
  | _ => exact ⟨rfl, rfl⟩

theorem act_of_refusal {f : ModelFault} (h : s.refusal? fs c = some f) :
    s.act fs c = s.refuse fs f := by
  cases c with
  | loadDirectory directory pattern =>
      rw [refusal?] at h
      rw [act, value_loadDirectory]
      cases hfind : (find fs directory (pattern.getD s.settings.pattern)).outcome with
      | ok paths => simp [hfind] at h
      | error g =>
          obtain rfl : g = f := by simpa [hfind] using h
          rfl
  | loadText text =>
      rw [refusal?] at h
      split at h
      · cases h
      · rename_i hlead
        cases h
        have hnone : fs.addScratch? s.settings.scratchLead text = none := by
          simpa [← addScratch?_isSome fs _ text] using hlead
        rw [act, value_loadText, hnone]
  | _ => cases h

/-- A call that is not refused is the load of some files. -/
theorem act_of_builds (h : s.builds fs c = true) :
    ∃ fs' paths scratch, Loads s fs c fs' paths scratch ∧
      s.act fs c = (s.load fs' paths scratch).value := by
  obtain ⟨hload, hrefusal⟩ := Bool.and_eq_true_iff.mp h
  cases c with
  | load paths => exact ⟨fs, paths, none, .files paths, rfl⟩
  | loadDirectory directory pattern =>
      rw [refusal?] at hrefusal
      cases hfind : (find fs directory (pattern.getD s.settings.pattern)).outcome with
      | error g => simp [hfind] at hrefusal
      | ok paths =>
          exact ⟨fs, paths, none, .directory hfind, act_loadDirectory hfind⟩
  | loadText text =>
      have hlead : (Files.acceptsLead s.settings.scratchLead && fs.hasRoom text) = true := by
        by_contra hnot
        simp [refusal?, hnot] at hrefusal
      obtain ⟨⟨t, fs'⟩, hadd⟩ := Option.isSome_iff_exists.mp
        ((addScratch?_isSome fs s.settings.scratchLead text).trans hlead)
      exact ⟨fs', [t.path], some t, .text hadd, by rw [act, value_loadText, hadd]⟩
  | _ => cases hload

/-- A call reads the session, is refused, or loads files. -/
theorem act_cases (s : Session) (fs : Files) (c : Call) :
    (c.isLoad = false ∧ (s.act fs c).session = c.selecting s ∧ (s.act fs c).files = fs) ∨
    (∃ f, s.refusal? fs c = some f ∧ s.act fs c = s.refuse fs f) ∨
    (s.builds fs c = true ∧ ∃ fs' paths scratch, Loads s fs c fs' paths scratch ∧
      s.act fs c = (s.load fs' paths scratch).value) := by
  cases hload : c.isLoad with
  | false => exact .inl ⟨rfl, act_of_not_isLoad hload⟩
  | true =>
      cases hrefusal : s.refusal? fs c with
      | some f => exact .inr (.inl ⟨f, rfl, act_of_refusal hrefusal⟩)
      | none =>
          have hbuilds : s.builds fs c = true := by simp [builds, hload, hrefusal]
          exact .inr (.inr ⟨hbuilds, act_of_builds hbuilds⟩)

/-! ### Faults of calls -/

theorem isRefusal_of_refusal? {f : ModelFault} (h : s.refusal? fs c = some f) : IsRefusal f := by
  cases c with
  | loadDirectory directory pattern =>
      rw [refusal?] at h
      split at h
      · cases h
      · rename_i hfind
        cases h
        rcases eq_of_outcome_find hfind with rfl | ⟨message, rfl⟩
        · exact .inl ⟨_, _, rfl⟩
        · exact .inr (.inl ⟨_, _, rfl⟩)
  | loadText text =>
      rw [refusal?] at h
      split at h
      · cases h
      · cases h
        exact .inr (.inr ⟨_, rfl⟩)
  | _ => cases h

/-- A build fails for a file that does not load or for a resolver. -/
theorem fault_of_builds (h : s.builds fs c = true) {f : ModelFault}
    (hf : (s.act fs c).outcome = .error (.model f)) :
    f.isLoadFault = true ∨ ∃ d, s.resolvers.FirstFault d .empty f := by
  obtain ⟨fs', paths, scratch, -, hact⟩ := act_of_builds h
  rw [hact, value_load] at hf
  cases houtcome : Build.outcomeOf fs'.loader (s.projectPart fs' paths ++ paths) s.resolvers with
  | ok m =>
      rw [houtcome] at hf
      cases hf
  | error g =>
      rw [houtcome] at hf
      cases hf
      rcases Build.outcomeOf_eq_error_iff.mp houtcome with ⟨-, p, -, -, -, hp⟩ | ⟨documents, -, hr⟩
      · exact .inl (isLoadFault_of_loader hp)
      · exact .inr ⟨_, hr⟩

/-- A call with a build replaces build and scratch file, and fails if the build does. -/
theorem act_of_builds_replaces (h : s.builds fs c = true) :
    ∃ fs' paths scratch, Loads s fs c fs' paths scratch ∧
      (s.act fs c).session = { s with build := some (s.buildOf fs' paths), scratch } ∧
      ((s.act fs c).outcome = .ok () ↔ (s.buildOf fs' paths).isBuilt = true) := by
  obtain ⟨fs', paths, scratch, hloads, hact⟩ := act_of_builds h
  refine ⟨fs', paths, scratch, hloads, by rw [hact, value_load], ?_⟩
  rw [hact, value_load, buildOf, Build.isBuilt_settle]
  cases Build.outcomeOf fs'.loader (s.projectPart fs' paths ++ paths) s.resolvers <;>
    simp [Except.map, Except.mapError]

/-- A call that fails with such a fault is refused, unless a resolver fails with it. -/
theorem refusal?_of_isRefusal (hload : c.isLoad = true) {f : ModelFault}
    (hf : (s.act fs c).outcome = .error (.model f)) (hrefusal : IsRefusal f) :
    s.refusal? fs c = some f ∨ ∃ d, s.resolvers.FirstFault d .empty f := by
  rcases act_cases s fs c with ⟨hreads, -⟩ | ⟨g, hg, hact⟩ | ⟨hbuilds, -⟩
  · cases hload.symm.trans hreads
  · rw [hact] at hf
    cases hf
    exact .inl hg
  · rcases fault_of_builds hbuilds hf with hfault | hresolver
    · rcases hrefusal with ⟨_, _, rfl⟩ | ⟨_, _, rfl⟩ | ⟨_, rfl⟩ <;> cases hfault
    · exact .inr hresolver

end Loading

end Galley.Session
