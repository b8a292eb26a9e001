import Galley.Build
import Galley.Discovery
import Galley.NormalForm
import Galley.Renderer
import Galley.Scratch
import Galley.Settings

/-!
Sessions: a model to check templates against.

A session keeps one build and one selected template. Loading a model puts a new
build in the place of the old one, also when the new build fails, and removes the
scratch file of the old one. A model that cannot be looked for, because a pattern,
a directory or a scratch file is refused, leaves the session as it was.
-/

namespace Galley

variable [CallerTypes]

/-- What templates are checked against, and how. -/
structure Session where
  settings : Settings := {}
  resolvers : Registry := []
  renderer : Renderer := ({} : Engine).renderer
  normalizer : Normalizer := {}
  /-- The latest build. -/
  build : Option Build := none
  /-- The selected template. -/
  template : Option FilePath := none
  /-- The scratch file that the latest build was made from. -/
  scratch : Option Scratch := none
  deriving Inhabited

namespace Session

def new (resolvers : Registry) : Session :=
  { resolvers }

/-- The session with given settings, or the reason why they are refused. -/
def ofSettings (resolvers : Registry) (settings : Settings) : Except CheckFault Session := do
  let settings ← settings.checked.mapError .settings
  let normalizer ← (Normalizer.ofDelimiters settings.delimiters).mapError .emptyMarker
  let engine : Engine := { isStrict := settings.isStrict }
  return { settings, resolvers, normalizer, renderer := engine.renderer }

def withRenderer (s : Session) (renderer : Renderer) : Session :=
  { s with renderer }

def withTemplate (s : Session) (path : FilePath) : Session :=
  { s with template := some path }

def model (s : Session) : Except ModelFault Model :=
  match s.build with
  | none => .error (.order .noModel)
  | some b => b.model

/-! ### Loading a model -/

/-- A session after it was asked to load a model, and the files then. -/
structure Loading where
  session : Session
  files : Files
  outcome : Except CheckFault Unit
  deriving Inhabited

/-- A loading that changed nothing. -/
def refuse (s : Session) (fs : Files) (f : ModelFault) : Loading :=
  { session := s, files := fs, outcome := .error (.model f) }

/-- The model files of a build: the project file comes first if there is one and
it is not among the given files. -/
def modelFiles (s : Session) (fs : Files) (paths : List FilePath) : Logged (List FilePath) :=
  match s.settings.projectFile with
  | none => pure paths
  | some project =>
    if fs.isFile project && !paths.any project.same then do
      Logged.detail ("Prepending project model file " ++ project.shown)
      return project :: paths
    else pure paths

/-- The files without the scratch file of the latest build. -/
def release (s : Session) (fs : Files) : Files :=
  match s.scratch with
  | none => fs
  | some scratch => fs.dropScratch scratch

/-- Builds a model from files. The build takes the place of the latest one, and
so does its scratch file. -/
def load (s : Session) (fs : Files) (paths : List FilePath)
    (scratch : Option Scratch := none) : Logged Loading := do
  let files ← s.modelFiles fs paths
  let (build, outcome) ← Build.run fs.loader { files, resolvers := s.resolvers }
  match outcome with
  | .ok m => Logged.detail ("Model ready with " ++ toString m.size ++ " entries")
  | .error _ => pure ()
  return {
    session := { s with build := some build, scratch }
    files := s.release fs
    outcome := (outcome.map fun _ => ()).mapError .model }

def find (fs : Files) (directory : FilePath) (pattern : String) : Attempt (List FilePath) := do
  let g ← Attempt.ofExcept (Glob.ofText pattern)
  g.discover fs directory

/-- Builds a model from the files below a directory that a pattern covers, the one
of the settings if none is given. -/
def loadDirectory (s : Session) (fs : Files) (directory : FilePath)
    (pattern : Option String := none) : Logged Loading := do
  match ← (find fs directory (pattern.getD s.settings.pattern)).run with
  | .ok paths => s.load fs paths
  | .error f => return s.refuse fs f

/-- Builds a model from a text, by way of a scratch file. -/
def loadText (s : Session) (fs : Files) (text : String) : Logged Loading := do
  match ← (fs.writeScratch s.settings.scratchLead text).run with
  | .ok (scratch, fs') => s.load fs' [scratch.path] (some scratch)
  | .error f => return s.refuse fs f

/-! ### Messages -/

def shown (s : Session) : String :=
  Text.recorded "TemplateAssertion"
    [("config", s.settings.shown), ("resolvers", s.resolvers.shown),
      ("context", Text.optional (s.build.map Build.shown)),
      ("template", Text.optional (s.template.map FilePath.quoted)),
      ("scratch_file", Text.optional (s.scratch.map fun t => t.path.quoted))]

end Session

end Galley
