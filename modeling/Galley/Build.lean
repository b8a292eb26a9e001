import Galley.Resolver

/-!
Building a model from files, once.

A build collects model files and resolvers while it is pending. Running it
loads the files in order, merges their documents and resolves the result; after
that the build is finished or failed for good, and nothing can be added.
-/

namespace Galley

variable [CallerTypes]

/-- Reads the document of a path. -/
abbrev Loader := FilePath → Attempt Document

/-- How far a build is. -/
inductive BuildState where
  | pending
  | built (model : Model)
  | failed (reason : String)
  deriving Inhabited

/-- Model files, resolvers and the model made of them. -/
structure Build where
  files : List FilePath := []
  resolvers : Registry := []
  state : BuildState := .pending
  deriving Inhabited

def Files.loader (fs : Files) : Loader := fun path =>
  match fs.readText path with
  | .error .missing => Attempt.fail (.missing path)
  | .error cause => Attempt.fail (.unreadable path cause)
  | .ok text =>
    match Document.ofText text with
    | .error cause => Attempt.fail (.malformed path cause)
    | .ok d => do
      Attempt.write .debug
        ("Loaded model file " ++ path.shown ++ " (" ++ toString d.size ++ " top-level keys)")
      return d

namespace Build

def new : Build := {}

def isPending (b : Build) : Bool :=
  match b.state with
  | .pending => true
  | _ => false

def isBuilt (b : Build) : Bool :=
  match b.state with
  | .built _ => true
  | _ => false

def addFiles (b : Build) (paths : List FilePath) : Except ModelFault Build :=
  if b.isPending then .ok { b with files := b.files ++ paths }
  else .error (.order .filesAfterBuild)

def addFile (b : Build) (path : FilePath) : Except ModelFault Build :=
  b.addFiles [path]

def addResolvers (b : Build) (r : Registry) : Except ModelFault Build :=
  if b.isPending then .ok { b with resolvers := b.resolvers ++ r }
  else .error (.order .resolversAfterBuild)

def addResolver (b : Build) (r : Resolver) : Except ModelFault Build :=
  b.addResolvers [r]

def loadOne (load : Loader) (path : FilePath) : Attempt Document := do
  Attempt.write .debug ("Loading model file " ++ path.shown)
  load path

/-- Loads, merges and resolves. -/
def make (load : Loader) (files : List FilePath) (resolvers : Registry) : Attempt Model := do
  let documents ← files.mapM (loadOne load)
  let merged := Document.mergeAll documents
  Attempt.write .debug
    ("Merged model document has " ++ toString merged.size ++ " top-level keys")
  resolvers.resolve merged

/-- The line that tells about a finished build. -/
def finished (b : Build) (m : Model) : String :=
  "Built model with " ++ toString m.size ++ " entries from " ++ toString b.files.length ++
    " files using " ++ toString b.resolvers.length ++ " resolvers"

/-- The state after a build with the given outcome. -/
def settle (b : Build) (outcome : Except ModelFault Model) : Build :=
  match outcome with
  | .ok m => { b with state := .built m }
  | .error f => { b with state := .failed f.message }

/-- Runs a pending build. The outcome is that of making the model; any other
build stays as it is. -/
def run (load : Loader) (b : Build) : Logged (Build × Except ModelFault Model) :=
  if b.isPending then do
    let outcome ← (make load b.files b.resolvers).run
    match outcome with
    | .ok m => Logged.write .info (b.finished m)
    | .error _ => pure ()
    return (b.settle outcome, outcome)
  else pure (b, .error (.order .secondBuild))

def model (b : Build) : Except ModelFault Model :=
  match b.state with
  | .built m => .ok m
  | .pending => .error (.order .beforeBuild)
  | .failed reason => .error (.order (.afterFailure reason))

def shownState : BuildState → String
  | .pending => "Pending"
  | .built m => Text.entries "Built(" ")" [m.shown]
  | .failed reason => Text.entries "Failed(" ")" [Text.quoted reason]

def shown (b : Build) : String :=
  Text.recorded "ExecutionContext"
    [("model_files", Text.listed (b.files.map FilePath.quoted)),
      ("resolvers", b.resolvers.shown), ("state", shownState b.state)]

end Build

end Galley
