import Galley.Diff
import Galley.Session
import Galley.Supplement

/-!
Checking the output of a session's template.

The selected template is rendered against the model and a supplement that may
depend on the model. The output is then compared in its normal form, with the
content of a file or with a fragment that it should contain. Nothing here changes
a session.
-/

namespace Galley

variable [CallerTypes]

/-- A computation that keeps a log and may end in a fault of a check. -/
abbrev Check := ExceptT CheckFault Logged

namespace Check

variable {α : Type}

def ofExcept (x : Except CheckFault α) : Check α :=
  ExceptT.mk (pure x)

def detail (text : String) : Check Unit :=
  liftM (Logged.detail text)

/-- The text of a file; a fault is put in the terms of the check. -/
def read (fs : Files) (path : FilePath) (fault : FilePath → ReadFault → CheckFault) :
    Check String :=
  ofExcept ((fs.readText path).mapError (fault path))

end Check

namespace Session

/-- The output of the selected template. -/
def render (s : Session) (fs : Files) (supply : Model → Supplement) : Check String :=
  match s.template with
  | none => throw .noTemplate
  | some path => do
    let m ← Check.ofExcept (s.model.mapError .model)
    let text ← Check.read fs path .unreadableTemplate
    let context ← liftM ((supply m).layOver m)
    ExceptT.mk (s.renderer.render path.shown text context)

def normalized (s : Session) (text : String) : String :=
  String.ofList (s.normalizer.normalize text.toList)

def collapsed (s : Session) (text : String) : String :=
  String.ofList (Normalizer.collapse (s.normalizer.normalize text.toList))

def checkSame (s : Session) (fs : Files) (path : FilePath) (supply : Model → Supplement) :
    Check Unit := do
  let output ← s.render fs supply
  let expected := s.normalized (← Check.read fs path .unreadableExpected)
  let actual := s.normalized output
  if expected = actual then Check.detail ("Output matches " ++ path.shown)
  else
    throw (.mismatch path expected actual
      (String.ofList (Diff.shown expected.toList actual.toList)))

/-- Checks that the output contains a fragment, whatever their indentation. -/
def checkContains (s : Session) (fs : Files) (fragment : String) (supply : Model → Supplement) :
    Check Unit := do
  let output ← s.render fs supply
  let actual := s.collapsed output
  let fragment := s.collapsed fragment
  if Text.occursIn fragment.toList actual.toList then return ()
  else throw (.notContained fragment actual)

end Session

end Galley
