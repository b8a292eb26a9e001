import Galley.Log
import Galley.Settings.Decode
import Galley.Settings.Environment
import Galley.Settings.File

/-!
Settings from a file and an environment.

A variable of the environment overrides a field of the file, and what neither of
them gives has its default.
-/

namespace Galley.Settings

variable [FormatReaders]

/-- The layers of settings, one put over the other. -/
def layered (file environment : List (String × Json)) : List (String × Json) :=
  fieldsOf (putAll environment (putAll file (.object [])))

/-- The settings in layers. -/
def ofLayers (file environment : List (String × Json)) : Except SettingsFault Settings :=
  match ofFields? (layered file environment) with
  | some s => s.checked
  | none => .error .unreadable

/-- The settings of an environment and a file, if one is named. -/
def load (fs : Files) (path : Option String) (environment : List (String × String)) :
    Logged (Except SettingsFault Settings) := do
  let file ← match path with
    | none => pure (.ok [])
    | some path => do
      Logged.detail ("Loading harness configuration from " ++ path)
      pure (entriesOfFile fs path)
  return file.bind fun file => ofLayers file (entriesOfEnvironment environment)

end Galley.Settings
