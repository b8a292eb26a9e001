import Galley.Comment
import Galley.Fault
import Galley.Template.Fault

/-!
What can go wrong when a template is checked against a model.

A fault is an assertion failure when the template was rendered but its output is
not the expected one.
-/

namespace Galley

/-- Why settings are refused. -/
inductive SettingsFault where
  | blankPattern
  | noDelimiter
  | unknownLevel (name : String)
  | unreadable
  | custom (message : String)
  deriving DecidableEq, Inhabited

def SettingsFault.message : SettingsFault → String
  | blankPattern => "model_glob must not be empty"
  | noDelimiter => "comment_delimiters must list at least one delimiter"
  | unknownLevel name => "Unknown log level: " ++ name
  | unreadable => "<config>"
  | custom message => message

/-- What can go wrong between a model, a template and the expected output. -/
inductive CheckFault where
  | model (cause : ModelFault)
  | noTemplate
  | unreadableTemplate (path : FilePath) (cause : ReadFault)
  | render (template : String) (cause : Template.Fault)
  | unreadableExpected (path : FilePath) (cause : ReadFault)
  | emptyMarker (delimiter : Delimiter)
  | settings (cause : SettingsFault)
  | notPlain (cause : PlainFault)
  | mismatch (path : FilePath) (expected actual diff : String)
  | notContained (fragment actual : String)
  deriving Inhabited

namespace CheckFault

def message : CheckFault → String
  | model cause => cause.message
  | noTemplate => "No template selected; call with_template() first"
  | unreadableTemplate path cause =>
    "Failed to read template " ++ path.shown ++ ": " ++ cause.message
  | render template cause => "Failed to render template " ++ template ++ ": " ++ cause.message
  | unreadableExpected path cause =>
    "Failed to read expected output " ++ path.shown ++ ": " ++ cause.message
  | emptyMarker delimiter => "Invalid comment delimiter: empty marker in " ++ delimiter.shown
  | settings cause => "Configuration error: " ++ cause.message
  | notPlain cause => "Serialization error: " ++ cause.message
  | mismatch path expected actual diff =>
    "Generated content does not match " ++ path.shown ++ "\n" ++ diff ++
      "\n--- expected ---\n" ++ expected ++ "\n--- actual ---\n" ++ actual
  | notContained fragment actual =>
    "\n---\n" ++ fragment ++
      "\n---\nThe above content should be included in the following generated code:\n---\n" ++
      actual

/-- Whether a fault is an assertion failure. -/
def isFailure : CheckFault → Bool
  | mismatch _ _ _ _ | notContained _ _ => true
  | _ => false

end CheckFault

end Galley
