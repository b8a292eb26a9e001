import Galley.CheckFault
import Galley.Files.Tree
import Galley.Glob
import Galley.Scratch

/-!
The settings that assertions share.

Settings are checked before they are used: a pattern for model files, comment
delimiters and a known log level must be there.
-/

namespace Galley

/-- The settings of assertions. -/
structure Settings where
  /-- The pattern for model files below a directory. -/
  pattern : String := Glob.defaultText
  /-- The file that is loaded ahead of the given ones if it exists. -/
  projectFile : Option FilePath := some (.named "module.yml")
  delimiters : List Delimiter := [.docBlock]
  /-- A path of a template that leads nowhere is a fault. -/
  isStrict : Bool := false
  /-- The lead of the names of scratch files. -/
  scratchLead : String := Scratch.defaultLead
  logLevel : String := "warn"
  deriving Inhabited

namespace Settings

def isBlankText (s : String) : Bool :=
  s.toList.all Text.isBlank

/-- The settings if they can be used, or the first fault. -/
def checked (s : Settings) : Except SettingsFault Settings :=
  if isBlankText s.pattern then .error .blankPattern
  else if s.delimiters.isEmpty then .error .noDelimiter
  else if (LogLevel.ofName? s.logLevel).isNone then .error (.unknownLevel s.logLevel)
  else .ok s

def shown (s : Settings) : String :=
  Text.recorded "HarnessConfig"
    [("model_glob", Text.quoted s.pattern),
      ("project_model_file", Text.optional (s.projectFile.map FilePath.quoted)),
      ("comment_delimiters", Text.listed (s.delimiters.map Delimiter.shown)),
      ("strict_templates", if s.isStrict then "true" else "false"),
      ("scratch_prefix", Text.quoted s.scratchLead), ("log_level", Text.quoted s.logLevel)]

/-- Checked settings are the settings themselves. -/
theorem eq_of_checked {s t : Settings} (h : s.checked = .ok t) : t = s := by
  unfold checked at h
  split at h <;> try contradiction
  split at h <;> try contradiction
  split at h <;> try contradiction
  exact (Except.ok.inj h).symm

end Settings

end Galley
