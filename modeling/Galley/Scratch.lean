import Galley.Fault

/-!
Scratch files for model text that is given inline.
-/

namespace Galley

def Scratch.defaultLead : String := "tmplassert-model-"

def Files.writeScratch (fs : Files) (lead text : String) : Attempt (Scratch × Files) :=
  match fs.addScratch? lead text with
  | none => Attempt.fail .io
  | some (s, fs') => do
    Attempt.write .debug ("Wrote inline model to " ++ s.path.shown)
    return (s, fs')

end Galley
