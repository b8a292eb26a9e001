import Galley.Settings
import Galley.Settings.Key

/-!
From plain values to settings.

Scalars are taken for one another as far as that makes sense: a number is a text
in its shortest form, and a text such as `yes` is a flag. A setting that is absent
has its default.
-/

namespace Galley.Settings

/-- A scalar as a text. A whole number beyond sixty-four bits with a sign is
rounded. -/
def textOf? : Json → Option String
  | .text s => some s
  | .bool b => some (if b then "true" else "false")
  | .number (.whole n) =>
    some (if Number.fitsSigned 64 n then Number.renderWhole n
      else String.ofList (Binary64.ofInt n).positional)
  | .number (.binary x) => some (String.ofList x.positional)
  | _ => none

def flagOf? : Json → Option Bool
  | .bool b => some b
  | .number (.whole n) => some (n ≠ 0)
  | .number (.binary x) => some (!x.isZero)
  | .text s =>
    let word := lowered s
    if word ∈ ["1", "true", "on", "yes"] then some true
    else if word ∈ ["0", "false", "off", "no"] then some false
    else none
  | _ => none

/-- The delimiter in an object, or in a list of its two markers. -/
def delimiterOf? : Json → Option Delimiter
  | .object fields => do
    return ⟨← (Fields.find? "open" fields).bind textOf?,
      ← (Fields.find? "close" fields).bind textOf?⟩
  | .list (opening :: closing :: _) => do
    return ⟨← textOf? opening, ← textOf? closing⟩
  | _ => none

def delimitersOf? : Json → Option (List Delimiter)
  | .list items => items.mapM delimiterOf?
  | _ => none

/-- The path of a file, or nothing for null. -/
def pathOf? : Json → Option (Option FilePath)
  | .null => some none
  | v => (textOf? v).map fun s => some (.named s)

/-- A setting: its default if it is absent. -/
def setting? {α : Type} (fields : List (String × Json)) (name : String) (read? : Json → Option α)
    (default : α) : Option α :=
  match Fields.find? name fields with
  | none => some default
  | some v => read? v

/-- The settings in an object; nothing if one of them cannot be read. -/
def ofFields? (fields : List (String × Json)) : Option Settings := do
  let d : Settings := {}
  return {
    pattern := ← setting? fields "model_glob" textOf? d.pattern
    projectFile := ← setting? fields "project_model_file" pathOf? d.projectFile
    delimiters := ← setting? fields "comment_delimiters" delimitersOf? d.delimiters
    isStrict := ← setting? fields "strict_templates" flagOf? d.isStrict
    scratchLead := ← setting? fields "scratch_prefix" textOf? d.scratchLead
    logLevel := ← setting? fields "log_level" textOf? d.logLevel }

end Galley.Settings
