import Galley.Settings.Key
import Galley.Text.Blank

/-!
Settings in the variables of an environment.

A variable counts when its name starts with `tmplassert__` in any case. What
follows is a key, in which two underscores stand for a dot. The text is a boolean,
a whole number or a number if it can be read as one.
-/

namespace Galley.Settings

/-- The lead of the names of variables, in lower case. -/
def variableLead : List Char := "tmplassert__".toList

/-- The key in the name of a variable, in lower case. -/
def dotted : List Char → List Char
  | '_' :: '_' :: rest => '.' :: dotted rest
  | c :: rest => c :: dotted rest
  | [] => []

/-- A number that is infinite or none. -/
def readSpecial? (s : List Char) : Option Binary64 :=
  let (negative, rest) := Number.readSign s
  let name := rest.map Char.toLower
  if name == "inf".toList || name == "infinity".toList then some (.infinity negative)
  else if name == "nan".toList then some .nan
  else none

def readNumber? (s : List Char) : Option Number :=
  match (Number.readWhole? s).filter (Number.fitsSigned 64) with
  | some n => some (.whole n)
  | none => ((Number.readBinary? s).orElse fun _ => readSpecial? s).map .binary

def variableValue (text : String) : Json :=
  match lowered text with
  | "true" => .bool true
  | "false" => .bool false
  | _ =>
    match readNumber? text.toList with
    | some n => .number n
    | none => .text text

/-- The key and the value of a variable that counts. -/
def entryOfVariable? (name text : String) : Option (String × Json) :=
  (Text.dropPrefix? variableLead (Text.toLower name.toList)).map fun key =>
    (String.ofList (dotted key), variableValue text)

def entriesOfEnvironment (environment : List (String × String)) : List (String × Json) :=
  environment.filterMap fun v => entryOfVariable? v.1 v.2

end Galley.Settings
