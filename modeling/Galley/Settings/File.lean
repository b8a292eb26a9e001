import Galley.CheckFault
import Galley.Files.Tree
import Galley.Json.Reader
import Galley.Settings.Key
import Galley.Toml.Reader
import Galley.Yaml.Reader

/-!
Settings in files.

The last extension of a name tells the format of a file. A name that leads to no
file is tried again with each extension. A file that is not there or has no known
format holds no settings; one that is no object in its format is a fault. Bytes
that are no text are replaced. How files in INI, RON and JSON5 are read is left
open.
-/

namespace Galley.Settings

inductive Format where
  | toml
  | json
  | yaml
  | ini
  | ron
  | json5
  deriving DecidableEq, Inhabited

/-- The extensions of names, with the formats they tell. -/
def extensions : List (String × Format) :=
  [("toml", .toml), ("json", .json), ("yaml", .yaml), ("yml", .yaml), ("ini", .ini),
    ("ron", .ron), ("json5", .json5)]

/-! ### Names -/

def lastName? (path : String) : Option (List Char) :=
  match (FilePath.named path).parts.getLast? with
  | some (.name s) => some s.toList
  | _ => none

/-- What follows the last dot of a name that does not start with it. -/
def extension? (name : List Char) : Option String :=
  match name.reverse.span (· ≠ '.') with
  | (_, []) | (_, ['.']) => none
  | (rest, _) => some (String.ofList rest.reverse)

def formatOf? (path : String) : Option Format := do
  let extension ← extension? (← lastName? path)
  (extensions.find? fun e => e.1 == extension).map Prod.snd

/-- A path without slashes and single dots behind its last name. -/
def trimmedPath (path : String) : List Char :=
  let rec trim : List Char → List Char
    | '/' :: rest => trim rest
    | '.' :: '/' :: rest => trim rest
    | s => s
  (trim path.toList.reverse).reverse

/-- The file that a path leads to, with its format. -/
def fileOf? (fs : Files) (path : String) : Option (FilePath × Format) :=
  if fs.isFile (.named path) then (formatOf? path).map fun f => (.named path, f)
  else
    match lastName? path with
    | none => none
    | some _ =>
      extensions.findSome? fun e =>
        let candidate := FilePath.named (String.ofList (trimmedPath path) ++ "." ++ e.1)
        if fs.isFile candidate then some (candidate, e.2) else none

/-! ### Formats -/

/-- A whole number in sixty-four bits, in a base and with a sign. -/
def wholeIn? (base : Nat) (s : List Char) : Option Int := do
  let (negative, digits) := Number.readSign s
  let n ← Number.readDigits? base digits
  let n : Int := if negative then -n else n
  if Number.fitsSigned 64 n then some n else none

/-- A whole number with a declared base or a plus sign. -/
def declaredWhole? : List Char → Option Int
  | '0' :: 'x' :: s => wholeIn? 16 s
  | '0' :: 'o' :: s => wholeIn? 8 s
  | '+' :: s => wholeIn? 10 s
  | _ => none

/-- The spellings of numbers that are infinite or none. They are refused. -/
def specialNumbers : List String :=
  [".inf", ".Inf", ".INF", "+.inf", "+.Inf", "+.INF", "-.inf", "-.Inf", "-.INF",
    ".nan", ".NaN", ".NAN"]

/-- A number with a point or an exponent, as long as it has a digit. -/
def binaryOf? (s : List Char) : Option Binary64 :=
  if s.any Char.isDigit then Number.readBinary? s else none

def plainScalar? (text : String) : Option Yaml.Value :=
  let s := text.toList
  match (declaredWhole? s).orElse fun _ => wholeIn? 10 s with
  | some n => some (.number (.whole n))
  | none =>
    if text ∈ ["", "~", "null"] then some .null
    else if text = "true" then some (.bool true)
    else if text = "false" then some (.bool false)
    else if text ∈ specialNumbers then none
    else
      match binaryOf? s with
      | some x => some (.number (.binary x))
      | none => some (.text text)

/-- The value of a plain scalar with a tag; one that does not fit its tag is
null. -/
def taggedScalar? (tag text : String) : Option Yaml.Value :=
  let s := text.toList
  if tag = "tag:yaml.org,2002:bool" then
    some (if text = "true" then .bool true else if text = "false" then .bool false else .null)
  else if tag = "tag:yaml.org,2002:int" then
    some (((wholeIn? 10 s).map fun n => Yaml.Value.number (.whole n)).getD .null)
  else if tag = "tag:yaml.org,2002:float" then
    if text ∈ specialNumbers then none
    else some (((binaryOf? s).map fun x => Yaml.Value.number (.binary x)).getD .null)
  else if tag = "tag:yaml.org,2002:null" then some .null
  else some (.text text)

/-- What scalars stand for in files with settings. -/
def schema : Yaml.Schema where
  scalar tag text style :=
    if style == .plain then
      match tag with
      | some t => taggedScalar? t text
      | none => plainScalar? text
    else some (.text text)
  showsTags := false

mutual

/-- The plain form of a value; its keys are texts or whole numbers. -/
def plainOf? : Yaml.Value → Option Json
  | .null => some .null
  | .bool b => some (.bool b)
  | .number n => some (.number n)
  | .text s => some (.text s)
  | .seq items => (plainItems? items).map .list
  | .map pairs => (plainPairs? pairs).map Json.ofPairs
  | .tagged _ v => plainOf? v
termination_by structural v => v

def plainItems? : List Yaml.Value → Option (List Json)
  | [] => some []
  | v :: vs => do return (← plainOf? v) :: (← plainItems? vs)
termination_by structural items => items

def plainPairs? : List (Yaml.Value × Yaml.Value) → Option (List (String × Json))
  | [] => some []
  | (k, v) :: rest => do
    let name ← match k with
      | .text s => some s
      | .number (.whole n) => some (Number.renderWhole n)
      | _ => none
    return (name, ← plainOf? v) :: (← plainPairs? rest)
termination_by structural pairs => pairs

end

/-- The fields of a text in YAML; an empty one has none. -/
def yamlFields? (text : String) : Option (List (String × Json)) :=
  match Yaml.readDocument schema text with
  | .ok none => some []
  | .ok (some v) =>
    match plainOf? v with
    | some (.object fields) => some fields
    | _ => none
  | .error _ => none

def jsonFields? (text : String) : Option (List (String × Json)) :=
  match Json.read? text with
  | some (.object fields) => some fields
  | _ => none

/-- Readers of the formats that are left open: the fields of a text, if it has some. -/
class FormatReaders where
  ini? : String → Option (List (String × Json))
  ron? : String → Option (List (String × Json))
  json5? : String → Option (List (String × Json))

/-- Readers that refuse every text. -/
instance FormatReaders.none : FormatReaders where
  ini? _ := Option.none
  ron? _ := Option.none
  json5? _ := Option.none

variable [FormatReaders]

def Format.fields? : Format → String → Option (List (String × Json))
  | toml => Toml.read?
  | json => jsonFields?
  | yaml => yamlFields?
  | ini => FormatReaders.ini?
  | ron => FormatReaders.ron?
  | json5 => FormatReaders.json5?

/-- The text in a file with settings. A byte order mark in front of it does not
count. -/
def textIn (content : FileContent) : String :=
  match content.repaired with
  | '\ufeff' :: s => String.ofList s
  | s => String.ofList s

def entriesOfFile (fs : Files) (path : String) : Except SettingsFault (List (String × Json)) :=
  match fileOf? fs path with
  | none => .ok []
  | some (file, format) =>
    match fs.read file with
    | .error _ => .ok []
    | .ok content =>
      match format.fields? (textIn content) with
      | some fields => .ok fields
      | none => .error .unreadable

end Galley.Settings
