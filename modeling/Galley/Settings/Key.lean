import Galley.Json
import Galley.Number.Reader
import Galley.Text.LetterCase

/-!
Keys of settings and the values under them.

A key leads through objects and lists, such as `comment_delimiters[0].open`. A
text that has not this form is a name as a whole. Names in objects are kept in
lower case, and an object that is put where one stands already adds its fields
to it.
-/

namespace Galley.Settings

/-- A step of a key: a field of an object or a position in a list. A negative
position counts from the end of the list upwards. -/
inductive KeyStep where
  | field (name : String)
  | item (index : Int)
  deriving DecidableEq, Inhabited

def isKeyChar (c : Char) : Bool :=
  c.isAlphanum || c == ' ' || c == '_' || c == '-'

def readPosition? (s : List Char) : Option (Int × List Char) := do
  let s := s.dropWhile (· == ' ')
  let (negative, digits) := match s with
    | '-' :: rest => (true, rest)
    | s => (false, s)
  let n ← Number.readDigits? 10 (digits.takeWhile Char.isDigit)
  let n : Int := if negative then -n else n
  match (digits.dropWhile Char.isDigit).dropWhile (· == ' ') with
  | ']' :: rest => if Number.fitsSigned 64 n then some (n, rest) else none
  | _ => none

def readSteps? : Nat → List Char → Option (List KeyStep)
  | _, [] => some []
  | 0, _ => none
  | n + 1, '.' :: s =>
    match s.span isKeyChar with
    | ([], _) => none
    | (name, rest) => (readSteps? n rest).map (.field (String.ofList name) :: ·)
  | n + 1, '[' :: s => do
    let (index, rest) ← readPosition? s
    return .item index :: (← readSteps? n rest)
  | _, _ => none

def readKey (key : String) : List KeyStep :=
  let steps := match key.toList.span isKeyChar with
    | ([], _) => none
    | (name, rest) => (readSteps? rest.length rest).map (KeyStep.field (String.ofList name) :: ·)
  steps.getD [.field key]

def lowered (name : String) : String :=
  String.ofList (Text.toLower name.toList)

/-- The fields of an object; anything else has none. -/
def fieldsOf : Json → List (String × Json)
  | .object fields => fields
  | _ => []

/-- The items of a list; anything else has none. -/
def itemsOf : Json → List Json
  | .list items => items
  | _ => []

def setField (name : String) (v target : Json) : Json :=
  .object (Fields.insert (lowered name) v (fieldsOf target))

/-- Puts a value at a position of a list, which grows as far as needed. -/
def setItem (index : Int) (f : Option Json → Json) (target : Json) : Json :=
  let items := itemsOf target
  let i := if 0 ≤ index then index.toNat else items.length + index.natAbs
  let padded := items ++ List.replicate (i + 1 - items.length) .null
  .list (padded.set i (f items[i]?))

mutual

/-- What stands in place of a value when another one is put there. -/
def merged : Json → Option Json → Json
  | .object fields, old => mergedFields fields (old.getD (.object []))
  | v, _ => v
termination_by structural v => v

def mergedFields : List (String × Json) → Json → Json
  | [], target => target
  | (name, v) :: rest, target =>
    mergedFields rest (setField name (merged v (target.field? (lowered name))) target)
termination_by structural fields => fields

end

/-- Puts a value at the end of a key. -/
def put : List KeyStep → Json → Option Json → Json
  | [], v, old => merged v old
  | .field name :: rest, v, old =>
    let target := old.getD .null
    setField name (put rest v (target.field? (lowered name))) target
  | [.item index], v, old => setItem index (fun _ => v) (old.getD .null)
  | .item index :: rest, v, old => setItem index (put rest v) (old.getD .null)

def putAll (entries : List (String × Json)) (target : Json) : Json :=
  entries.foldl (fun target e => put (readKey e.1) e.2 (some target)) target

end Galley.Settings
