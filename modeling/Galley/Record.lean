import Galley.Yaml.Plain

/-!
Records: mappings with known fields.

A shape names the fields of a record that hold a text and those that may hold
one. Its fields are read one by one, in order, up to the first fault; other
fields are kept aside or ignored. The values may be those of a document
(`Shape.read`) or plain ones (`Shape.readObject`).
-/

namespace Galley

/-- The known fields of a record. -/
structure Shape where
  /-- The name of the record in messages. -/
  title : String
  /-- The fields that hold a text when they are present. -/
  texts : List String
  /-- The fields that hold a text or null. -/
  optionals : List String
  /-- Whether other fields are kept. -/
  keepsOthers : Bool

/-- Values that the fields of a record can have. -/
class FieldValue (β : Type) where
  isNull : β → Bool
  readText : β → Except DecodeFault String
  /-- Why a value cannot be kept for a field that is not known. -/
  refusal? : β → Option DecodeFault
  isNull_of_readText : ∀ {v s}, readText v = .ok s → isNull v = false

instance : FieldValue Yaml.Value where
  isNull := Yaml.Value.isNull
  readText := Yaml.Value.readText "a string"
  refusal? v := if v.hasTag then some .tagInside else none
  isNull_of_readText {v s} h := by
    cases v with
    | null => cases h
    | _ => rfl

instance : FieldValue Json where
  isNull := Json.isNull
  readText
    | .text s => .ok s
    | v => .error (.wrongKind v.met "a string")
  refusal? _ := none
  isNull_of_readText {v s} h := by
    cases v with
    | null => cases h
    | _ => rfl

variable {β : Type}

/-- What was read of a record: the known fields and the other ones, in the order in which they
came. -/
structure RecordRead (β : Type) where
  known : List (String × Option String) := []
  others : List (String × β) := []

namespace RecordRead

def text? (r : RecordRead β) (field : String) : Option String :=
  (Fields.find? field r.known).join

def required (r : RecordRead β) (field : String) : Except DecodeFault String :=
  match r.text? field with
  | some s => .ok s
  | none => .error (.missingField field)

end RecordRead

namespace Shape

variable [FieldValue β]

def knows (s : Shape) (key : String) : Bool :=
  s.texts.contains key || s.optionals.contains key

def readField (s : Shape) (r : RecordRead β) (f : String × β) :
    Except DecodeFault (RecordRead β) :=
  let (key, v) := f
  if s.knows key then
    if Fields.contains key r.known then .error (.repeatedField key)
    else if s.optionals.contains key && FieldValue.isNull v then
      .ok { r with known := r.known ++ [(key, none)] }
    else do
      let text ← FieldValue.readText v
      return { r with known := r.known ++ [(key, some text)] }
  else if !s.keepsOthers then .ok r
  else
    match FieldValue.refusal? v with
    | some f => .error f
    | none => .ok { r with others := r.others ++ [(key, v)] }

/-- Reads one pair of a mapping, of which the key comes first. -/
def readPair (s : Shape) (r : RecordRead Yaml.Value) (pair : Yaml.Value × Yaml.Value) :
    Except DecodeFault (RecordRead Yaml.Value) := do
  let key ← pair.1.readText "field identifier"
  s.readField r (key, pair.2)

/-- Reads a mapping; null stands for the mapping without pairs. -/
def read (s : Shape) (v : Yaml.Value) : Except DecodeFault (RecordRead Yaml.Value) :=
  match v.untagged with
  | .map pairs => pairs.foldlM s.readPair {}
  | .null => .ok {}
  | other => .error (.wrongKind other.met ("struct " ++ s.title))

def readObject (s : Shape) : Json → Except DecodeFault (RecordRead Json)
  | .object fields => fields.foldlM s.readField {}
  | other => .error (.wrongKind other.met ("struct " ++ s.title))

end Shape

end Galley
