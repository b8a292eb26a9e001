import Galley.Json.Show
import Galley.Model.Kind

/-!
The model: named entries, sorted by key.

An entry keeps the value that was stored, for access by its kind, beside the
plain value that templates see. Storing under a key that is there already
replaces the entry and writes a warning; a value that has no plain form is not
stored. A `Change` works on a model in place and tells what is left of it also
after a fault.
-/

namespace Galley

variable [CallerTypes]

/-- A stored value and its plain form. -/
structure Entry where
  kind : Kind
  value : kind.Carrier
  json : Json

namespace Entry

def ofValue (k : Kind) (v : k.Carrier) : Except PlainFault Entry := do
  return ⟨k, v, ← k.toJson v⟩

def ofJson (v : Json) : Entry :=
  ⟨.json, v, v⟩

/-- The stored value, if it is of a kind. -/
def get? (k : Kind) (e : Entry) : Option k.Carrier :=
  if h : e.kind = k then some (h ▸ e.value) else none

/-- Equality of entries: that of their plain forms. -/
def same (d e : Entry) : Bool :=
  d.json.same e.json

def shown (e : Entry) : String :=
  Text.recorded "ModelEntry" [("json", e.json.shown)]

end Entry

/-- Named entries, sorted by key. -/
structure Model where
  entries : List (String × Entry) := []

namespace Model

def empty : Model := {}

instance : Inhabited Model := ⟨empty⟩

def entry? (key : String) (m : Model) : Option Entry :=
  Fields.find? key m.entries

/-- The value of a key, if it is of a kind. -/
def get? (k : Kind) (key : String) (m : Model) : Option k.Carrier :=
  (m.entry? key).bind (Entry.get? k)

def value? (key : String) (m : Model) : Option Json :=
  (m.entry? key).map Entry.json

def contains (key : String) (m : Model) : Bool :=
  Fields.contains key m.entries

def keys (m : Model) : List String :=
  Fields.keys m.entries

def size (m : Model) : Nat :=
  m.entries.length

def isEmpty (m : Model) : Bool :=
  m.entries.isEmpty

/-- The plain values of all entries, which templates see. -/
def toFields (m : Model) : List (String × Json) :=
  m.entries.map fun e => (e.1, e.2.json)

def toJson (m : Model) : Json :=
  .object m.toFields

/-- Equality of named entries: the same keys, each with entries of the same plain form. -/
def sameEntries : List (String × Entry) → List (String × Entry) → Bool
  | [], [] => true
  | (key, d) :: ds, (key', e) :: es => key == key' && d.same e && sameEntries ds es
  | _, _ => false

def same (m n : Model) : Bool :=
  sameEntries m.entries n.entries

def shown (m : Model) : String :=
  Text.recorded "Model"
    [("entries", Text.mapped (m.entries.map fun e => (Text.quoted e.1, e.2.shown)))]

/-! ### Storing -/

/-- The warning about a replaced entry. -/
def overwritten (key : String) : String :=
  "Model entry '" ++ key ++ "' overwritten by a later resolver"

def put (key : String) (e : Entry) (m : Model) : Logged Model :=
  let stored : Model := ⟨Fields.insert key e m.entries⟩
  if m.contains key then
    { value := stored, lines := [⟨.warn, overwritten key⟩] }
  else { value := stored }

def insertJson (key : String) (v : Json) (m : Model) : Logged Model :=
  m.put key (.ofJson v)

end Model

/-! ### Changing a model in place -/

/-- A computation on a model that is changed in place. It keeps a log and may end in a fault;
what was stored before the fault stays in the model. -/
abbrev Change := ExceptT ModelFault (StateT Model Logged)

namespace Change

variable {α : Type}

/-- The outcome and the model that is left, with the log. -/
def on (x : Change α) (m : Model) : Logged (Except ModelFault α × Model) :=
  (ExceptT.run x).run m

def outcome (x : Change α) (m : Model) : Except ModelFault α :=
  (x.on m).value.1

/-- The model that a change leaves, also when it ends in a fault. -/
def left (x : Change α) (m : Model) : Model :=
  (x.on m).value.2

/-- The change with a known outcome, which leaves the model as it is. -/
def ofExcept (x : Except ModelFault α) : Change α :=
  ExceptT.mk (pure x)

def write (level : LogLevel) (text : String) : Change Unit :=
  liftM (Logged.write level text)

def replace (f : Model → Logged Model) : Change Unit :=
  ExceptT.mk fun m => do return (.ok (), ← f m)

/-- The model after a change that succeeds. -/
def attempt (x : Change Unit) (m : Model) : Attempt Model :=
  ExceptT.mk do
    let (outcome, left) ← x.on m
    return outcome.map fun _ => left

end Change

namespace Model

/-- Stores a value of a kind in place. -/
def store (k : Kind) (key : String) (v : k.Carrier) : Change Unit := do
  let e ← Change.ofExcept ((Entry.ofValue k v).mapError ModelFault.notPlain)
  Change.replace (put key e)

def insert (k : Kind) (key : String) (v : k.Carrier) (m : Model) : Attempt Model :=
  (store k key v).attempt m

end Model

end Galley
