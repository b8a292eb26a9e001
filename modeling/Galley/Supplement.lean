import Galley.Model
import Galley.Yaml.Plain

/-!
Values that supplement a model while one template is rendered.

A supplement hides the entries of the model under its keys. The model itself
stays as it is. A supplement is made of pairs, one by one or all at once, and
may be changed in place; a value that has no plain form does not change it.
-/

namespace Galley

/-- Values beside a model, sorted by key. -/
structure Supplement where
  fields : List (String × Json) := []
  deriving Inhabited

namespace Supplement

def empty : Supplement := {}

def get? (key : String) (s : Supplement) : Option Json :=
  Fields.find? key s.fields

def contains (key : String) (s : Supplement) : Bool :=
  Fields.contains key s.fields

def keys (s : Supplement) : List String :=
  Fields.keys s.fields

def size (s : Supplement) : Nat :=
  s.fields.length

def isEmpty (s : Supplement) : Bool :=
  s.fields.isEmpty

def insert (key : String) (v : Json) (s : Supplement) : Supplement :=
  ⟨Fields.insert key v s.fields⟩

/-- The supplement of pairs; the last value of a key stays. -/
def ofPairs (pairs : List (String × Json)) : Supplement :=
  ⟨Fields.ofPairs pairs⟩

/-- The supplement of pairs that are sorted first; the last value of a key stays. -/
def collect (pairs : List (String × Json)) : Supplement :=
  ⟨Fields.collect pairs⟩

/-! ### Changing a supplement in place -/

variable [CallerTypes]

/-- Puts a value under a key and gives the one that it replaced. -/
def replace (key : String) (v : Json) : StateM Supplement (Option Json) :=
  modifyGet fun s => (s.get? key, s.insert key v)

/-- Puts the plain form of a value under a key. A value without one is not put. -/
def store (k : Kind) (key : String) (v : k.Carrier) :
    ExceptT PlainFault (StateM Supplement) Unit := do
  let plain ← ExceptT.mk (pure (k.toJson v))
  discard (replace key plain)

/-! ### The context of templates -/

/-- The keys of a supplement that the model has, too. -/
def hidden (s : Supplement) (m : Model) : List String :=
  s.keys.filter fun key => m.contains key

/-- What templates see of a model and a supplement. -/
def asSeen (s : Supplement) (m : Model) : Json :=
  .object (Fields.insertAll m.toFields s.fields)

/-- The line that tells which keys of a model are hidden. -/
def hiddenText (keys : List String) : String :=
  "Supplemental values shadow model keys " ++ Text.listed (keys.map Text.quoted)

/-- What templates see; hidden keys are logged. -/
def layOver (s : Supplement) (m : Model) : Logged Json := do
  let keys := s.hidden m
  if !keys.isEmpty then Logged.detail (hiddenText keys)
  return s.asSeen m

end Supplement

end Galley
