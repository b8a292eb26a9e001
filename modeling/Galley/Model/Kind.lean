import Galley.Entity
import Galley.Project

/-!
The kinds of values that a model stores.

A kind names a type of values and knows how to read such a value from a document
and how to write it out as a plain value. Beside the stock types there are those
of a caller, about which nothing is known: reading such a value may fail, and so
may writing it out. Of the stock types only YAML values may fail to be written out.
-/

namespace Galley

/-- The types of values that a caller adds to the stock ones, each under a code. What a
value of them is, how it is read and how it is written out is up to the caller. -/
class CallerTypes where
  Code : Type
  [decEq : DecidableEq Code]
  Carrier : Code → Type
  read : (c : Code) → Yaml.Value → Except DecodeFault (Carrier c)
  toJson : (c : Code) → Carrier c → Except PlainFault Json

attribute [reducible, instance] CallerTypes.decEq

/-- A caller that adds no types. -/
instance CallerTypes.none : CallerTypes where
  Code := Empty
  Carrier := Empty.elim
  read c := c.elim
  toJson c := c.elim

variable [CallerTypes]

inductive Kind where
  | json
  | yaml
  | text
  | integer
  | count
  | flag
  | named
  | project
  | entity (k : EntityKind)
  | entities (k : EntityKind)
  | list (item : Kind)
  | custom (c : CallerTypes.Code)
  deriving DecidableEq, Inhabited

namespace Kind

/-- The values of a kind. -/
def Carrier : Kind → Type
  | json => Json
  | yaml => Yaml.Value
  | text => String
  | integer => Int
  | count => Nat
  | flag => Bool
  | named => Named
  | project => Project
  | entity k => Entity k
  | entities k => Entities k
  | list item => List item.Carrier
  | custom c => CallerTypes.Carrier c

def readWhole (expected : String) (fits : Int → Bool) (v : Yaml.Value) :
    Except DecodeFault Int :=
  match v.untagged with
  | .number (.whole n) => if fits n then .ok n else .error (.outOfRange n expected)
  | other => .error (.wrongKind other.met expected)

def readFlag (v : Yaml.Value) : Except DecodeFault Bool :=
  match v.untagged with
  | .bool b => .ok b
  | other => .error (.wrongKind other.met "a boolean")

/-- The items of a sequence; null stands for the empty one. -/
def readItems (v : Yaml.Value) : Except DecodeFault (List Yaml.Value) :=
  match v.untagged with
  | .seq items => .ok items
  | .null => .ok []
  | other => .error (.wrongKind other.met "a sequence")

/-- Reads a value of a kind from a document. -/
def read : (k : Kind) → Yaml.Value → Except DecodeFault k.Carrier
  | json, v => v.readPlain
  | yaml, v => .ok v
  | text, v => v.readText "a string"
  | integer, v => readWhole "i64" (Number.fitsSigned 64) v
  | count, v => (readWhole "u32" (Number.fitsUnsigned 32) v).map Int.toNat
  | flag, v => readFlag v
  | named, v => Named.ofValue v
  | project, v => Project.ofValue v
  | entity k, v => Entity.ofValue k v
  | entities k, v => do (← readItems v).mapM (Entity.ofValue k)
  | list item, v => do (← readItems v).mapM item.read
  | custom c, v => CallerTypes.read c v

/-- Writes a value of a kind out as a plain value. -/
def toJson : (k : Kind) → k.Carrier → Except PlainFault Json
  | json, v => .ok v
  | yaml, v => v.toPlain
  | text, (s : String) => .ok (.text s)
  | integer, (n : Int) => .ok (Json.whole n)
  | count, (n : Nat) => .ok (Json.whole n)
  | flag, (b : Bool) => .ok (.bool b)
  | named, v => .ok v.toJson
  | project, v => .ok v.toJson
  | entity _, v => .ok v.toJson
  | entities _, v => .ok (Entities.toJson v)
  | list item, (vs : List item.Carrier) => do return .list (← vs.mapM item.toJson)
  | custom c, v => CallerTypes.toJson c v

end Kind

end Galley
