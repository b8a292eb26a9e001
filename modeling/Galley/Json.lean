import Galley.Fields
import Galley.Number.Decimal

/-!
Plain data values: null, booleans, numbers, texts, lists and objects.

The fields of an object are sorted by key. `Json.same` is equality with numbers
compared by value, and `Json.Sorted` says that the fields are sorted at every
depth.
-/

namespace Galley

inductive Json where
  | null
  | bool (b : Bool)
  | number (n : Number)
  | text (s : String)
  | list (items : List Json)
  | object (fields : List (String × Json))
  deriving Inhabited

namespace Json

def whole (n : Int) : Json :=
  .number (.whole n)

def ofPairs (pairs : List (String × Json)) : Json :=
  .object (Fields.ofPairs pairs)

def field? (k : String) : Json → Option Json
  | .object fields => Fields.find? k fields
  | _ => none

def isNull : Json → Bool
  | .null => true
  | _ => false

def asText? : Json → Option String
  | .text s => some s
  | _ => none

def asList? : Json → Option (List Json)
  | .list items => some items
  | _ => none

/-! ### Equality -/

mutual

/-- Equality of values, numbers by value. -/
def same : Json → Json → Bool
  | .null, .null => true
  | .bool a, .bool b => a == b
  | .number a, .number b => a.same b
  | .text a, .text b => a == b
  | .list as, .list bs => sameItems as bs
  | .object as, .object bs => sameFields as bs
  | _, _ => false
termination_by structural v => v

def sameItems : List Json → List Json → Bool
  | [], [] => true
  | a :: as, b :: bs => same a b && sameItems as bs
  | _, _ => false
termination_by structural items => items

def sameFields : List (String × Json) → List (String × Json) → Bool
  | [], [] => true
  | (k, a) :: as, (k', b) :: bs => k == k' && same a b && sameFields as bs
  | _, _ => false
termination_by structural fields => fields

end

/-! ### Sorted objects -/

mutual

/-- Every object in the value has sorted fields. -/
def Sorted : Json → Prop
  | .list items => SortedItems items
  | .object fields => Fields.Sorted fields ∧ SortedFields fields
  | _ => True
termination_by structural v => v

def SortedItems : List Json → Prop
  | [] => True
  | v :: vs => Sorted v ∧ SortedItems vs
termination_by structural items => items

def SortedFields : List (String × Json) → Prop
  | [] => True
  | (_, v) :: rest => Sorted v ∧ SortedFields rest
termination_by structural fields => fields

end

end Json

end Galley
