import Galley.Number.Decimal

/-!
Values of a YAML document.

A mapping keeps its pairs in the order in which the keys were first written.
`Value.same` is the equality of values: numbers compare by value, and two
mappings are equal when they hold the same pairs in any order. Keys are found
and replaced up to this equality.
-/

namespace Galley.Yaml

inductive Value where
  | null
  | bool (b : Bool)
  | number (n : Number)
  | text (s : String)
  | seq (items : List Value)
  | map (pairs : List (Value × Value))
  | tagged (tag : String) (content : Value)
  deriving Inhabited

/-- The pairs of a mapping in order. -/
abbrev Pairs := List (Value × Value)

/-- A tag without a mark in front of it; the mark alone is a tag. -/
def bareTag (tag : String) : String :=
  match tag.toList with
  | '!' :: c :: rest => String.ofList (c :: rest)
  | _ => tag

namespace Value

mutual

def same : Value → Value → Bool
  | .null, .null => true
  | .bool a, .bool b => a == b
  | .number a, .number b => a.same b
  | .text a, .text b => a == b
  | .seq as, .seq bs => sameItems as bs
  | .map as, .map bs => as.length == bs.length && samePairs as bs
  | .tagged s a, .tagged t b => bareTag s == bareTag t && same a b
  | _, _ => false
termination_by structural v => v

def sameItems : List Value → List Value → Bool
  | [], [] => true
  | a :: as, b :: bs => same a b && sameItems as bs
  | _, _ => false
termination_by structural items => items

/-- Every pair of the first list is in the second. -/
def samePairs : List (Value × Value) → List (Value × Value) → Bool
  | [], _ => true
  | (k, v) :: rest, bs => (bs.any fun kv => same k kv.1 && same v kv.2) && samePairs rest bs
termination_by structural pairs => pairs

end

/-- The text of a value, looking through tags. -/
def asText? : Value → Option String
  | .text s => some s
  | .tagged _ v => asText? v
  | _ => none

def untagged : Value → Value
  | .tagged _ v => untagged v
  | v => v

def isNull : Value → Bool
  | .null => true
  | _ => false

/-- The kind of a value, as messages name it. -/
def kind : Value → String
  | .null => "null"
  | .bool _ => "boolean"
  | .number _ => "number"
  | .text _ => "string"
  | .seq _ => "sequence"
  | .map _ => "mapping"
  | .tagged _ _ => "tagged value"

end Value

namespace Pairs

def find? (key : Value) (pairs : Pairs) : Option Value :=
  (List.find? (fun kv => key.same kv.1) pairs).map Prod.snd

def findText? (key : String) (pairs : Pairs) : Option Value :=
  find? (.text key) pairs

def contains (key : Value) (pairs : Pairs) : Bool :=
  pairs.any fun kv => key.same kv.1

/-- Replaces the value of a key at its place, or appends the pair. -/
def insert (key value : Value) : Pairs → Pairs
  | [] => [(key, value)]
  | kv :: rest =>
    if key.same kv.1 then (kv.1, value) :: rest else kv :: insert key value rest

end Pairs

end Galley.Yaml
