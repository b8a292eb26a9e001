import Galley.Fault
import Galley.Json

/-!
From YAML values to plain values.

`Value.toPlain` writes a YAML value out as a plain value: keys that are numbers
or booleans become texts, a tagged value becomes an object with the tag as its
only key, and a number that is not finite becomes null. `Value.readPlain` reads
a YAML value as a plain value: it accepts text keys only and no tags.
-/

namespace Galley

def Json.met : Json → Met
  | .null => .unit
  | .bool b => .boolean b
  | .number (.whole n) => .whole n
  | .number (.binary x) => .binary x
  | .text s => .text s
  | .list _ => .sequence
  | .object _ => .mapping

namespace Yaml

/-- A plain number; one that is not finite is null. -/
def plainNumber : Number → Json
  | .whole n => .number (.whole n)
  | .binary x => if x.isFinite then .number (.binary x) else .null

namespace Value

def toPlainKey : Value → Except PlainFault String
  | .text s => .ok s
  | .bool b => .ok (if b then "true" else "false")
  | .number (.whole n) => .ok (Number.renderWhole n)
  | .number (.binary x) =>
    if x.isFinite then .ok (Number.render (.binary x)) else .error .keyNotFinite
  | _ => .error .keyNotText

mutual

def toPlain : Value → Except PlainFault Json
  | .null => .ok .null
  | .bool b => .ok (.bool b)
  | .number n => .ok (plainNumber n)
  | .text s => .ok (.text s)
  | .seq items => do return .list (← toPlainItems items)
  | .map pairs => do return Json.ofPairs (← toPlainPairs pairs)
  | .tagged tag v => do return .object [("!" ++ bareTag tag, ← toPlain v)]
termination_by structural v => v

def toPlainItems : List Value → Except PlainFault (List Json)
  | [] => .ok []
  | v :: vs => do return (← toPlain v) :: (← toPlainItems vs)
termination_by structural items => items

def toPlainPairs : List (Value × Value) → Except PlainFault (List (String × Json))
  | [] => .ok []
  | (k, v) :: rest => do
    let key ← toPlainKey k
    let value ← toPlain v
    return (key, value) :: (← toPlainPairs rest)
termination_by structural pairs => pairs

end

/-! ### Reading plain values -/

/-- What a decoder meets in a value. -/
def met : Value → Met
  | .null => .unit
  | .bool b => .boolean b
  | .number (.whole n) => .whole n
  | .number (.binary x) => .binary x
  | .text s => .text s
  | .seq _ => .sequence
  | .map _ => .mapping
  | .tagged _ _ => .tag

/-- The text of a value, or the fault of a decoder that expected something else. -/
def readText (expected : String) (v : Value) : Except DecodeFault String :=
  match v.untagged with
  | .text s => .ok s
  | other => .error (.wrongKind other.met expected)

mutual

def readPlain : Value → Except DecodeFault Json
  | .null => .ok .null
  | .bool b => .ok (.bool b)
  | .number n => .ok (plainNumber n)
  | .text s => .ok (.text s)
  | .seq items => do return .list (← readPlainItems items)
  | .map pairs => do return Json.ofPairs (← readPlainPairs "a string key" pairs)
  | .tagged _ _ => .error (.wrongKind .tag "any valid JSON value")
termination_by structural v => v

def readPlainItems : List Value → Except DecodeFault (List Json)
  | [] => .ok []
  | v :: vs => do return (← readPlain v) :: (← readPlainItems vs)
termination_by structural items => items

/-- Reads pairs; the fault of a key names what the reader expected, which differs
between the first key and the others. -/
def readPlainPairs (expected : String) : List (Value × Value) →
    Except DecodeFault (List (String × Json))
  | [] => .ok []
  | (k, v) :: rest => do
    let key ← readText expected k
    let value ← readPlain v
    return (key, value) :: (← readPlainPairs "a string" rest)
termination_by structural pairs => pairs

end

mutual

def hasTag : Value → Bool
  | .seq items => anyHasTag items
  | .map pairs => anyPairHasTag pairs
  | .tagged _ _ => true
  | _ => false
termination_by structural v => v

def anyHasTag : List Value → Bool
  | [] => false
  | v :: vs => hasTag v || anyHasTag vs
termination_by structural items => items

def anyPairHasTag : List (Value × Value) → Bool
  | [] => false
  | (k, v) :: rest => hasTag k || hasTag v || anyPairHasTag rest
termination_by structural pairs => pairs

end

end Value

end Yaml

end Galley
