import Galley.Log
import Galley.Template.Printed
import Galley.Template.Scope
import Galley.Text.LetterCase
import Galley.Text.Words

/-!
The helpers that templates can call.

A call has an outcome: a value to print, the body of the block rendered in some
blocks one after the other, or the other branch of the block.
-/

namespace Galley.Template

/-- An operand that has been evaluated, with the text of its path. -/
structure Argument where
  path : Option String
  found : Found
  deriving Inhabited

def Argument.value (a : Argument) : Json :=
  a.found.value

structure Call where
  name : String
  arguments : List Argument
  named : List (String × Argument)
  parameters : List String := []
  hasBody : Bool := false
  hasInverse : Bool := false
  deriving Inhabited

/-- What a call comes to. A body that is rendered in no new block stays in the
block around it. -/
inductive Outcome where
  | print (value : Json)
  | body (blocks : List (Option Block))
  | inverse
  deriving Inhabited

namespace Call

/-! ### Arguments -/

def argument (c : Call) (i : Nat) : Except Reason Argument :=
  match c.arguments[i]? with
  | some a => .ok a
  | none => .error (.noParam c.name i)

/-- The argument at a position that messages know by a name. In strict mode it
must not be missing from the context. -/
def namedArgument (c : Call) (isStrict : Bool) (helper name : String) (i : Nat) :
    Except Reason Json :=
  match c.arguments[i]? with
  | some a =>
    if isStrict && a.found.isMissing then .error (.noNamedParam helper name) else .ok a.value
  | none => .error (.noNamedParam helper name)

/-! ### Blocks -/

/-- The names that a block gives to its value, or to its value and its position. -/
def parametersFor (c : Call) (isPlaced : Bool) (value position : Json) :
    List (String × Option Json) :=
  let given := if isPlaced then none else some value
  match c.parameters with
  | [name] => [(name, given)]
  | [name, other] => [(other, some position), (name, given)]
  | _ => []

/-- The block of one item of a list or an object. -/
def itemBlock (c : Call) (path : Option (List String)) (label : String)
    (count : Nat) (item : (String × Json × Json) × Nat) : Option Block :=
  let ((step, position, v), i) := item
  let at? := path.map (· ++ [step])
  some {
    path := at?.getD []
    value := if at?.isSome then none else some v
    parameters := c.parametersFor at?.isSome v position
    marks := [("first", .bool (i == 0)), ("last", .bool (i + 1 == count)), (label, position)] }

/-- The blocks of the items of a value, if it has items. -/
def itemBlocks? (c : Call) (a : Argument) : Option (List (Option Block)) :=
  let path := a.found.path?
  match a.value with
  | .list items =>
    let steps := items.zipIdx.map fun (v, i) => (toString i, Json.whole i, v)
    some (steps.zipIdx.map (c.itemBlock path "index" items.length))
  | .object fields =>
    let steps := fields.map fun (k, v) => (k, Json.text k, v)
    some (steps.zipIdx.map (c.itemBlock path "key" fields.length))
  | _ => none

/-! ### Blocks and branches -/

/-- The other branch of a block, or what happens without one. -/
def otherwise (c : Call) (isStrict : Bool) (a : Argument) : Except Reason Outcome :=
  if c.hasInverse then .ok .inverse
  else if isStrict then .error (.noValue a.path)
  else .ok (.body [])

/-- Renders the body if the first argument counts as expected. -/
def choose (c : Call) (expected : Bool) : Except Reason Outcome := do
  match c.arguments[0]? with
  | none => .error (.noParam "if" 0)
  | some a =>
    let zeroCounts := match (Fields.find? "includeZero" c.named).map Argument.value with
      | some (.bool b) => b
      | _ => false
    return if a.value.isTruthy zeroCounts == expected then .body [none] else .inverse

/-- Renders the body for every item. -/
def each (c : Call) (isStrict : Bool) : Except Reason Outcome := do
  let a ← c.argument 0
  if !c.hasBody then return .body []
  match c.itemBlocks? a with
  | some blocks =>
    if blocks.isEmpty && c.hasInverse then return .inverse else return .body blocks
  | none => c.otherwise isStrict a

/-- Renders the body at the first argument. -/
def within (c : Call) (isStrict : Bool) : Except Reason Outcome := do
  let a ← c.argument 0
  if a.value.isTruthy false then
    let parameters := match c.parameters with
      | [_] => c.parametersFor a.found.path?.isSome a.value .null
      | _ => []
    return .body [some { Block.ofFound a.found with parameters }]
  else c.otherwise isStrict a

/-- Writes to a log that nobody reads; the level has to be one. -/
def log (c : Call) : Except Reason Outcome :=
  match (Fields.find? "level" c.named).map Argument.value with
  | some (.text level) =>
    if (LogLevel.ofName? level).isSome then .ok (.body []) else .error (.noLogLevel level)
  | _ => .ok (.body [])

/-! ### Values -/

def lookup (c : Call) (isStrict : Bool) : Except Reason Json := do
  let source ← c.argument 0
  let key ← c.argument 1
  let v := match source.value, key.value with
    | .list items, .number (.whole i) => if i < 0 then none else items[i.toNat]?
    | .object fields, .text k => Fields.find? k fields
    | _, _ => none
  match v with
  | some v => .ok v
  | none => if isStrict then .error (.noValue none) else .ok .null

def test (c : Call) (isStrict : Bool) (p : Json → Json → Bool) : Except Reason Json := do
  let x ← c.namedArgument isStrict c.name "x" 0
  let y ← c.namedArgument isStrict c.name "y" 1
  return .bool (p x y)

def wholeArgument (c : Call) (isStrict : Bool) (name : String) (i : Nat) : Except Reason Int := do
  let v ← c.namedArgument isStrict c.name name i
  match v.asWhole? with
  | some n => .ok n
  | none => .error (.wrongParam c.name name "i64")

def compare (c : Call) (isStrict : Bool) (p : Int → Int → Bool) : Except Reason Json := do
  let x ← c.wholeArgument isStrict "x" 0
  let y ← c.wholeArgument isStrict "y" 1
  return .bool (p x y)

def ask (c : Call) (isStrict : Bool) (f : Json → Json) : Except Reason Json :=
  (c.namedArgument isStrict c.name "x" 0).map f

def sizeOf : Json → Json
  | .list items => .whole items.length
  | .object fields => .whole fields.length
  | .text s => .whole s.utf8ByteSize
  | _ => .whole 0

/-- A text in another spelling; messages call the helper by its word name. -/
def respell (c : Call) (isStrict : Bool) (f : List Char → List Char) : Except Reason Json := do
  let helper := String.ofList (c.name.toList.map fun ch => if ch == '-' then '_' else ch)
  match ← c.namedArgument isStrict helper "s" 0 with
  | .text s => return .text (String.ofList (f s.toList))
  | _ => .error (.wrongParam helper "s" "str")

/-- The helpers that give another spelling. -/
def spellings : List (String × (List Char → List Char)) :=
  [("lower-camel", Text.lowerCamel), ("upper-camel", Text.upperCamel),
    ("lower-snake", Text.smallJoined '_'), ("upper-snake", Text.capitalJoined '_'),
    ("lower-hyphen", Text.smallJoined '-'), ("upper-hyphen", Text.capitalJoined '-'),
    ("lower", Text.toLower), ("upper", Text.toUpper)]

/-! ### Outcomes -/

/-- The helpers that give a value. -/
def value? (c : Call) (isStrict : Bool) : Option (Except Reason Json) :=
  match c.name with
  | "lookup" => some (c.lookup isStrict)
  | "eq" => some (c.test isStrict Json.same)
  | "ne" => some (c.test isStrict fun x y => !x.same y)
  | "and" => some (c.test isStrict fun x y => x.isTruthy false && y.isTruthy false)
  | "or" => some (c.test isStrict fun x y => x.isTruthy false || y.isTruthy false)
  | "gt" => some (c.compare isStrict fun x y => y < x)
  | "gte" => some (c.compare isStrict fun x y => y ≤ x)
  | "lt" => some (c.compare isStrict fun x y => x < y)
  | "lte" => some (c.compare isStrict fun x y => x ≤ y)
  | "not" => some (c.ask isStrict fun x => .bool (!x.isTruthy false))
  | "len" => some (c.ask isStrict sizeOf)
  | name =>
    (spellings.find? fun e => e.1 == name).map fun e => c.respell isStrict e.2

def outcome? (c : Call) (isStrict : Bool) : Option (Except Reason Outcome) :=
  match c.name with
  | "if" => some (c.choose true)
  | "unless" => some (c.choose false)
  | "each" => some (c.each isStrict)
  | "with" => some (c.within isStrict)
  | "raw" => some (.ok (.body [none]))
  | "log" => some c.log
  | _ => (c.value? isStrict).map fun v => v.map .print

def outcome (c : Call) (isStrict : Bool) : Except Reason Outcome :=
  (c.outcome? isStrict).getD (.error (.noHelper c.name))

def isHelper (name : String) : Bool :=
  (outcome? { name, arguments := [], named := [] } false).isSome

/-- The value of a call inside a tag; a helper without a value gives no text. -/
def result (c : Call) (isStrict : Bool) : Except Reason Json :=
  (c.outcome isStrict).map fun
    | .print v => v
    | _ => .text ""

end Call

/-! ### Operands -/

mutual

def Operand.evaluate (isStrict : Bool) (root : Json) (blocks : List Block) :
    Operand → Except Reason Found
  | .literal v => .ok (.loose v)
  | .path p => findPath root blocks p
  | .call head arguments named => do
    let name ← match head with
      | .literal v => pure v.printed
      | .path p => pure p.text
      | .call h as ns => do
        pure (← evaluate isStrict root blocks (.call h as ns)).value.printed
    let arguments ← evaluateAll isStrict root blocks arguments
    let named ← evaluateNamed isStrict root blocks named
    return .loose (← Call.result { name, arguments, named } isStrict)
termination_by structural o => o

def Operand.evaluateAll (isStrict : Bool) (root : Json) (blocks : List Block) :
    List Operand → Except Reason (List Argument)
  | [] => .ok []
  | o :: os => do
    let found ← evaluate isStrict root blocks o
    let path := match o with
      | .path p => some p.text
      | _ => none
    return { path, found } :: (← evaluateAll isStrict root blocks os)
termination_by structural os => os

def Operand.evaluateNamed (isStrict : Bool) (root : Json) (blocks : List Block) :
    List (String × Operand) → Except Reason (List (String × Argument))
  | [] => .ok []
  | (name, o) :: rest => do
    let found ← evaluate isStrict root blocks o
    return (name, { path := none, found }) :: (← evaluateNamed isStrict root blocks rest)
termination_by structural rest => rest

end

/-- The name that a head gives: a word, a path as it is written, or the text of
a value. -/
def Operand.name (isStrict : Bool) (root : Json) (blocks : List Block) (o : Operand) :
    Except Reason String :=
  match o with
  | .path p => .ok p.text
  | o => (o.evaluate isStrict root blocks).map fun f => f.value.printed

end Galley.Template
