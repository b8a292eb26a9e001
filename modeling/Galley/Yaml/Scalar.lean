import Galley.Number.Reader
import Galley.Yaml.Value

/-!
What the text of a scalar stands for.

A plain scalar without a tag is null, a boolean, a whole number, a binary64 or
else a text. Digits after a leading zero are a text. A whole number outside the
64-bit ranges is refused as long as it fits 128 bits; a longer one is read as a
binary64.
-/

namespace Galley.Yaml.Scalar

def isNullText (s : List Char) : Bool :=
  ["~", "null", "Null", "NULL"].any fun t => t.toList == s

def bool? (s : List Char) : Option Bool :=
  if ["true", "True", "TRUE"].any fun t => t.toList == s then some true
  else if ["false", "False", "FALSE"].any fun t => t.toList == s then some false
  else none

/-- More than one digit, the first a zero. -/
def hasLeadingZero (s : List Char) : Bool :=
  let (_, digits) := Number.readSign s
  match digits with
  | '0' :: d :: rest => (d :: rest).all Char.isDigit
  | _ => false

def startsWithSign (s : List Char) : Bool :=
  match s with
  | c :: _ => c == '+' || c == '-'
  | [] => false

/-- The base that a text declares, and the digits after it. -/
def declaredBase? : List Char → Option (Nat × List Char)
  | '0' :: 'x' :: rest => some (16, rest)
  | '0' :: 'o' :: rest => some (8, rest)
  | '0' :: 'b' :: rest => some (2, rest)
  | _ => none

def natural? (s : List Char) : Option Nat :=
  let unsigned := match s with
    | '+' :: rest => rest
    | _ => s
  match declaredBase? unsigned with
  | some (base, digits) => Number.readDigits? base digits
  | none =>
    if startsWithSign unsigned || hasLeadingZero s then none else Number.readDigits? 10 unsigned

def negative? (s : List Char) : Option Nat :=
  match s with
  | '-' :: rest =>
    match declaredBase? rest with
    | some (base, digits) => Number.readDigits? base digits
    | none => if hasLeadingZero s then none else Number.readDigits? 10 rest
  | _ => none

inductive Whole where
  | inRange (n : Int)
  | tooWide
  | none

def whole (s : List Char) : Whole :=
  match natural? s, negative? s with
  | some n, _ =>
    if Number.fitsUnsigned 64 n then .inRange n
    else if Number.fitsUnsigned 128 n then .tooWide
    else .none
  | _, some n =>
    if Number.fitsSigned 64 (-n) then .inRange (-n)
    else if Number.fitsSigned 128 (-n) then .tooWide
    else .none
  | _, _ => .none

def binary? (s : List Char) : Option Binary64 :=
  let unsigned := match s with
    | '+' :: rest => rest
    | _ => s
  if s != unsigned && startsWithSign unsigned then none
  else if [".inf", ".Inf", ".INF"].any fun t => t.toList == unsigned then some (.infinity false)
  else if ["-.inf", "-.Inf", "-.INF"].any fun t => t.toList == s then some (.infinity true)
  else if [".nan", ".NaN", ".NAN"].any fun t => t.toList == s then some .nan
  else (Number.readBinary? unsigned).filter Binary64.isFinite

/-- The value of a plain scalar without a tag; nothing for a whole number that is
refused. -/
def plain? (s : List Char) : Option Value :=
  if s.isEmpty || isNullText s then some .null
  else
    match bool? s, whole s with
    | some b, _ => some (.bool b)
    | none, .inRange n => some (.number (.whole n))
    | none, .tooWide => none
    | none, .none =>
      let x := if hasLeadingZero s then none else binary? s
      match x with
      | some x => some (.number (.binary x))
      | none => some (.text (String.ofList s))

/-- The value of a scalar with one of the tags of the core schema. -/
def core? (tag : String) (s : List Char) : Option Value :=
  if tag == "tag:yaml.org,2002:bool" then (bool? s).map .bool
  else if tag == "tag:yaml.org,2002:int" then
    match whole s with
    | .inRange n => some (.number (.whole n))
    | _ => none
  else if tag == "tag:yaml.org,2002:float" then (binary? s).map fun x => .number (.binary x)
  else if tag == "tag:yaml.org,2002:null" then (if isNullText s then some .null else none)
  else some (.text (String.ofList s))

end Galley.Yaml.Scalar
