import Galley.Json
import Galley.Number.Reader

/-!
Reading plain values from their text form.

`Json.read?` accepts exactly one value with blanks around it. A number without
point and exponent is whole while it fits 64 bits. Any other number is the
product or quotient of its digits and a power of ten, each rounded to a
binary64. Lists and objects nest less than `depthLimit` deep, and the last value
of a repeated key stays.
-/

namespace Galley.Json

def isSpace (c : Char) : Bool :=
  c == ' ' || c == '\t' || c == '\n' || c == '\r'

def skipSpace (s : List Char) : List Char :=
  s.dropWhile isSpace

/-! ### Numbers -/

/-- The digits of a number: as many as fit 64 bits, and the count of the digits
behind them. -/
def takeDigits : Nat → List Char → Nat × Nat
  | n, [] => (n, 0)
  | n, c :: cs =>
    let next := n * 10 + (c.toNat - 48)
    if Number.fitsUnsigned 64 next then takeDigits next cs else (n, (c :: cs).length)

/-- The binary64 nearest to a power of ten. -/
def tenTo (n : Nat) : Float :=
  Float.ofScientific 1 false n

/-- Scales a binary64 by a power of ten; nothing when the product is infinite. -/
def scale? : Nat → Float → Int → Option Float
  | 0, _, _ => none
  | fuel + 1, x, e =>
    if e.natAbs ≤ 308 then
      if 0 ≤ e then
        let y := x * tenTo e.natAbs
        if y.isInf then none else some y
      else some (x / tenTo e.natAbs)
    else if x == 0 then some x
    else if 0 ≤ e then none
    else scale? fuel (x / tenTo 308) (e + 308)

/-- The binary64 of a significand and a power of ten. -/
def scaled? (negative : Bool) (digits : Nat) (e : Int) : Option Binary64 :=
  (scale? 8 (Float.ofNat digits) (max e (-2000))).map fun x =>
    ⟨(if negative then -x else x).toBits⟩

/-- The number of whole digits, digits behind a point and a written exponent. -/
def makeNumber? (negative : Bool) (whole : List Char) (after : Option (List Char))
    (power : Option Int) : Option Number :=
  let (n, dropped) := takeDigits 0 whole
  match after, power with
  | none, none =>
    if dropped == 0 && !negative then some (.whole n)
    else if dropped == 0 && n != 0 && Number.fitsSigned 64 (-n) then some (.whole (-(n : Int)))
    else (scaled? negative n dropped).map .binary
  | _, _ =>
    let fraction := after.getD []
    let (m, kept) :=
      if dropped == 0 then
        let (m, left) := takeDigits n fraction
        (m, (fraction.length - left : Nat))
      else (n, 0)
    let e := power.getD 0
    (scaled? negative m (e + dropped - kept)).map .binary

def readNumber? (s : List Char) : Option (Json × List Char) := do
  let (negative, s) := match s with
    | '-' :: rest => (true, rest)
    | _ => (false, s)
  let whole := s.takeWhile Char.isDigit
  let s := s.dropWhile Char.isDigit
  if whole.isEmpty || (whole.length > 1 && whole.head? == some '0') then none
  else
    let (after, s) ← match s with
      | '.' :: rest =>
        let digits := rest.takeWhile Char.isDigit
        if digits.isEmpty then none else some (some digits, rest.dropWhile Char.isDigit)
      | _ => some (none, s)
    let (power, s) ← match s with
      | c :: rest =>
        if c == 'e' || c == 'E' then
          let (minus, rest) := Number.readSign rest
          let digits := rest.takeWhile Char.isDigit
          match Number.readExponent? digits with
          | some n => some (some (if minus then -n else n), rest.dropWhile Char.isDigit)
          | none => none
        else some (none, s)
      | [] => some (none, s)
    let n ← makeNumber? negative whole after power
    return (.number n, s)

/-! ### Texts -/

def readUnit? : List Char → Option (Nat × List Char)
  | a :: b :: c :: d :: rest => do
    let n ← Number.readDigits? 16 [a, b, c, d]
    return (n, rest)
  | _ => none

def escaped? (c : Char) : Option Char :=
  match c with
  | '"' => some '"'
  | '\\' => some '\\'
  | '/' => some '/'
  | 'b' => some (Char.ofNat 8)
  | 'f' => some (Char.ofNat 12)
  | 'n' => some '\n'
  | 'r' => some '\r'
  | 't' => some '\t'
  | _ => none

/-- A character given by one or two units. -/
def readEscapedUnit? (s : List Char) : Option (Char × List Char) := do
  let (n, rest) ← readUnit? s
  if 0xD800 ≤ n && n < 0xDC00 then
    match rest with
    | '\\' :: 'u' :: rest =>
      let (m, rest) ← readUnit? rest
      if 0xDC00 ≤ m && m < 0xE000 then
        return (Char.ofNat (0x10000 + (n - 0xD800) * 0x400 + (m - 0xDC00)), rest)
      else none
    | _ => none
  else if 0xDC00 ≤ n && n < 0xE000 then none
  else return (Char.ofNat n, rest)

/-- The characters up to a closing quote; `acc` holds those read, in reverse. -/
def readChars? : Nat → List Char → List Char → Option (String × List Char)
  | 0, _, _ => none
  | fuel + 1, acc, s =>
    match s with
    | [] => none
    | '"' :: rest => some (String.ofList acc.reverse, rest)
    | '\\' :: 'u' :: rest => do
      let (c, rest) ← readEscapedUnit? rest
      readChars? fuel (c :: acc) rest
    | '\\' :: e :: rest => do
      let c ← escaped? e
      readChars? fuel (c :: acc) rest
    | c :: rest => if c.toNat < 0x20 || c == '\\' then none else readChars? fuel (c :: acc) rest

/-! ### Values -/

/-- The greatest number of lists and objects around a value, plus one. -/
def depthLimit : Nat := 128

mutual

def readValue? : Nat → Nat → List Char → Option (Json × List Char)
  | 0, _, _ => none
  | fuel + 1, depth, s =>
    match skipSpace s with
    | 'n' :: 'u' :: 'l' :: 'l' :: rest => some (.null, rest)
    | 't' :: 'r' :: 'u' :: 'e' :: rest => some (.bool true, rest)
    | 'f' :: 'a' :: 'l' :: 's' :: 'e' :: rest => some (.bool false, rest)
    | '"' :: rest => (readChars? (rest.length + 1) [] rest).map fun (t, rest) => (.text t, rest)
    | '[' :: rest =>
      if depth ≤ 1 then none
      else
        match skipSpace rest with
        | ']' :: rest => some (.list [], rest)
        | _ => readItems? fuel (depth - 1) [] rest
    | '\x7b' :: rest =>
      if depth ≤ 1 then none
      else
        match skipSpace rest with
        | '\x7d' :: rest => some (.object [], rest)
        | _ => readFields? fuel (depth - 1) [] rest
    | s => readNumber? s

/-- The items of a list up to its end; `acc` holds those read, in reverse. -/
def readItems? : Nat → Nat → List Json → List Char → Option (Json × List Char)
  | 0, _, _, _ => none
  | fuel + 1, depth, acc, s => do
    let (v, rest) ← readValue? fuel depth s
    match skipSpace rest with
    | ',' :: rest => readItems? fuel depth (v :: acc) rest
    | ']' :: rest => return (.list (v :: acc).reverse, rest)
    | _ => none

def readFields? : Nat → Nat → List (String × Json) → List Char → Option (Json × List Char)
  | 0, _, _, _ => none
  | fuel + 1, depth, acc, s =>
    match skipSpace s with
    | '"' :: rest => do
      let (k, rest) ← readChars? (rest.length + 1) [] rest
      match skipSpace rest with
      | ':' :: rest =>
        let (v, rest) ← readValue? fuel depth rest
        let acc := Fields.insert k v acc
        match skipSpace rest with
        | ',' :: rest => readFields? fuel depth acc rest
        | '\x7d' :: rest => return (.object acc, rest)
        | _ => none
      | _ => none
    | _ => none

end

def read? (text : String) : Option Json :=
  let s := text.toList
  match readValue? (2 * s.length + 2) depthLimit s with
  | some (v, rest) => if (skipSpace rest).isEmpty then some v else none
  | none => none

end Galley.Json
