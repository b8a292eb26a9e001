import Galley.Number.Decimal

/-!
Reading numbers.

`readBinary?` accepts a decimal with an optional sign, point and exponent and
takes it to the nearest binary64. `readDigits?` accepts the digits of a whole
number in a base from two to sixteen.
-/

namespace Galley.Number

def digitValue? (base : Nat) (c : Char) : Option Nat :=
  let n :=
    if c.isDigit then c.toNat - 48
    else if 'a' ≤ c && c ≤ 'z' then c.toNat - 87
    else if 'A' ≤ c && c ≤ 'Z' then c.toNat - 55
    else base
  if n < base then some n else none

/-- The value of a non-empty text of digits. -/
def readDigits? (base : Nat) (s : List Char) : Option Nat :=
  if s.isEmpty then none
  else s.foldlM (fun acc c => (digitValue? base c).map (acc * base + ·)) 0

def readSign (s : List Char) : Bool × List Char :=
  match s with
  | '-' :: rest => (true, rest)
  | '+' :: rest => (false, rest)
  | _ => (false, s)

def readWhole? (s : List Char) : Option Int :=
  let (negative, digits) := readSign s
  (readDigits? 10 digits).map fun n => if negative then -(n : Int) else n

/-- An exponent: a sign and digits, cut off where it decides nothing any more. -/
def readExponent? (s : List Char) : Option Int :=
  let (negative, digits) := readSign s
  if digits.isEmpty || !digits.all Char.isDigit then none
  else
    let significant := digits.dropWhile (· == '0')
    let n : Nat := if significant.length > 8 then 99999999 else (readDigits? 10 significant).getD 0
    some (if negative then -(n : Int) else n)

/-- The parts of an unsigned decimal: its digits without the point and the
exponent of the last digit. -/
def readDecimal? (s : List Char) : Option (Nat × Int) := do
  let before := s.takeWhile Char.isDigit
  let s := s.dropWhile Char.isDigit
  let (after, s) := match s with
    | '.' :: rest => (rest.takeWhile Char.isDigit, rest.dropWhile Char.isDigit)
    | _ => ([], s)
  let digits := before ++ after
  if digits.isEmpty then none
  else
    let value := (readDigits? 10 digits).getD 0
    match s with
    | [] => some (value, -(after.length : Int))
    | e :: rest =>
      if e == 'e' || e == 'E' then
        let power ← readExponent? rest
        some (value, power - after.length)
      else none

def readBinary? (s : List Char) : Option Binary64 :=
  let (negative, rest) := readSign s
  (readDecimal? rest).map fun (digits, exponent) => Binary64.ofDecimal negative digits exponent

end Galley.Number
