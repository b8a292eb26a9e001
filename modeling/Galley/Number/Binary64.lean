/-!
Binary64 numbers by their bits.

A finite number is a sign, a significand `m` and an exponent `q` with the value
`m · 2^q`. Reading takes a decimal to the nearest binary64. Writing finds the
fewest digits that read back to the same number and, among those, the nearest.
-/

namespace Galley

/-- A binary64 number by its bits, so that equality of values of this type is
equality of bits. -/
structure Binary64 where
  bits : UInt64
  deriving DecidableEq, Inhabited

namespace Binary64

def negative (x : Binary64) : Bool :=
  x.bits >>> 63 == 1

def exponentField (x : Binary64) : Nat :=
  ((x.bits >>> 52) &&& 0x7FF).toNat

def fractionField (x : Binary64) : Nat :=
  (x.bits &&& 0xFFFFFFFFFFFFF).toNat

def isNaN (x : Binary64) : Bool :=
  x.exponentField == 0x7FF && x.fractionField != 0

def isInfinite (x : Binary64) : Bool :=
  x.exponentField == 0x7FF && x.fractionField == 0

def isFinite (x : Binary64) : Bool :=
  x.exponentField != 0x7FF

def isZero (x : Binary64) : Bool :=
  x.exponentField == 0 && x.fractionField == 0

/-- Neither zero, subnormal, infinite nor NaN. -/
def isNormal (x : Binary64) : Bool :=
  x.exponentField != 0 && x.exponentField != 0x7FF

/-- The significand of a finite number. -/
def significand (x : Binary64) : Nat :=
  if x.exponentField == 0 then x.fractionField else x.fractionField + 0x10000000000000

/-- The exponent of the last bit of the significand of a finite number. -/
def lastBit (x : Binary64) : Int :=
  if x.exponentField == 0 then -1074 else (x.exponentField : Int) - 1075

def infinity (negative : Bool) : Binary64 :=
  ⟨if negative then 0xFFF0000000000000 else 0x7FF0000000000000⟩

def nan : Binary64 := ⟨0x7FF8000000000000⟩

def zero (negative : Bool) : Binary64 :=
  ⟨if negative then 0x8000000000000000 else 0⟩

/-- Numeric equality: the two zeros are equal and a NaN equals a NaN. -/
def same (x y : Binary64) : Bool :=
  x.bits == y.bits || (x.isZero && y.isZero) || (x.isNaN && y.isNaN)

def neg (x : Binary64) : Binary64 :=
  ⟨x.bits ^^^ 0x8000000000000000⟩

/-- The binary64 nearest to `± digits · 10^exponent`, infinite when it is out of
range. -/
def ofDecimal (negative : Bool) (digits : Nat) (exponent : Int) : Binary64 :=
  let size : Int := (Nat.toDigits 10 digits).length
  if digits == 0 || size + exponent < -330 then zero negative
  else if size + exponent > 310 then infinity negative
  else
    let x : Float :=
      if exponent < 0 then Float.ofScientific digits true (-exponent).toNat
      else Float.ofScientific digits false exponent.toNat
    ⟨(if negative then -x else x).toBits⟩

/-- The binary64 nearest to a whole number. -/
def ofInt (n : Int) : Binary64 :=
  ofDecimal (n < 0) n.natAbs 0

/-! ### Shortest digits -/

def digitCount (n : Nat) : Nat :=
  (Nat.toDigits 10 n).length

/-- The least `s ≤ fuel` with `den ≤ num · 10^s`. -/
def scaleUp (num den : Nat) : Nat → Nat → Nat
  | 0, s => s
  | fuel + 1, s => if den ≤ num * Nat.pow 10 s then s else scaleUp num den fuel (s + 1)

/-- The place of the leading digit of `num / den`. -/
def leadingPlace (num den : Nat) : Int :=
  if den ≤ num then (digitCount (num / den) : Int) - 1
  else -(scaleUp num den 400 1 : Nat)

/-- Tests the two neighbours of `num / den` on the grid of `10^place` against the
interval from `low / den` to `high / den`. -/
def gridPoint? (num low high den : Nat) (closed : Bool) (place : Int) : Option Nat :=
  let up := if place < 0 then Nat.pow 10 (-place).toNat else 1
  let down := if place < 0 then den else den * Nat.pow 10 place.toNat
  let inside (d : Nat) : Bool :=
    if closed then low * up ≤ d * down && d * down ≤ high * up
    else low * up < d * down && d * down < high * up
  let below := num * up / down
  let above := below + 1
  match inside below, inside above with
  | true, true =>
    let toBelow := num * up - below * down
    let toAbove := above * down - num * up
    if toBelow < toAbove || (toBelow == toAbove && below % 2 == 0) then some below else some above
  | true, false => some below
  | false, true => some above
  | false, false => none

/-- Searches grids from one digit upwards. -/
def searchGrid (num low high den : Nat) (closed : Bool) (lead : Int) :
    Nat → Nat → Nat × Int
  | 0, _ => (num / den, 0)
  | fuel + 1, count =>
    let place := lead + 1 - count
    match gridPoint? num low high den closed place with
    | some d => (d, place)
    | none => searchGrid num low high den closed lead fuel (count + 1)

/-- Drops the zeros at the end of a decimal. -/
def dropZeros : Nat → Nat → Int → Nat × Int
  | 0, d, e => (d, e)
  | fuel + 1, d, e => if d != 0 && d % 10 == 0 then dropZeros fuel (d / 10) (e + 1) else (d, e)

/-- The shortest decimal `digits · 10^exponent` that reads back to a finite
non-zero number, without its sign. -/
def shortest (x : Binary64) : Nat × Int :=
  let m := x.significand
  let q := x.lastBit - 2
  let scale := if q < 0 then 1 else Nat.pow 2 q.toNat
  let den := if q < 0 then Nat.pow 2 (-q).toNat else 1
  let num := 4 * m * scale
  let narrow := x.fractionField == 0 && x.exponentField > 1
  let low := (4 * m - (if narrow then 1 else 2)) * scale
  let high := (4 * m + 2) * scale
  let lead := leadingPlace num den
  let (d, e) := searchGrid num low high den (m % 2 == 0) lead 18 1
  dropZeros 20 d e

end Binary64

end Galley
