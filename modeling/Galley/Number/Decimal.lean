import Galley.Number.Binary64
import Galley.Number.Word

/-!
The written forms of numbers.

`Number.render` is the form of data files: whole numbers in decimal digits,
binary64 numbers with the fewest digits that read back, positional between
`1e-5` and `1e16` and scientific outside. `Binary64.positional` never uses an
exponent.
-/

namespace Galley

/-- A number of a data file: a whole number or a binary64. -/
inductive Number where
  | whole (n : Int)
  | binary (x : Binary64)
  deriving DecidableEq, Inhabited

def decimalDigits (n : Nat) : List Char :=
  Nat.toDigits 10 n

def zeros (n : Nat) : List Char :=
  List.replicate n '0'

namespace Binary64

/-- Places a point among the digits of `digits · 10^exponent`. -/
def placePoint (digits : List Char) (exponent : Int) (wholeTail : List Char) : List Char :=
  let point : Int := digits.length + exponent
  if 0 ≤ exponent then digits ++ zeros exponent.toNat ++ wholeTail
  else if 0 < point then digits.take point.toNat ++ '.' :: digits.drop point.toNat
  else '0' :: '.' :: zeros (-point).toNat ++ digits

/-- The form of a finite number in a data file. -/
def renderFinite (x : Binary64) : List Char :=
  let sign := if x.negative then ['-'] else []
  if x.isZero then sign ++ ['0', '.', '0']
  else
    let (d, e) := x.shortest
    let digits := decimalDigits d
    let point : Int := digits.length + e
    if -5 < point && point ≤ 16 then sign ++ placePoint digits e ['.', '0']
    else
      let power := point - 1
      let mantissa := match digits with
        | [] => []
        | [c] => [c]
        | c :: cs => c :: '.' :: cs
      let exponent :=
        (if power < 0 then ['-'] else []) ++ decimalDigits power.natAbs
      sign ++ mantissa ++ 'e' :: exponent

/-- The form without an exponent; a whole value has no point. -/
def positional (x : Binary64) : List Char :=
  if x.isNaN then "NaN".toList
  else
    let sign := if x.negative then ['-'] else []
    if x.isInfinite then sign ++ "inf".toList
    else if x.isZero then sign ++ ['0']
    else
      let (d, e) := x.shortest
      sign ++ placePoint (decimalDigits d) e []

end Binary64

namespace Number

/-- Numeric equality; a whole number never equals a binary64. -/
def same : Number → Number → Bool
  | .whole a, .whole b => a == b
  | .binary x, .binary y => x.same y
  | _, _ => false

def renderWhole (n : Int) : String :=
  String.ofList ((if n < 0 then ['-'] else []) ++ decimalDigits n.natAbs)

def render : Number → String
  | .whole n => renderWhole n
  | .binary x =>
    if x.isNaN then ".nan"
    else if x.isInfinite then (if x.negative then "-.inf" else ".inf")
    else String.ofList x.renderFinite

/-- The written form that always shows a point, used in messages. -/
def renderPointed (x : Binary64) : String :=
  let s := x.positional
  String.ofList (if x.isFinite && !s.contains '.' then s ++ ['.', '0'] else s)

end Number

end Galley
