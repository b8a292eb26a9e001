import Galley.Json
import Galley.Toml.Text

/-!
Numbers, flags, dates and times in TOML.

A date or time is kept as the text that its standard form has.
-/

namespace Galley.Toml

/-! ### Numbers -/

/-- Digits with single underscores between them, without the underscores. -/
def digitsOf? (isDigit : Char → Bool) : List Char → Option (List Char)
  | [] => none
  | [c] => if isDigit c then some [c] else none
  | c :: '_' :: d :: rest =>
    if isDigit c && isDigit d then (digitsOf? isDigit (d :: rest)).map (c :: ·) else none
  | c :: rest => if isDigit c then (digitsOf? isDigit rest).map (c :: ·) else none

/-- Digits in base ten without a zero in front of others. -/
def wholeDigits? (s : List Char) : Option (List Char) :=
  (digitsOf? Char.isDigit s).filter fun digits => digits.length = 1 || digits.head? ≠ some '0'

/-- A whole number that fits sixty-four bits. -/
def fitted? (negative : Bool) (n : Nat) : Option Json :=
  let n : Int := if negative then -n else n
  if Number.fitsSigned 64 n then some (.whole n) else none

def readBased? : List Char → Option Json
  | '0' :: b :: s => do
    let base ← match b with
      | 'x' => some 16
      | 'o' => some 8
      | 'b' => some 2
      | _ => none
    let digits ← digitsOf? (fun c => (Number.digitValue? base c).isSome) s
    fitted? false (← Number.readDigits? base digits)
  | _ => none

def readWhole? (s : List Char) : Option Json := do
  let (negative, digits) := Number.readSign s
  fitted? negative (← Number.readDigits? 10 (← wholeDigits? digits))

/-- An exponent with its letter, without underscores. -/
def exponentOf? : List Char → Option (List Char)
  | [] => some []
  | e :: s =>
    if e = 'e' || e = 'E' then
      let (negative, digits) := Number.readSign s
      (digitsOf? Char.isDigit digits).map fun digits =>
        'e' :: (if negative then ['-'] else []) ++ digits
    else none

/-- A number with a point or an exponent, or one that is infinite or none. -/
def readBinary? (s : List Char) : Option Json := do
  let (negative, unsigned) := Number.readSign s
  if unsigned = "inf".toList then return .number (.binary (.infinity negative))
  if unsigned = "nan".toList then return .number (.binary .nan)
  let isPart (c : Char) : Bool := c.isDigit || c == '_'
  let whole ← wholeDigits? (unsigned.takeWhile isPart)
  let (fraction, rest) ← match unsigned.dropWhile isPart with
    | '.' :: rest => do
      let digits ← digitsOf? Char.isDigit (rest.takeWhile isPart)
      some ('.' :: digits, rest.dropWhile isPart)
    | rest => if rest.isEmpty then none else some ([], rest)
  let exponent ← exponentOf? rest
  let x ← Number.readBinary? (whole ++ fraction ++ exponent)
  if x.isInfinite && !negative then none
  else some (.number (.binary (if negative then x.neg else x)))

/-! ### Dates and times -/

/-- The number of some digits at the front. -/
def readCount? (count : Nat) (s : List Char) : Option (Nat × List Char) :=
  let digits := s.take count
  if digits.length = count && digits.all Char.isDigit then
    (Number.readDigits? 10 digits).map fun n => (n, s.drop count)
  else none

/-- A number with zeros in front, up to a number of digits. -/
def padded (count n : Nat) : List Char :=
  let digits := Nat.toDigits 10 n
  List.replicate (count - digits.length) '0' ++ digits

def daysIn (year month : Nat) : Nat :=
  if month = 2 then
    if year % 4 = 0 && (year % 100 ≠ 0 || year % 400 = 0) then 29 else 28
  else if month ∈ [4, 6, 9, 11] then 30
  else 31

def readDate? (s : List Char) : Option (List Char × List Char) := do
  let (year, s) ← readCount? 4 s
  let (month, s) ← readCount? 2 (← Text.dropPrefix? ['-'] s)
  let (day, s) ← readCount? 2 (← Text.dropPrefix? ['-'] s)
  if 1 ≤ month && month ≤ 12 && 1 ≤ day && day ≤ daysIn year month then
    some (padded 4 year ++ '-' :: padded 2 month ++ '-' :: padded 2 day, s)
  else none

/-- A time of the day; nine digits of the second are kept. -/
def readTime? (s : List Char) : Option (List Char × List Char) := do
  let (hour, s) ← readCount? 2 s
  let (minute, s) ← readCount? 2 (← Text.dropPrefix? [':'] s)
  let (second, s) ← readCount? 2 (← Text.dropPrefix? [':'] s)
  if 23 < hour || 59 < minute || 60 < second then none
  else
    let time := padded 2 hour ++ ':' :: padded 2 minute ++ ':' :: padded 2 second
    match s with
    | '.' :: rest =>
      let digits := rest.takeWhile Char.isDigit
      if digits.isEmpty then none
      else
        let shown := Text.dropTailWhile (· == '0') (digits.take 9)
        some (time ++ (if shown.isEmpty then [] else '.' :: shown), rest.dropWhile Char.isDigit)
    | s => some (time, s)

/-- The distance of a time from the standard one, if it is given. -/
def readOffset? : List Char → Option (List Char × List Char)
  | 'Z' :: s | 'z' :: s => some (['Z'], s)
  | c :: s =>
    if c = '+' || c = '-' then do
      let (hour, s) ← readCount? 2 s
      let (minute, s) ← readCount? 2 (← Text.dropPrefix? [':'] s)
      if 23 < hour || 59 < minute then none
      else
        let sign := if hour = 0 && minute = 0 then '+' else c
        some (sign :: padded 2 hour ++ ':' :: padded 2 minute, s)
    else some ([], c :: s)
  | [] => some ([], [])

def readTimeOfDate? : List Char → Option (List Char × List Char)
  | c :: s =>
    if c = 'T' || c = 't' || c = ' ' then do
      let (time, s) ← readTime? s
      let (offset, s) ← readOffset? s
      return ('T' :: time ++ offset, s)
    else none
  | [] => none

/-- A date, a time or both. -/
def readMoment? (s : List Char) : Option (Json × List Char) :=
  match readDate? s with
  | some (date, rest) =>
    match readTimeOfDate? rest with
    | some (time, rest) => some (.text (String.ofList (date ++ time)), rest)
    | none => some (.text (String.ofList date), rest)
  | none => (readTime? s).map fun (time, rest) => (.text (String.ofList time), rest)

/-! ### Scalars -/

def isTokenChar (c : Char) : Bool :=
  c.isAlphanum || c == '+' || c == '-' || c == '_' || c == '.'

def readToken? (token : List Char) : Option Json :=
  if token = "true".toList then some (.bool true)
  else if token = "false".toList then some (.bool false)
  else
    (readBased? token).orElse fun _ => (readWhole? token).orElse fun _ => readBinary? token

def readScalar? (s : List Char) : Option (Json × List Char) :=
  match readLongText? s with
  | some (text, rest) => some (.text (String.ofList text), rest)
  | none =>
    match readText? s with
    | some (text, rest) => some (.text (String.ofList text), rest)
    | none =>
      (readMoment? s).orElse fun _ =>
        (readToken? (s.takeWhile isTokenChar)).map fun v => (v, s.dropWhile isTokenChar)

end Galley.Toml
