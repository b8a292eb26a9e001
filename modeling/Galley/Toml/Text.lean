import Galley.Number.Reader
import Galley.Text.Blank

/-!
Texts and keys in TOML.

A text stands between double quotes, with escapes, or between single quotes, as
it is; three quotes on either side let it run over lines.
-/

namespace Galley.Toml

def isSpace (c : Char) : Bool :=
  c == ' ' || c == '\t'

def skipSpace (s : List Char) : List Char :=
  s.dropWhile isSpace

def dropNewline? : List Char → Option (List Char)
  | '\n' :: s => some s
  | '\r' :: '\n' :: s => some s
  | _ => none

def isTextChar (c : Char) : Bool :=
  c == '\t' || (0x20 ≤ c.toNat && c.toNat != 0x7F)

/-- Skips blanks, comments and line ends. -/
def skipTrivia : Nat → List Char → List Char
  | 0, s => s
  | n + 1, s =>
    match skipSpace s with
    | '#' :: rest => skipTrivia n (rest.dropWhile isTextChar)
    | s =>
      match dropNewline? s with
      | some rest => skipTrivia n rest
      | none => s

/-! ### Texts -/

/-- The character with the number given by a count of digits in base sixteen. -/
def readCodePoint? (count : Nat) (s : List Char) : Option (Char × List Char) := do
  let digits := s.take count
  if digits.length ≠ count then none
  else
    let n ← Number.readDigits? 16 digits
    if n < 0xD800 || (0xDFFF < n && n < 0x110000) then some (Char.ofNat n, s.drop count) else none

def readEscape? : List Char → Option (Char × List Char)
  | 'b' :: s => some ('\x08', s)
  | 't' :: s => some ('\t', s)
  | 'n' :: s => some ('\n', s)
  | 'f' :: s => some ('\x0c', s)
  | 'r' :: s => some ('\r', s)
  | '"' :: s => some ('"', s)
  | '\\' :: s => some ('\\', s)
  | 'u' :: s => readCodePoint? 4 s
  | 'U' :: s => readCodePoint? 8 s
  | _ => none

def readLine? (quote : Char) (escapes : Bool) : Nat → List Char → Option (List Char × List Char)
  | 0, _ => none
  | _, [] => none
  | n + 1, c :: s =>
    if c = quote then some ([], s)
    else if c = '\\' && escapes then do
      let (d, s) ← readEscape? s
      let (text, rest) ← readLine? quote escapes n s
      return (d :: text, rest)
    else if isTextChar c then do
      let (text, rest) ← readLine? quote escapes n s
      return (c :: text, rest)
    else none

/-- Skips blanks and line ends. -/
def skipBlankLines : Nat → List Char → List Char
  | 0, s => s
  | n + 1, s =>
    match dropNewline? (skipSpace s) with
    | some rest => skipBlankLines n rest
    | none => skipSpace s

/-- Skips the line end that a backslash joins, and the blank space behind it. -/
def skipJoin? (s : List Char) : Option (List Char) :=
  (dropNewline? (skipSpace s)).map fun s => skipBlankLines s.length s

/-- The rest of a text that runs over lines. Up to two quotes may stand in front
of the closing ones. -/
def readLines? (quote : Char) (escapes : Bool) : Nat → List Char → Option (List Char × List Char)
  | 0, _ => none
  | _, [] => none
  | n + 1, c :: s =>
    if c = quote then
      let quotes := ((c :: s).takeWhile (· = quote)).length
      if quotes < 3 then do
        let (text, rest) ← readLines? quote escapes n s
        return (c :: text, rest)
      else
        let own := min (quotes - 3) 2
        some (List.replicate own quote, (c :: s).drop (own + 3))
    else if c = '\\' && escapes then
      match skipJoin? s with
      | some s => readLines? quote escapes n s
      | none => do
        let (d, s) ← readEscape? s
        let (text, rest) ← readLines? quote escapes n s
        return (d :: text, rest)
    else
      match dropNewline? (c :: s) with
      | some s => do
        let (text, rest) ← readLines? quote escapes n s
        return ('\n' :: text, rest)
      | none =>
        if isTextChar c then do
          let (text, rest) ← readLines? quote escapes n s
          return (c :: text, rest)
        else none

def readText? : List Char → Option (List Char × List Char)
  | '"' :: s => readLine? '"' true (s.length + 1) s
  | '\x27' :: s => readLine? '\x27' false (s.length + 1) s
  | _ => none

/-- A text over lines; a line end right behind the opening quotes is dropped. -/
def readLongText? : List Char → Option (List Char × List Char)
  | '"' :: '"' :: '"' :: s => readLines? '"' true (s.length + 1) ((dropNewline? s).getD s)
  | '\x27' :: '\x27' :: '\x27' :: s =>
    readLines? '\x27' false (s.length + 1) ((dropNewline? s).getD s)
  | _ => none

/-! ### Keys -/

def isKeyChar (c : Char) : Bool :=
  c.isAlphanum || c == '_' || c == '-'

def readName? (s : List Char) : Option (String × List Char) :=
  match readText? s with
  | some (name, rest) => some (String.ofList name, rest)
  | none =>
    match s.span isKeyChar with
    | ([], _) => none
    | (name, rest) => some (String.ofList name, rest)

/-- A key: names with dots between them. -/
def readKey? : Nat → List Char → Option (List String × List Char)
  | 0, _ => none
  | n + 1, s => do
    let (name, rest) ← readName? (skipSpace s)
    match skipSpace rest with
    | '.' :: rest =>
      let (names, rest) ← readKey? n rest
      return (name :: names, rest)
    | rest => return ([name], rest)

end Galley.Toml
