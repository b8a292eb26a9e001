/-!
The reading position in a YAML text.

A cursor holds the characters that are left and the mark of the next one. Line
breaks are those of YAML: carriage return, line feed, both together, next line,
line separator and paragraph separator.
-/

namespace Galley.Yaml

/-- A place in a text; lines and columns count from zero. -/
structure Mark where
  index : Nat := 0
  line : Nat := 0
  column : Nat := 0
  deriving DecidableEq, Inhabited, Repr

/-- A fault in a text and the line, counted from one, at which it is reported;
zero when no line is known. -/
structure Fault where
  line : Nat
  deriving DecidableEq, Inhabited, Repr

def Fault.at (m : Mark) : Fault :=
  ⟨m.line + 1⟩

/-! ### Character classes -/

def isBreak (c : Char) : Bool :=
  c == '\n' || c == '\r' || c.toNat == 0x85 || c.toNat == 0x2028 || c.toNat == 0x2029

def isSpaceOrTab (c : Char) : Bool :=
  c == ' ' || c == '\t'

/-- Letters, digits, the underscore and the hyphen. -/
def isWordChar (c : Char) : Bool :=
  c.isAlphanum || c == '_' || c == '-'

/-- The characters that may occur in a text at all. -/
def isAllowed (c : Char) : Bool :=
  let n := c.toNat
  n == 0x09 || n == 0x0A || n == 0x0D || (0x20 ≤ n && n ≤ 0x7E) || n == 0x85 ||
    (0xA0 ≤ n && n ≤ 0xD7FF) || (0xE000 ≤ n && n ≤ 0xFFFD) || 0x10000 ≤ n

def hexDigit? (c : Char) : Option Nat :=
  if c.isDigit then some (c.toNat - 48)
  else if 'a' ≤ c && c ≤ 'f' then some (c.toNat - 87)
  else if 'A' ≤ c && c ≤ 'F' then some (c.toNat - 55)
  else none

/-! ### Cursors -/

structure Cursor where
  rest : List Char
  mark : Mark := {}
  deriving Inhabited

namespace Cursor

def peek? (c : Cursor) (n : Nat) : Option Char :=
  c.rest[n]?

def isAt (c : Cursor) (n : Nat) (ch : Char) : Bool :=
  c.peek? n == some ch

def is (c : Cursor) (ch : Char) : Bool :=
  c.isAt 0 ch

def test (c : Cursor) (p : Char → Bool) : Bool :=
  match c.rest with
  | [] => false
  | ch :: _ => p ch

def atEnd (c : Cursor) : Bool :=
  c.rest.isEmpty

/-- A break or the end at a distance. -/
def breakOrEndAt (c : Cursor) (n : Nat) : Bool :=
  match c.peek? n with
  | none => true
  | some ch => isBreak ch

def blankOrEndAt (c : Cursor) (n : Nat) : Bool :=
  match c.peek? n with
  | none => true
  | some ch => isSpaceOrTab ch || isBreak ch

/-- Moves over one character of a line. -/
def skip (c : Cursor) : Cursor :=
  match c.rest with
  | [] => c
  | _ :: cs => ⟨cs, ⟨c.mark.index + 1, c.mark.line, c.mark.column + 1⟩⟩

def skipN (c : Cursor) : Nat → Cursor
  | 0 => c
  | n + 1 => c.skip.skipN n

/-- Moves over a line break, if one is next. -/
def skipLine (c : Cursor) : Cursor :=
  match c.rest with
  | '\r' :: '\n' :: cs => ⟨cs, ⟨c.mark.index + 2, c.mark.line + 1, 0⟩⟩
  | ch :: cs => if isBreak ch then ⟨cs, ⟨c.mark.index + 1, c.mark.line + 1, 0⟩⟩ else c
  | [] => c

/-- The text that a line break at the position stands for. -/
def breakText (c : Cursor) : List Char :=
  match c.rest with
  | ch :: _ =>
    if ch == '\n' || ch == '\r' || ch.toNat == 0x85 then ['\n']
    else if isBreak ch then [ch]
    else []
  | [] => []

/-- Moves over the characters that satisfy `p` and collects them. -/
def takeWhile (p : Char → Bool) (c : Cursor) : List Char × Cursor :=
  let taken := c.rest.takeWhile p
  let n := taken.length
  (taken, ⟨c.rest.drop n, ⟨c.mark.index + n, c.mark.line, c.mark.column + n⟩⟩)

def skipWhile (p : Char → Bool) (c : Cursor) : Cursor :=
  (c.takeWhile p).2

def skipToBreak (c : Cursor) : Cursor :=
  c.skipWhile fun ch => !isBreak ch

/-- A document marker (three hyphens or three dots) at the start of a line. -/
def atDocumentMarker (c : Cursor) : Bool :=
  c.mark.column == 0 &&
    ((c.isAt 0 '-' && c.isAt 1 '-' && c.isAt 2 '-') ||
      (c.isAt 0 '.' && c.isAt 1 '.' && c.isAt 2 '.')) &&
    c.blankOrEndAt 3

end Cursor

end Galley.Yaml
