/-!
Patterns for file paths.

A pattern is matched against the bytes of a path. A star stands for any bytes of
one name, two stars between slashes for any number of directories, a question
mark for one byte of a name, brackets for one byte of a class, and braces for
one of several patterns. `Glob.ofText?` reads a pattern and `Glob.covers` tells
whether it matches a whole path.
-/

namespace Galley

inductive GlobToken where
  | literal (c : Char)
  /-- One byte of a name. -/
  | any
  /-- Any bytes of a name. -/
  | star
  /-- Any directories at the front, or none. -/
  | directories
  /-- A slash and everything behind it. -/
  | beneath
  /-- A slash, or any directories between two slashes. -/
  | between
  | byteClass (negated : Bool) (ranges : List (Char × Char))
  | alternates (patterns : List (List GlobToken))
  deriving Inhabited

/-- A pattern for file paths. -/
structure Glob where
  text : String
  tokens : List GlobToken
  deriving Inhabited

namespace Glob

/-- The pattern for model files. -/
def defaultText : String := "**/*.\x7byml,yaml\x7d"

/-! ### Reading patterns -/

/-- The state of the reader. The branches of open braces are kept innermost
first, each group with its finished branches and all tokens in reverse. -/
structure Reading where
  rest : List Char
  previous : Option Char := none
  current : Option Char := none
  tokens : List GlobToken := []
  /-- For every open brace, innermost first: the finished branches, in reverse,
  and the tokens before the brace. -/
  groups : List (List (List GlobToken) × List GlobToken) := []

namespace Reading

def bump (r : Reading) : Option (Char × Reading) :=
  match r.rest with
  | [] => none
  | c :: cs => some (c, { r with rest := cs, previous := r.current, current := some c })

def push (r : Reading) (t : GlobToken) : Reading :=
  { r with tokens := t :: r.tokens }

def skipSlash (r : Reading) : Reading :=
  match r.bump with
  | some ('/', r') => r'
  | _ => r

/-- Adds what stands between two slashes, or behind the last one, in place of the
token before it. Repeated double stars count once. -/
def pushRecursive (r : Reading) (t : GlobToken) : Reading :=
  match r.tokens with
  | .directories :: _ => r
  | .beneath :: _ => r
  | _ :: before => { r with tokens := t :: before }
  | [] => { r with tokens := [t] }

/-- Reads what follows a star; `before` is the character in front of it. -/
def star (before : Option Char) (r : Reading) : Reading :=
  match r.rest with
  | '*' :: _ =>
    let r := (r.bump.map Prod.snd).getD r
    let plain := (r.push .star).push .star
    if r.tokens.isEmpty then
      match r.rest with
      | [] | '/' :: _ => (r.push .directories).skipSlash
      | _ => plain
    else if before != some '/' &&
        (r.groups.isEmpty || (before != some ',' && before != some '\x7b')) then plain
    else
      match r.rest with
      | [] => r.pushRecursive .beneath
      | '/' :: _ => (r.skipSlash).pushRecursive .between
      | c :: _ =>
        if (c == ',' || c == '\x7d') && !r.groups.isEmpty then r.pushRecursive .beneath else plain
  | _ => r.push .star

/-- Sets the end of the last range; nothing when it lies before its start. -/
def endRange? (ranges : List (Char × Char)) (c : Char) : Option (List (Char × Char)) :=
  match ranges with
  | (low, _) :: more => if c < low then none else some ((low, c) :: more)
  | [] => none

/-- Reads the ranges of a class up to its closing bracket, in reverse. -/
def classRanges : Nat → Bool → Bool → List (Char × Char) → Reading →
    Option (List (Char × Char) × Reading)
  | 0, _, _, _, _ => none
  | fuel + 1, first, pending, ranges, r =>
    match r.bump with
    | none => none
    | some (c, r) =>
      if c == ']' && !first then
        some (if pending then ('-', '-') :: ranges else ranges, r)
      else if c == '-' && !first && !pending then classRanges fuel false true ranges r
      else if pending then
        (endRange? ranges c).bind fun ranges => classRanges fuel false false ranges r
      else classRanges fuel false false ((c, c) :: ranges) r

def byteClass? (r : Reading) : Option Reading :=
  let (negated, r) := match r.bump with
    | some ('!', r') => (true, r')
    | some ('^', r') => (true, r')
    | _ => (false, r)
  (classRanges (r.rest.length + 1) true false [] r).map fun (ranges, r) =>
    r.push (.byteClass negated ranges.reverse)

def openGroup (r : Reading) : Reading :=
  { r with groups := ([], r.tokens) :: r.groups, tokens := [] }

/-- Starts another branch of the innermost group, or reads a plain comma. -/
def comma (r : Reading) : Reading :=
  match r.groups with
  | [] => r.push (.literal ',')
  | (branches, before) :: outer =>
    { r with groups := (r.tokens.reverse :: branches, before) :: outer, tokens := [] }

def closeGroup? (r : Reading) : Option Reading :=
  match r.groups with
  | [] => none
  | (branches, before) :: outer =>
    some { r with
      groups := outer
      tokens := .alternates ((r.tokens.reverse :: branches).reverse) :: before }

def escape? (r : Reading) : Option Reading :=
  r.bump.map fun (c, r) => r.push (.literal c)

def step? (r : Reading) : Option Reading :=
  match r.bump with
  | none => some r
  | some (c, next) =>
    if c == '?' then some (next.push .any)
    else if c == '*' then some (next.star r.current)
    else if c == '[' then next.byteClass?
    else if c == '\x7b' then some next.openGroup
    else if c == '\x7d' then next.closeGroup?
    else if c == ',' then some next.comma
    else if c == '\\' then next.escape?
    else some (next.push (.literal c))

def run? : Nat → Reading → Option (List GlobToken)
  | 0, _ => none
  | fuel + 1, r =>
    if r.rest.isEmpty then (if r.groups.isEmpty then some r.tokens.reverse else none)
    else r.step?.bind (run? fuel)

end Reading

/-- The pattern of a text; nothing when a bracket or brace does not close, a range
runs backwards or a backslash ends the text. -/
def ofText? (text : String) : Option Glob :=
  let chars := text.toList
  (Reading.run? (chars.length + 1) { rest := chars }).map fun tokens => ⟨text, tokens⟩

/-! ### Matching -/

def slash : UInt8 := 0x2F

def bytesOf (s : String) : List UInt8 :=
  s.toUTF8.data.toList

/-- Whether a byte lies in a range of a class. A bound beyond ASCII stands for its
bytes, of which the neighbours of the hyphen are the bounds of the range. -/
def inRange (b : UInt8) (range : Char × Char) : Bool :=
  let low := bytesOf range.1.toString
  if range.1 == range.2 then low.contains b
  else
    let high := bytesOf range.2.toString
    low.contains b || high.contains b || (low.getLastD 0 ≤ b && b ≤ high.headD 0)

/-- Tries a continuation behind every front of a text whose bytes satisfy `p`. -/
def anyFront (p : UInt8 → Bool) (next : List UInt8 → Bool) : List UInt8 → Bool
  | [] => next []
  | b :: bs => next (b :: bs) || (p b && anyFront p next bs)

/-- Tries a continuation behind every slash. -/
def anySlash (next : List UInt8 → Bool) : List UInt8 → Bool
  | [] => false
  | b :: bs => (b == slash && next bs) || anySlash next bs

/-- Tries a continuation behind a given front. -/
def behind (front : List UInt8) (next : List UInt8 → Bool) (s : List UInt8) : Bool :=
  front.isPrefixOf s && next (s.drop front.length)

/-- Tries a continuation behind one byte that satisfies `p`. -/
def oneByte (p : UInt8 → Bool) (next : List UInt8 → Bool) : List UInt8 → Bool
  | [] => false
  | b :: bs => p b && next bs

mutual

/-- Whether a token writes nothing at all: braces around empty patterns only. -/
def isVoid : GlobToken → Bool
  | .alternates patterns => areVoid patterns
  | _ => false
termination_by structural t => t

def isVoidPattern : List GlobToken → Bool
  | [] => true
  | t :: ts => isVoid t && isVoidPattern ts
termination_by structural ts => ts

def areVoid : List (List GlobToken) → Bool
  | [] => true
  | p :: ps => isVoidPattern p && areVoid ps
termination_by structural ps => ps

end

mutual

/-- Matches a token at the front of a text and the continuation behind it. -/
def matchToken : GlobToken → (List UInt8 → Bool) → List UInt8 → Bool
  | .literal c, next => behind (bytesOf c.toString) next
  | .any, next => oneByte (· != slash) next
  | .star, next => anyFront (· != slash) next
  | .directories, next => fun s => next s || anySlash next s
  | .beneath, next => behind [slash] (anyFront (fun _ => true) next)
  | .between, next => behind [slash] fun s => next s || anySlash next s
  | .byteClass negated ranges, next => oneByte (fun b => ranges.any (inRange b) != negated) next
  | .alternates patterns, next =>
    if areVoid patterns then next else matchSome patterns next
termination_by structural t => t

def matchTokens : List GlobToken → (List UInt8 → Bool) → List UInt8 → Bool
  | [], next => next
  | t :: ts, next => matchToken t (matchTokens ts next)
termination_by structural ts => ts

/-- Matches one of several patterns; an empty one does not count. -/
def matchSome : List (List GlobToken) → (List UInt8 → Bool) → List UInt8 → Bool
  | [], _ => fun _ => false
  | p :: ps, next => fun s =>
    (!isVoidPattern p && matchTokens p next s) || matchSome ps next s
termination_by structural ps => ps

end

/-- Whether a pattern matches a whole path. Two stars alone match every path. -/
def covers (g : Glob) (path : String) : Bool :=
  match g.tokens with
  | [.directories] => true
  | tokens => matchTokens tokens List.isEmpty (bytesOf path)

end Glob

end Galley
