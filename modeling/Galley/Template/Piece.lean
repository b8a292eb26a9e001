import Galley.Template.Operand

/-!
The pieces of a template: stretches of text and the tags between them.

`pieces?` cuts a text into pieces. White space in front of a tag or of the end
is a piece of its own, since a tag may drop it. A backslash in front of a tag
makes the tag text; of several backslashes one is dropped and the tag counts.
-/

namespace Galley.Template

inductive BlockKind where
  | plain
  | verbatim
  | decorator
  | inclusion
  deriving DecidableEq, Inhabited

inductive TagRole where
  | value (of : Invocation)
  | opening (kind : BlockKind) (of : Invocation)
  | alternative (of : Option Invocation)
  | closing (name : String)
  | decorator (of : Invocation)
  | inclusion (of : Invocation)
  | comment
  deriving Inhabited

/-- A tag, with the sides on which it drops white space. -/
structure Tag where
  role : TagRole
  trimsBefore : Bool := false
  trimsAfter : Bool := false
  deriving Inhabited

structure Place where
  line : Nat
  /-- Nothing but blanks share the line with the tag, and the line ends. -/
  isAlone : Bool
  /-- The blanks in front of the tag. -/
  indent : List Char
  deriving Inhabited

inductive Piece where
  | gap (s : List Char)
  | text (s : List Char)
  | tag (tag : Tag) (place : Place)
  deriving Inhabited

/-! ### Text -/

def tagSign : List Char := ['\x7b', '\x7b']

def verbatimSign : List Char := ['\x7b', '\x7b', '\x7b', '\x7b']

/-- Whether backslashes and a tag come next. -/
def slashesLeadTag : List Char → Bool
  | '\\' :: rest => tagSign.isPrefixOf (rest.dropWhile (· == '\\'))
  | _ => false

/-- The text up to a sign, without the escaping backslashes. The flag says that
the backslashes ahead have been escaped already. -/
def readText (sign : List Char) : Bool → List Char → List Char × List Char
  | _, [] => ([], [])
  | true, '\\' :: rest =>
    let (text, rest) := readText sign true rest
    ('\\' :: text, rest)
  | _, '\\' :: '\x7b' :: '\x7b' :: '\x7b' :: '\x7b' :: rest =>
    let (text, rest) := readText sign false rest
    (verbatimSign ++ text, rest)
  | _, '\\' :: '\x7b' :: '\x7b' :: rest =>
    let (text, rest) := readText sign false rest
    (tagSign ++ text, rest)
  | _, c :: rest =>
    if sign.isPrefixOf (c :: rest) then ([], c :: rest)
    else if c = '\\' && slashesLeadTag rest then readText sign true rest
    else
      let (text, rest) := readText sign false rest
      (c :: text, rest)

/-! ### Tags -/

/-- Removes a sign that drops white space. -/
def dropTilde (s : List Char) : Bool × List Char :=
  match skipGap s with
  | '~' :: rest => (true, skipGap rest)
  | s => (false, s)

def dropTagEnd? (closing : String) (s : List Char) : Option (Bool × List Char) := do
  let (trims, rest) := dropTilde s
  return (trims, ← Text.dropPrefix? closing.toList rest)

/-- Cuts a text behind the first place where a sign stands. -/
def afterSign? (sign : List Char) : List Char → Option (List Char)
  | [] => none
  | c :: rest =>
    match Text.dropPrefix? sign (c :: rest) with
    | some rest => some rest
    | none => afterSign? sign rest

def readComment? (s : List Char) : Option (List Char) :=
  let long := (Text.dropPrefix? ['-', '-'] (skipGap s)).bind (afterSign? "--\x7d\x7d".toList)
  long.orElse fun _ => afterSign? "\x7d\x7d".toList s

def readClosingName? (s : List Char) : Option (List Char × List Char) :=
  match s with
  | '\x27' :: _ => readTemplateName? s
  | s =>
    match s.span fun c => isNameChar c || isWordChar c with
    | ([], _) => none
    | name => some name

/-- The role of a tag, from its content. -/
def readRole? (s : List Char) : Option (TagRole × List Char) :=
  match s with
  | '#' :: s =>
    match skipGap s with
    | '*' :: s => (readBlockHead? (skipGap s)).map fun (i, rest) => (.opening .decorator i, rest)
    | '>' :: s => (readInclusion? (skipGap s)).map fun (i, rest) => (.opening .inclusion i, rest)
    | s => (readBlockHead? s).map fun (i, rest) => (.opening .plain i, rest)
  | '/' :: s =>
    (readClosingName? (skipGap s)).map fun (name, rest) => (.closing (String.ofList name), rest)
  | '*' :: s => (readBlockHead? (skipGap s)).map fun (i, rest) => (.decorator i, rest)
  | '>' :: s => (readInclusion? (skipGap s)).map fun (i, rest) => (.inclusion i, rest)
  | '&' :: s => (readHead? (skipGap s)).map fun (head, rest) => (.value { head }, rest)
  | s => (readValue? s).map fun (i, rest) => (.value i, rest)

/-- A tag with a role, behind its opening sign. -/
def finishTag? (trimsBefore : Bool) (role : Option (TagRole × List Char)) (closing : String) :
    Option (Tag × List Char) := do
  let (role, rest) ← role
  let (trimsAfter, rest) ← dropTagEnd? closing rest
  return ({ role, trimsBefore, trimsAfter }, rest)

/-- Removes the word or the sign that begins an alternative. -/
def dropAlternative? (s : List Char) : Option (List Char) :=
  (Text.dropPrefix? "else".toList s).orElse fun _ => Text.dropPrefix? ['^'] s

def readAlternative? (trimsBefore : Bool) (s : List Char) : Option (Tag × List Char) := do
  let rest ← dropAlternative? s
  let plain := finishTag? trimsBefore (some (.alternative none, rest)) "\x7d\x7d"
  plain.orElse fun _ =>
    finishTag? trimsBefore
      ((readBlockHead? (skipGap rest)).map fun (i, rest) => (.alternative (some i), rest))
      "\x7d\x7d"

/-- A value in three braces, behind the opening sign of a tag. -/
def readTripled? (s : List Char) : Option (Tag × List Char) :=
  let tight : Option (Tag × List Char) := do
    let (trims, rest) := dropTilde (← Text.dropPrefix? ['\x7b'] s)
    finishTag? trims ((readValue? rest).map fun (i, rest) => (.value i, rest)) "\x7d\x7d\x7d"
  tight.orElse fun _ => do
    let (trims, rest) := dropTilde s
    let (i, rest) ← readValue? (skipGap (← Text.dropPrefix? ['\x7b'] rest))
    finishTag? trims (some (.value i, ← dropMark? '\x7d' rest)) "\x7d\x7d"

def readTag? (s : List Char) : Option (Tag × List Char) :=
  match s with
  | '!' :: s => (readComment? s).map fun rest => ({ role := .comment }, rest)
  | s =>
    let (trims, inside) := dropTilde s
    (readAlternative? trims inside).orElse fun _ =>
      if inside.head? = some '\x7b' then readTripled? s
      else finishTag? trims (readRole? inside) "\x7d\x7d"

/-- The opening tag of a verbatim block, behind its sign. -/
def readVerbatimOpening? (s : List Char) : Option (Tag × List Char) :=
  let (trims, inside) := dropTilde s
  finishTag? trims ((readBlockHead? inside).map fun (i, rest) => (.opening .verbatim i, rest))
    "\x7d\x7d\x7d\x7d"

def readVerbatimClosing? (s : List Char) : Option (Tag × List Char) := do
  let s ← Text.dropPrefix? verbatimSign s
  let (name, rest) ← readWord? (skipGap (← dropMark? '/' s))
  let rest ← Text.dropPrefix? "\x7d\x7d\x7d\x7d".toList (skipGap rest)
  return ({ role := .closing (String.ofList name) }, rest)

/-! ### Pieces -/

/-- Blanks that can indent a line. -/
def isIndent (c : Char) : Bool :=
  c == ' ' || c == '\t'

/-- Whether a line ends here, in front of a text or, reversed, behind it. -/
def atLineEnd : List Char → Bool
  | [] => false
  | c :: _ => c == '\n' || c == '\r'

/-- The place of a tag between the reversed text before it and the text behind. -/
def placeOf (line : Nat) (behind ahead : List Char) : Place :=
  let start := behind.dropWhile isIndent
  { line, isAlone := (start.isEmpty || atLineEnd start) && atLineEnd (ahead.dropWhile isIndent)
    indent := (behind.takeWhile isIndent).reverse }

/-- The position in a template: the line and the reversed text before. -/
structure Cut where
  line : Nat := 1
  behind : List Char := []

/-- The position behind a part of the text. -/
def Cut.pass (cut : Cut) (part : List Char) : Cut :=
  { line := cut.line + part.count '\n', behind := part.reverse ++ cut.behind }

def piecesFrom? : Nat → Cut → List Char → Option (List Piece)
  | 0, _, _ => none
  | n + 1, cut, s =>
    let ahead := skipGap s
    let gap := before s ahead
    let gaps := if gap.isEmpty then [] else [Piece.gap gap]
    let cutHere := cut.pass gap
    if ahead.isEmpty then some gaps
    else if verbatimSign.isPrefixOf ahead then do
      let (opening, rest) ← readVerbatimOpening? (ahead.drop 4)
      let inside := skipGap rest
      let (text, rest') := readText verbatimSign false inside
      let (closing, rest'') ← readVerbatimClosing? rest'
      let closeCut := cutHere.pass (before ahead rest')
      let others ← piecesFrom? n (closeCut.pass (before rest' rest'')) rest''
      return gaps ++ .tag opening (placeOf cutHere.line cutHere.behind rest) :: .text text ::
        .tag closing (placeOf closeCut.line closeCut.behind rest'') :: others
    else if tagSign.isPrefixOf ahead then do
      let (tag, rest) ← readTag? (ahead.drop 2)
      let others ← piecesFrom? n (cutHere.pass (before ahead rest)) rest
      return gaps ++ .tag tag (placeOf cutHere.line cutHere.behind rest) :: others
    else do
      let (text, rest) := readText tagSign false ahead
      let others ← piecesFrom? n (cutHere.pass (before ahead rest)) rest
      return .text (gap ++ text) :: others

def pieces? (s : List Char) : Option (List Piece) :=
  piecesFrom? (s.length + 1) {} s

end Galley.Template
