import Galley.Template.Piece

/-!
The elements of a template.

`Template.ofText?` builds nested elements from pieces. A tag that stands alone on
its line takes the line with it, a tag with a tilde takes all white space on that
side, and the tag of an included template leaves its indentation standing.
-/

namespace Galley.Template

/-- Drops a line feed, or a carriage return and a line feed, at the front. -/
def dropLineEnd : List Char → List Char
  | '\r' :: '\n' :: s => s
  | '\n' :: s => s
  | s => s

/-- A block whose closing tag has not come yet. -/
structure OpenBlock where
  kind : BlockKind
  line : Nat
  /-- The elements around the block, last first. -/
  outer : List (Option Nat × Element)
  /-- The alternatives that are complete, last first. -/
  closed : List (Invocation × List (Option Nat × Element)) := []
  /-- The head of the alternative being read; a last one has none. -/
  current : Option Invocation
  deriving Inhabited

/-- A template read so far. -/
structure Layout where
  blocks : List OpenBlock := []
  /-- The elements of the innermost block, last first. -/
  elements : List (Option Nat × Element) := []
  /-- The white space that comes next is dropped. -/
  dropsGap : Bool := false
  /-- The end of the line that comes next is dropped. -/
  dropsLine : Bool := false
  deriving Inhabited

namespace Layout

def push (l : Layout) (line : Nat) (e : Element) : Layout :=
  { l with elements := (some line, e) :: l.elements }

def pushText (l : Layout) (s : List Char) : Layout :=
  { l with elements := (none, .text s) :: l.elements, dropsLine := false }

/-- Text behind a tag that took its line. -/
def restOfLine (l : Layout) (s : List Char) : List Char :=
  if l.dropsLine then dropLineEnd (s.dropWhile isIndent) else s

/-- Changes the last element if it is text. -/
def mapLastText (f : List Char → List Char) (l : Layout) : Layout :=
  match l.elements with
  | (line, .text s) :: rest => { l with elements := (line, .text (f s)) :: rest }
  | _ => l

/-- Drops the white space in front of a tag and notes what to drop behind it. -/
def trim (l : Layout) (t : Tag) : Layout :=
  { (if t.trimsBefore then l.mapLastText Text.trimEnd else l) with dropsGap := t.trimsAfter }

/-- Takes the line of a tag that stands alone; `indented` keeps the blanks in
front of it. -/
def takeLine (l : Layout) (p : Place) (indented : Bool) : Layout :=
  { (if p.isAlone && !indented then l.mapLastText (Text.dropTailWhile isIndent) else l) with
    dropsLine := p.isAlone }

def openBlock (l : Layout) (kind : BlockKind) (line : Nat) (head : Invocation) : Layout :=
  { l with
    blocks := { kind, line, outer := l.elements, current := some head } :: l.blocks
    elements := [] }

/-- Ends an alternative of the innermost block and begins another. -/
def alternative? (l : Layout) (head : Option Invocation) : Option Layout :=
  match l.blocks with
  | [] => none
  | b :: blocks =>
    match b.kind, b.current with
    | .plain, some current =>
      some { l with
        blocks := { b with
          closed := (current, l.elements.reverse) :: b.closed, current := head } :: blocks
        elements := [] }
    | _, _ => none

/-- Nests the alternatives of a block, from the last one outwards. -/
def nest (inverse : Option (List (Option Nat × Element))) :
    List (Invocation × List (Option Nat × Element)) → Option (List (Option Nat × Element))
  | [] => inverse
  | (head, body) :: outer => nest (some [(none, .block head body inverse)]) outer

/-- The element of a block whose last alternative is complete. -/
def element? (b : OpenBlock) (elements : List (Option Nat × Element)) : Option Element :=
  match b.kind, b.current with
  | .decorator, some head => some (.decorator head (some elements))
  | .inclusion, some head => some (.inclusion head [] (some elements))
  | _, current =>
    let nested := match current with
      | some head => nest none ((head, elements) :: b.closed)
      | none => nest (some elements) b.closed
    match nested with
    | some [(_, e)] => some e
    | _ => none

def closingName? (b : OpenBlock) : Option String :=
  let first := match b.closed.getLast? with
    | some (head, _) => some head
    | none => b.current
  first.bind fun head =>
    match head.head with
    | .literal (.text name) => some name
    | .path p => some p.text
    | _ => none

def closeBlock? (l : Layout) (name : String) : Option Layout :=
  match l.blocks with
  | [] => none
  | b :: blocks =>
    if closingName? b = some name then
      (element? b l.elements.reverse).map fun e =>
        { l with blocks, elements := (some b.line, e) :: b.outer }
    else none

def step (l : Layout) : Piece → Option Layout
  | .gap s => some (if l.dropsGap then l else l.pushText (l.restOfLine s))
  | .text s => some (l.pushText (if l.dropsGap then Text.trimStart s else l.restOfLine s))
  | .tag t p =>
    match t.role with
    | .comment => some ((l.takeLine p false).push p.line .comment)
    | .value i => some ((l.trim t).push p.line (.value i))
    | .opening kind i => some (((l.trim t).takeLine p false).openBlock kind p.line i)
    | .alternative head => ((l.trim t).takeLine p false).alternative? head
    | .closing name => ((l.trim t).takeLine p false).closeBlock? name
    | .decorator i => some (((l.trim t).takeLine p false).push p.line (.decorator i none))
    | .inclusion i =>
      some (((l.trim t).takeLine p true).push p.line
        (.inclusion i (if t.trimsBefore then [] else p.indent) none))

/-- The elements of a template whose blocks are all closed. -/
def elements? (l : Layout) : Option (List (Option Nat × Element)) :=
  if l.blocks.isEmpty then some l.elements.reverse else none

end Layout

end Galley.Template

namespace Galley.Template

/-- The template of a text, kept under a name or not; nothing if the text is no
template. -/
def ofText? (text : String) (name : Option String := none) : Option Template := do
  let layout ← (← pieces? text.toList).foldlM Layout.step {}
  return { name, elements := ← layout.elements? }

end Galley.Template
