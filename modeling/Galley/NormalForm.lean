import Galley.Comment

/-!
The normal form of generated text.

A normal form has no comments, no blank lines, no blanks at the end of a line
and line feeds between its lines only. `collapse` forgets the indentation as
well, and a text contains a fragment when the collapsed normal form of the one
occurs in that of the other.
-/

namespace Galley

/-- Takes texts to their normal form. -/
structure Normalizer where
  comments : List Comment := [.docBlock]
  deriving DecidableEq

namespace Normalizer

instance : Inhabited Normalizer := ⟨{}⟩

/-- The normalizer that removes comments with the given delimiters, or the first
delimiter with an empty marker. -/
def ofDelimiters (ds : List Delimiter) : Except Delimiter Normalizer := do
  let comments ← ds.mapM fun d =>
    match Comment.ofDelimiter? d with
    | some c => Except.ok c
    | none => Except.error d
  return { comments }

/-- Makes a line feed of every line ending. -/
def unifyBreaks : List Char → List Char
  | [] => []
  | '\r' :: '\n' :: cs => '\n' :: unifyBreaks cs
  | c :: cs => (if c = '\r' then '\n' else c) :: unifyBreaks cs

/-- The lines that are not blank, without the blanks at their ends. -/
def contentLines (s : List Char) : List (List Char) :=
  ((Text.splitLines s).map Text.trimEnd).filter fun l => !l.isEmpty

def strip (n : Normalizer) (s : List Char) : List Char :=
  Comment.removeAll n.comments s

/-- The lines of the normal form of a text. -/
def lines (n : Normalizer) (s : List Char) : List (List Char) :=
  contentLines (n.strip (unifyBreaks s))

def normalize (n : Normalizer) (s : List Char) : List Char :=
  Text.joinLines (n.lines s)

/-! ### Indentation -/

/-- Drops the blanks behind every line feed. -/
def dropIndents : Bool → List Char → List Char
  | _, [] => []
  | atStart, c :: cs =>
    if c = '\n' then
      if atStart then dropIndents true cs else '\n' :: dropIndents true cs
    else if atStart && Text.isBlank c then dropIndents true cs
    else c :: dropIndents false cs

/-- A text without indentation: each line behind a line feed, the first one too. -/
def collapse (s : List Char) : List Char :=
  '\n' :: dropIndents true s

/-- Whether a fragment occurs in a text, whatever their indentation. -/
def contains (n : Normalizer) (text fragment : List Char) : Bool :=
  Text.occursIn (collapse (n.normalize fragment)) (collapse (n.normalize text))

end Normalizer

end Galley
