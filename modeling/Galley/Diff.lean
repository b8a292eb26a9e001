import Galley.Diff.Middle
import Galley.Diff.Slide
import Galley.Text.Blank

/-!
The difference of two texts, line by line.

A line counts with its line feed, so the last line of a text differs from the
same line elsewhere. Between kept lines, the removed lines come before the added
ones.
-/

namespace Galley.Diff

variable {α : Type}

/-- The lines of a text with their line feeds. -/
def linesOf : List Char → List (List Char)
  | [] => []
  | c :: cs =>
    if c = '\n' then [c] :: linesOf cs
    else
      match linesOf cs with
      | [] => [[c]]
      | l :: ls => (c :: l) :: ls

/-- Puts the removed items of each group of changes in front of the added ones. -/
def grouped (removed added : List α) : List (Run α) → List (Run α)
  | [] => [⟨.removed, removed⟩, ⟨.added, added⟩]
  | ⟨.removed, items⟩ :: rest => grouped (removed ++ items) added rest
  | ⟨.added, items⟩ :: rest => grouped removed (added ++ items) rest
  | r :: rest => ⟨.removed, removed⟩ :: ⟨.added, added⟩ :: r :: grouped [] [] rest

def between [DecidableEq α] (as bs : List α) : List (Run α) :=
  grouped [] [] (slide (runs as bs))

def Mark.sign : Mark → Char
  | .kept => ' '
  | .removed => '-'
  | .added => '+'

def shownLine (mark : Mark) (line : List Char) : List Char :=
  mark.sign :: Text.dropTailWhile (· == '\n') line ++ ['\n']

/-- The difference of two texts, a sign in front of each line. -/
def shown (expected actual : List Char) : List Char :=
  (between (linesOf expected) (linesOf actual)).flatMap fun r =>
    r.items.flatMap (shownLine r.mark)

end Galley.Diff
