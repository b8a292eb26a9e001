/-!
Blank characters, trimming and lines.

A blank is a character with the Unicode property `White_Space`. Trimming and
line splitting work on lists of characters; a piece ends at a line feed, so that
the pieces never hold one.
-/

namespace Galley.Text

/-- The characters with the Unicode property `White_Space`. -/
def isBlank (c : Char) : Bool :=
  let n := c.toNat
  (9 ≤ n && n ≤ 13) || n == 0x20 || n == 0x85 || n == 0xA0 || n == 0x1680 ||
    (0x2000 ≤ n && n ≤ 0x200A) || n == 0x2028 || n == 0x2029 || n == 0x202F ||
    n == 0x205F || n == 0x3000

/-! ### Trimming -/

def trimStart (s : List Char) : List Char :=
  s.dropWhile isBlank

/-- Drops the longest tail whose characters all satisfy `p`. -/
def dropTailWhile (p : Char → Bool) : List Char → List Char
  | [] => []
  | c :: cs =>
    match dropTailWhile p cs with
    | [] => if p c then [] else [c]
    | d :: ds => c :: d :: ds

def trimEnd (s : List Char) : List Char :=
  dropTailWhile isBlank s

def trim (s : List Char) : List Char :=
  trimEnd (trimStart s)

/-! ### Lines -/

/-- The pieces between line feeds; a text of `n` line feeds has `n + 1` pieces. -/
def splitLines : List Char → List (List Char)
  | [] => [[]]
  | c :: cs =>
    if c = '\n' then [] :: splitLines cs
    else
      match splitLines cs with
      | [] => [[c]]
      | l :: ls => (c :: l) :: ls

def joinLines : List (List Char) → List Char
  | [] => []
  | [l] => l
  | l :: ls => l ++ '\n' :: joinLines ls

/-- Removes the first piece of a text that starts with it. -/
def dropPrefix? : List Char → List Char → Option (List Char)
  | [], s => some s
  | _ :: _, [] => none
  | p :: ps, c :: cs => if p = c then dropPrefix? ps cs else none

/-- Whether `part` occurs in the text as one block. -/
def occursIn (part : List Char) : List Char → Bool
  | [] => part.isEmpty
  | c :: cs => part.isPrefixOf (c :: cs) || occursIn part cs

end Galley.Text
