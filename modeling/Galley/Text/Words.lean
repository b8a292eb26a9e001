/-!
The words of an identifier and the ways to join them.

Words are made of ASCII letters and digits; every other character separates. A
lower case letter ends its word before an upper case one, and the last of
several upper case letters begins a word when a lower case one follows. Digits
belong to the word they stand in.
-/

namespace Galley.Text

/-- The letters last seen in a word. -/
inductive LetterRun where
  | none
  | lower
  | upper
  deriving DecidableEq

def LetterRun.next (run : LetterRun) (c : Char) : LetterRun :=
  if c.isLower then .lower else if c.isUpper then .upper else run

/-- Splits a piece of letters and digits, given the reversed start of the word. -/
def splitPiece (run : LetterRun) (start : List Char) : List Char → List (List Char)
  | [] => []
  | [c] => [(c :: start).reverse]
  | c :: d :: rest =>
    if run.next c = .lower && d.isUpper then
      (c :: start).reverse :: splitPiece .none [] (d :: rest)
    else if run = .upper && c.isUpper && d.isLower then
      start.reverse :: splitPiece .none [c] (d :: rest)
    else
      splitPiece (run.next c) (c :: start) (d :: rest)

/-- The pieces of letters and digits, the empty ones included. -/
def alphanumericPieces : List Char → List (List Char)
  | [] => [[]]
  | c :: cs =>
    if c.isAlphanum then
      match alphanumericPieces cs with
      | [] => [[c]]
      | p :: ps => (c :: p) :: ps
    else [] :: alphanumericPieces cs

def words (s : List Char) : List (List Char) :=
  (alphanumericPieces s).flatMap (splitPiece .none [])

/-! ### Joined words -/

def small (w : List Char) : List Char :=
  w.map Char.toLower

def capitals (w : List Char) : List Char :=
  w.map Char.toUpper

def capitalized : List Char → List Char
  | [] => []
  | c :: cs => c.toUpper :: small cs

def joinWith (separator : Char) : List (List Char) → List Char
  | [] => []
  | [w] => w
  | w :: ws => w ++ separator :: joinWith separator ws

/-- The words run together, each with a capital first letter. -/
def upperCamel (s : List Char) : List Char :=
  ((words s).map capitalized).flatten

/-- The words run together, all but the first with a capital first letter. -/
def lowerCamel (s : List Char) : List Char :=
  match words s with
  | [] => []
  | w :: ws => small w ++ (ws.map capitalized).flatten

def smallJoined (separator : Char) (s : List Char) : List Char :=
  joinWith separator ((words s).map small)

def capitalJoined (separator : Char) (s : List Char) : List Char :=
  joinWith separator ((words s).map capitals)

end Galley.Text
