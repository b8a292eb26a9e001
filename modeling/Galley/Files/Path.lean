import Galley.Text.Quoted

/-!
Paths of files.

A path is a text with slashes between its names, or a scratch file, which is
known by its number and shown without its name. Two paths are the same when
they have the same parts: empty names count nowhere, a single dot counts only at
the front, and two dots always count. `FilePath.le` orders paths part by part.
`FilePath.address` tells where a path leads in a tree, its dots taken away.
-/

namespace Galley

inductive FilePath where
  | named (text : String)
  | scratch (serial : Nat)
  deriving DecidableEq, Inhabited

inductive PathPart where
  | root
  | here
  | up
  | name (s : String)
  | scratch (serial : Nat)
  deriving DecidableEq, Inhabited

namespace PathPart

/-- The order of parts: the root, a dot, two dots, then names. -/
def rank : PathPart → Nat
  | root => 0
  | here => 1
  | up => 2
  | name _ => 3
  | scratch _ => 4

def lt : PathPart → PathPart → Bool
  | name s, name t => s < t
  | a, b => a.rank < b.rank

/-- The part of one piece between slashes, none for an empty piece or a dot. -/
def ofPiece? (piece : List Char) : Option PathPart :=
  if piece.isEmpty || piece == ['.'] then none
  else if piece == ['.', '.'] then some up
  else some (name (String.ofList piece))

end PathPart

/-- The pieces of a text between slashes. -/
def pathPieces : List Char → List (List Char)
  | [] => [[]]
  | c :: cs =>
    if c = '/' then [] :: pathPieces cs
    else
      match pathPieces cs with
      | [] => [[c]]
      | p :: ps => (c :: p) :: ps

namespace FilePath

def shown : FilePath → String
  | named text => text
  | scratch _ => "<scratch>"

def quoted (p : FilePath) : String :=
  Text.quoted p.shown

def parts : FilePath → List PathPart
  | named text =>
    let pieces := pathPieces text.toList
    let front :=
      match text.toList, pieces with
      | '/' :: _, _ => [PathPart.root]
      | _, ['.'] :: _ => [PathPart.here]
      | _, _ => []
    front ++ pieces.filterMap PathPart.ofPiece?
  | scratch serial => [.scratch serial]

def same (p q : FilePath) : Bool :=
  p.parts == q.parts

def partsLe : List PathPart → List PathPart → Bool
  | [], _ => true
  | _ :: _, [] => false
  | a :: as, b :: bs => a.lt b || (a == b && partsLe as bs)

/-- The order of paths, part by part. -/
def le (p q : FilePath) : Bool :=
  partsLe p.parts q.parts

/-- The names behind one more part of a path. -/
def nextNames (names : List String) : PathPart → List String
  | .root => []
  | .name s => names ++ [s]
  | .up => names.dropLast
  | _ => names

/-- Where a path leads from a directory: the names down from the root, dots resolved, or the
number of a scratch file. The directory is told by the names that lead to it. -/
def address (home : List String) : FilePath → List String ⊕ Nat
  | named text => .inl ((named text).parts.foldl nextNames home)
  | scratch serial => .inr serial

def joinText (text name : String) : String :=
  match text.toList.getLast? with
  | none => name
  | some '/' => text ++ name
  | some _ => text ++ "/" ++ name

def join : FilePath → String → FilePath
  | named text, name => named (joinText text name)
  | scratch serial, _ => scratch serial

end FilePath

end Galley
