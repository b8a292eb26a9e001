import Galley.Number.Reader
import Galley.Template.Fault
import Galley.Template.Syntax

/-!
Where the paths of a template lead.

The scope of a tag is a stack of blocks. A block stands at a path of the context
or has a value of its own; it may name its value and its position, and marks
tell where an item stands. `findPath` follows a path from the innermost block,
from an outer one, or from the root of the context.
-/

namespace Galley.Template

/-- The value of a path or an operand. -/
inductive Found where
  /-- A value that stands in the context at a path. -/
  | placed (path : List String) (value : Json)
  | loose (value : Json)
  | missing
  deriving Inhabited

namespace Found

def value : Found → Json
  | placed _ v | loose v => v
  | missing => .null

def isMissing : Found → Bool
  | missing => true
  | _ => false

/-- The path of a value in the context. -/
def path? : Found → Option (List String)
  | placed path _ => some path
  | _ => none

end Found

/-- One block around a tag. -/
structure Block where
  /-- The path of the context where the block stands. -/
  path : List String := []
  /-- The value of the block, if it has one of its own. -/
  value : Option Json := none
  /-- The names given to values; nothing stands for the value at the path. -/
  parameters : List (String × Option Json) := []
  /-- The values of the names that tell where an item stands. -/
  marks : List (String × Json) := []
  deriving Inhabited

def Block.ofFound : Found → Block
  | .placed path _ => { path }
  | f => { value := some f.value }

/-- The position that a text gives in a list. -/
def readIndex? (s : List Char) : Option Nat :=
  let digits := match s with
    | '+' :: digits => digits
    | digits => digits
  (Number.readDigits? 10 digits).filter fun n => Number.fitsUnsigned 64 n

/-- Follows names into a value. -/
def walk : List String → Json → Except Reason (Option Json)
  | [], v => .ok (some v)
  | name :: names, v =>
    match v with
    | .list items =>
      match readIndex? name.toList with
      | none => .error (.textIndex name)
      | some i =>
        match items[i]? with
        | some v => walk names v
        | none => .ok none
    | v =>
      match v.field? name with
      | some v => walk names v
      | none => .ok none

/-- The value at a path of the context. -/
def findPlaced (root : Json) (path : List String) : Except Reason Found :=
  (walk path root).map fun v => v.elim .missing (.placed path)

/-- The value at the end of names that start at a value. -/
def findLoose (v : Json) (names : List String) : Except Reason Found :=
  (walk names v).map fun v => v.elim .missing .loose

/-- The value given to a name by the innermost block that names one, with that
block. -/
def parameter? (name : String) : List Block → Option (Option Json × Block)
  | [] => none
  | b :: blocks =>
    match b.parameters.find? fun e => e.1 == name with
    | some e => some (e.2, b)
    | none => parameter? name blocks

/-- The value at the end of a path. -/
def findPath (root : Json) (blocks : List Block) (p : Path) : Except Reason Found :=
  let names := p.names
  if p.isVariable then
    .ok <| match blocks[p.ups]?, names with
      | some b, name :: _ => (Fields.find? name b.marks).elim .missing .loose
      | _, _ => .missing
  else if p.absolute then findPlaced root names
  else
    match names.head?.bind fun name => parameter? name blocks with
    | some (some v, _) => findLoose v names.tail
    | some (none, b) => findPlaced root (b.path ++ names.tail)
    | none =>
      let block := ((blocks[p.ups]?).orElse fun _ => blocks.head?).getD {}
      match block.value with
      | some v => findLoose v names
      | none => findPlaced root (block.path ++ names)

end Galley.Template
