import Galley.Json

/-!
Templates as data.

A template is a list of elements, each with the line of the tag that it comes
from. An operand is a value, a path into the context or the call of a helper; an
invocation is the content of a tag, a head with arguments.
-/

namespace Galley.Template

/-- A path into the context, as written and taken apart. -/
structure Path where
  text : String
  /-- Starts at the root of the context. -/
  absolute : Bool := false
  /-- Names a variable of a block instead of a value of the context. -/
  isVariable : Bool := false
  /-- The number of blocks to step out of. -/
  ups : Nat := 0
  names : List String := []
  deriving DecidableEq, Inhabited

/-- Something that has a value when a template is rendered. A bare word is a
text literal. -/
inductive Operand where
  | literal (value : Json)
  | path (path : Path)
  | call (head : Operand) (arguments : List Operand) (named : List (String × Operand))
  deriving Inhabited

structure Invocation where
  head : Operand
  arguments : List Operand := []
  named : List (String × Operand) := []
  /-- The names that a block gives to its value and its position. -/
  parameters : List String := []
  deriving Inhabited

/-- Whether an invocation is a head alone. -/
def Invocation.isBare (i : Invocation) : Bool :=
  i.arguments.isEmpty && i.named.isEmpty

/-- One part of a template. A block that stands after an alternative of another
block has no line of its own. -/
inductive Element where
  | text (s : List Char)
  | value (of : Invocation)
  | block (of : Invocation) (body : List (Option Nat × Element))
      (inverse : Option (List (Option Nat × Element)))
  | comment
  | decorator (of : Invocation) (body : Option (List (Option Nat × Element)))
  | inclusion (of : Invocation) (indent : List Char)
      (body : Option (List (Option Nat × Element)))
  deriving Inhabited

end Galley.Template

namespace Galley

/-- A template, which has a name when it is kept under one. -/
structure Template where
  name : Option String := none
  elements : List (Option Nat × Template.Element) := []
  deriving Inhabited

end Galley
