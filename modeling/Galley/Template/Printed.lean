import Galley.Json

/-!
Values as templates print and test them.
-/

namespace Galley.Json

mutual

/-- The text that a template prints for a value. Null prints nothing, and an
object prints no more than that it is one. -/
def printed : Json → String
  | .null => ""
  | .bool b => if b then "true" else "false"
  | .number n => n.render
  | .text s => s
  | .list items => "[" ++ String.intercalate ", " (printedItems items) ++ "]"
  | .object _ => "[object]"
termination_by structural v => v

def printedItems : List Json → List String
  | [] => []
  | v :: vs => printed v :: printedItems vs
termination_by structural items => items

end

/-- Whether a value counts as true: it is not empty and, unless zero counts, it
is not zero. -/
def isTruthy (zeroCounts : Bool) : Json → Bool
  | .null => false
  | .bool b => b
  | .number (.whole n) => zeroCounts || n ≠ 0
  | .number (.binary x) => if zeroCounts then !x.isNaN else x.isNormal
  | .text s => !s.isEmpty
  | .list items => !items.isEmpty
  | .object fields => !fields.isEmpty

/-- The whole number of a value, in sixty-four bits. -/
def asWhole? : Json → Option Int
  | .number (.whole n) => if Number.fitsSigned 64 n then some n else none
  | _ => none

end Galley.Json
