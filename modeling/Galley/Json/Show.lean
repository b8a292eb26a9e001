import Galley.Json
import Galley.Text.Quoted

/-!
The text of a plain value in a message, every scalar with its kind.
-/

namespace Galley.Json

mutual

def shown : Json → String
  | .null => "Null"
  | .bool b => Text.entries "Bool(" ")" [if b then "true" else "false"]
  | .number n => Text.entries "Number(" ")" [n.render]
  | .text s => Text.entries "String(" ")" [Text.quoted s]
  | .list items => "Array " ++ Text.listed (shownItems items)
  | .object fields => "Object " ++ Text.mapped (shownFields fields)
termination_by structural v => v

def shownItems : List Json → List String
  | [] => []
  | v :: vs => shown v :: shownItems vs
termination_by structural items => items

def shownFields : List (String × Json) → List (String × String)
  | [] => []
  | (k, v) :: rest => (Text.quoted k, shown v) :: shownFields rest
termination_by structural fields => fields

end

end Galley.Json
