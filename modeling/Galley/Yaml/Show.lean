import Galley.Text.Quoted
import Galley.Yaml.Value

/-!
The text of a YAML value in a message.

Every scalar is shown with its kind. Among the keys of a mapping, booleans,
numbers and texts are shown without it.
-/

namespace Galley.Yaml.Value

mutual

def shown : Value → String
  | .null => "Null"
  | .bool b => Text.entries "Bool(" ")" [if b then "true" else "false"]
  | .number n => Text.entries "Number(" ")" [n.render]
  | .text s => Text.entries "String(" ")" [Text.quoted s]
  | .seq items => "Sequence " ++ Text.listed (shownItems items)
  | .map pairs => "Mapping " ++ Text.mapped (shownPairs pairs)
  | .tagged tag v => Text.recorded "TaggedValue" [("tag", "!" ++ bareTag tag), ("value", shown v)]
termination_by structural v => v

def shownItems : List Value → List String
  | [] => []
  | v :: vs => shown v :: shownItems vs
termination_by structural items => items

def shownPairs : List (Value × Value) → List (String × String)
  | [] => []
  | (k, v) :: rest =>
    let key := match k with
      | .bool b => if b then "true" else "false"
      | .number n => n.render
      | .text s => Text.quoted s
      | _ => shown k
    (key, shown v) :: shownPairs rest
termination_by structural pairs => pairs

end

end Galley.Yaml.Value
