import Galley.Record

/-!
The project section of a model.
-/

namespace Galley

/-- What a model says about its project. -/
structure Project where
  group : Option String := none
  name : String := ""
  kind : Option String := none
  baseNamespace : Option String := none
  version : Option String := none
  description : Option String := none
  deriving DecidableEq, Inhabited

namespace Project

/-- The section of a document and the entry of a model that hold the project. -/
def key : String := "project"

def shape : Shape where
  title := "Project"
  texts := ["name"]
  optionals := ["group", "type", "namespace", "version", "description"]
  keepsOthers := false

/-- The project of a record. A name that is absent is empty. -/
def ofRead {β : Type} (r : RecordRead β) : Project where
  group := r.text? "group"
  name := (r.text? "name").getD ""
  kind := r.text? "type"
  baseNamespace := r.text? "namespace"
  version := r.text? "version"
  description := r.text? "description"

def ofValue (v : Yaml.Value) : Except DecodeFault Project := do
  return ofRead (← shape.read v)

/-- The plain form of a project; it has all fields. -/
def toJson (p : Project) : Json :=
  let text? (s : Option String) : Json := (s.map Json.text).getD .null
  Json.ofPairs [("group", text? p.group), ("name", .text p.name), ("type", text? p.kind),
    ("namespace", text? p.baseNamespace), ("version", text? p.version),
    ("description", text? p.description)]

/-- The project of a plain object; unknown fields are ignored. -/
def ofJson? (v : Json) : Option Project :=
  ((shape.readObject v).map ofRead).toOption

/-- The namespace, or else the group. -/
def effectiveNamespace (p : Project) : Option String :=
  p.baseNamespace <|> p.group

end Project

/-- A record with a name and nothing else. -/
structure Named where
  name : String
  deriving DecidableEq, Inhabited

namespace Named

def shape : Shape := ⟨"Named", ["name"], [], false⟩

def ofValue (v : Yaml.Value) : Except DecodeFault Named := do
  let r ← shape.read v
  return ⟨← r.required "name"⟩

def toJson (n : Named) : Json :=
  .object [("name", .text n.name)]

end Named

end Galley
