import Galley.Record

/-!
The entities of a service API: datasources, services, REST resources and data
accesses.

An entity has a name and may have attributes. The attributes that its kind
knows hold texts; all others are passed through as they are. The plain form of
an entity is one flat object, so that reading and writing keep every attribute
but a known one that is null.
-/

namespace Galley

inductive EntityKind where
  | datasource
  | service
  | restResource
  | dataAccess
  deriving DecidableEq, Inhabited

namespace EntityKind

/-- The name of a kind in messages. -/
def title : EntityKind → String
  | datasource => "Datasource"
  | service => "Service"
  | restResource => "RestResource"
  | dataAccess => "DataAccess"

/-- The section of a document and the entry of a model that list the entities. -/
def key : EntityKind → String
  | datasource => "datasources"
  | service => "services"
  | restResource => "rest_resources"
  | dataAccess => "data_accesses"

/-- The known attributes besides the name. -/
def attributes : EntityKind → List String
  | datasource => ["type", "description"]
  | service => ["namespace", "version", "description"]
  | restResource => ["service", "path", "description"]
  | dataAccess => ["datasource", "description"]

/-- All kinds in the order in which they are resolved. -/
def all : List EntityKind :=
  [datasource, service, restResource, dataAccess]

def shape (k : EntityKind) : Shape :=
  ⟨k.title, ["name"], k.attributes, true⟩

end EntityKind

structure Entity (k : EntityKind) where
  name : String
  /-- The known attributes that are present, in the order of the kind. -/
  known : List (String × String)
  /-- The other attributes, sorted by name. -/
  extra : List (String × Json)
  deriving Inhabited

namespace Entity

variable {k : EntityKind}

def attribute? (e : Entity k) (name : String) : Option String :=
  Fields.find? name e.known

/-- The known attributes of a kind, read by a function. -/
def knownOf (k : EntityKind) (value? : String → Option String) : List (String × String) :=
  k.attributes.filterMap fun a => (value? a).map fun s => (a, s)

/-! ### From documents -/

/-- Reads the other attributes. -/
def readExtra : List (String × Yaml.Value) → Except DecodeFault (List (String × Json))
  | [] => .ok []
  | (a, v) :: rest => do
    let value ← v.readPlain
    return (a, value) :: (← readExtra rest)

def ofValue (k : EntityKind) (v : Yaml.Value) : Except DecodeFault (Entity k) := do
  let r ← k.shape.read v
  let name ← r.required "name"
  let extra ← readExtra r.others
  return ⟨name, knownOf k r.text?, Fields.ofPairs extra⟩

/-! ### Plain form -/

def toJson (e : Entity k) : Json :=
  .object (Fields.insertAll
    (Fields.ofPairs (("name", .text e.name) :: e.known.map fun a => (a.1, .text a.2))) e.extra)

def readPlain (k : EntityKind) (v : Json) : Except DecodeFault (Entity k) := do
  let r ← k.shape.readObject v
  let name ← r.required "name"
  return ⟨name, knownOf k r.text?, Fields.ofPairs r.others⟩

def ofJson? (k : EntityKind) (v : Json) : Option (Entity k) :=
  (readPlain k v).toOption

/-- Equality of entities, numbers by value. -/
def same (d e : Entity k) : Bool :=
  d.name == e.name && d.known == e.known && Json.sameFields d.extra e.extra

end Entity

abbrev Entities (k : EntityKind) := List (Entity k)

namespace Entities

variable {k : EntityKind}

/-- The first entity of a name. -/
def named? (name : String) (es : Entities k) : Option (Entity k) :=
  es.find? fun e => e.name == name

def names (es : Entities k) : List String :=
  es.map Entity.name

def toJson (es : Entities k) : Json :=
  .list (es.map Entity.toJson)

def ofJson? (k : EntityKind) : Json → Option (Entities k)
  | .list items => items.mapM (Entity.ofJson? k)
  | _ => none

def same (ds es : Entities k) : Bool :=
  ds.length == es.length && (ds.zip es).all fun p => p.1.same p.2

end Entities

/-! ### References -/

/-- The service that a REST resource names, if it is listed. -/
def Entity.serviceIn (e : Entity .restResource) (services : Entities .service) :
    Option (Entity .service) :=
  (e.attribute? "service").bind fun name => services.named? name

/-- The datasource that a data access names, if it is listed. -/
def Entity.datasourceIn (e : Entity .dataAccess) (datasources : Entities .datasource) :
    Option (Entity .datasource) :=
  (e.attribute? "datasource").bind fun name => datasources.named? name

end Galley
