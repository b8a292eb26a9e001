import Galley.Document
import Galley.Model

/-!
Resolvers: from a merged document to the entries of a model.

A resolver reads the sections it knows and stores entries. A registry is a list
of resolvers; they run in order on one model, and the first fault ends the run.
-/

namespace Galley

variable [CallerTypes]

/-- Reads a document and stores entries in a model. -/
structure Resolver where
  name : String
  run : Document → Model → Attempt Model

/-- Resolvers in the order in which they run. -/
abbrev Registry := List Resolver

namespace Registry

def names (r : Registry) : List String :=
  r.map Resolver.name

def shown (r : Registry) : String :=
  Text.recorded "ResolverRegistry" [("resolvers", Text.listed (r.names.map Text.quoted))]

def runOn (d : Document) : Registry → Model → Attempt Model
  | [], m => pure m
  | r :: rest, m => do
    Attempt.write .debug ("Running model entry resolver " ++ r.name)
    let m ← r.run d m
    runOn d rest m

def resolve (r : Registry) (d : Document) : Attempt Model :=
  r.runOn d .empty

end Registry

/-! ### Reading sections -/

/-- The items of the sequence under a key; none when the key is absent or null. -/
def readSequence (k : Kind) (d : Document) (key resolver : String) :
    Except ModelFault (List k.Carrier) :=
  let outcome : Except DecodeFault (List k.Carrier) :=
    match d.find? key with
    | none | some .null => .ok []
    | some (.seq items) => items.mapM k.read
    | some other => .error (.notSequence other.kind)
  outcome.mapError (ModelFault.unresolved resolver key)

/-- The value under a key; nothing when the key is absent or null. -/
def readSection (k : Kind) (d : Document) (key resolver : String) :
    Except ModelFault (Option k.Carrier) :=
  match d.find? key with
  | none | some .null => .ok none
  | some v => ((k.read v).mapError (ModelFault.unresolved resolver key)).map some

/-! ### Stock resolvers -/

namespace Resolver

/-- Stores the sequence under a key as a list of a kind. -/
def collection (key : String) (item : Kind) (modelKey : Option String := none) : Resolver :=
  let name := "collection:" ++ key
  let target := modelKey.getD key
  { name
    run := fun d m => do
      let items ← Attempt.ofExcept (readSequence item d key name)
      Attempt.write .debug
        ("Resolved " ++ toString items.length ++ " entries for '" ++ target ++ "'")
      m.insert (.list item) target items }

/-- Stores the project section, if there is one. -/
def project : Resolver where
  name := "project"
  run := fun d m => do
    match ← Attempt.ofExcept (readSection .project d Project.key "project") with
    | none => pure m
    | some p => m.insert .project Project.key p

/-- Stores the value under a key, if there is one. -/
def singleSection (key : String) (item : Kind) : Resolver where
  name := "section"
  run := fun d m => do
    match ← Attempt.ofExcept (readSection item d key "section") with
    | none => pure m
    | some v => m.insert item key v

/-- Stores a fixed plain value. -/
def constant (name key : String) (v : Json) : Resolver where
  name
  run := fun _ m => liftM (m.insertJson key v)

/-- Counts how often it ran on a model. -/
def counter : Resolver where
  name := "counter"
  run := fun _ m =>
    let seen : Nat := (m.get? .count "invocations").getD (0 : Nat)
    m.insert .count "invocations" (seen + 1)

def readEntities (k : EntityKind) (d : Document) : Except ModelFault (Entities k) :=
  readSequence (.entity k) d k.key "service-api"

/-- Stores the four lists of a service API in place. All sections are read before the
first list is stored. -/
def storeServiceApi (d : Document) : Change Unit := do
  let datasources ← Change.ofExcept (readEntities .datasource d)
  let services ← Change.ofExcept (readEntities .service d)
  let restResources ← Change.ofExcept (readEntities .restResource d)
  let dataAccesses ← Change.ofExcept (readEntities .dataAccess d)
  Change.write .debug
    ("Resolved " ++ toString datasources.length ++ " datasources, " ++
      toString services.length ++ " services, " ++
      toString restResources.length ++ " rest resources, " ++
      toString dataAccesses.length ++ " data accesses")
  Model.store (.entities .datasource) EntityKind.datasource.key datasources
  Model.store (.entities .service) EntityKind.service.key services
  Model.store (.entities .restResource) EntityKind.restResource.key restResources
  Model.store (.entities .dataAccess) EntityKind.dataAccess.key dataAccesses

def serviceApi : Resolver where
  name := "service-api"
  run := fun d => (storeServiceApi d).attempt

end Resolver

/-- The project and the service API, in this order. -/
def Registry.serviceApi : Registry :=
  [.project, .serviceApi]

/-- The entities of a kind in a model; none when no list of that kind is stored
under its key. -/
def Model.entities (k : EntityKind) (m : Model) : Entities k :=
  match m.get? (.entities k) k.key with
  | some es => es
  | none => []

end Galley
