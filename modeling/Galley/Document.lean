import Galley.Fault
import Galley.Yaml.Reader

/-!
Model documents and their merge.

A document is the mapping at the root of a model file. Documents are merged
from first to last: mappings key by key at every depth, sequences end to end; a
null changes nothing, and any other value replaces what was there.
-/

namespace Galley

/-- The content of a model file. -/
structure Document where
  root : Yaml.Pairs
  deriving Inhabited

namespace Document

def empty : Document := ⟨[]⟩

def ofValue : Yaml.Value → Except DocumentFault Document
  | .null => .ok empty
  | .map root =>
    match root.find? fun kv => kv.1.asText?.isNone with
    | some kv => .error (.keyNotText kv.1)
    | none => .ok ⟨root⟩
  | v => .error (.notMapping v.kind)

def ofText (text : String) : Except DocumentFault Document :=
  match Yaml.readValue text with
  | .error f => .error (.notYaml f.line)
  | .ok v => ofValue v

def find? (key : String) (d : Document) : Option Yaml.Value :=
  Yaml.Pairs.findText? key d.root

def contains (key : String) (d : Document) : Bool :=
  Yaml.Pairs.contains (.text key) d.root

/-- Replaces the value of a key at its place, or appends the key. -/
def insert (key : String) (v : Yaml.Value) (d : Document) : Document :=
  ⟨Yaml.Pairs.insert (.text key) v d.root⟩

/-- The keys that are texts, in order. -/
def keys (d : Document) : List String :=
  d.root.filterMap fun kv => kv.1.asText?

def size (d : Document) : Nat :=
  d.root.length

def isEmpty (d : Document) : Bool :=
  d.root.isEmpty

/-- Equality of documents, in any order of the keys. -/
def same (d e : Document) : Bool :=
  Yaml.Value.same (.map d.root) (.map e.root)

end Document

namespace Yaml

/-- Changes the value of a key at its place, or appends the pair. -/
def Pairs.update (key value : Value) (change : Value → Value) : Pairs → Pairs
  | [] => [(key, value)]
  | kv :: rest =>
    if key.same kv.1 then (kv.1, change kv.2) :: rest
    else kv :: Pairs.update key value change rest

mutual

def Value.merge (base : Value) : Value → Value
  | .null => base
  | .map incoming =>
    match base with
    | .map pairs => .map (Pairs.merge pairs incoming)
    | _ => .map incoming
  | .seq incoming =>
    match base with
    | .seq items => .seq (items ++ incoming)
    | _ => .seq incoming
  | incoming => incoming
termination_by structural v => v

/-- Merges pairs into a mapping, one after the other. A key that is new keeps
its value as it is. -/
def Pairs.merge (base : Pairs) : List (Value × Value) → Pairs
  | [] => base
  | (k, v) :: rest => Pairs.merge (Pairs.update k v (fun old => Value.merge old v) base) rest
termination_by structural pairs => pairs

end

end Yaml

namespace Document

/-- Merges a document into another, one key after the other. A key that is new
keeps its value as it is. -/
def merge (base incoming : Document) : Document :=
  ⟨incoming.root.foldl
    (fun root kv => Yaml.Pairs.update kv.1 kv.2 (fun old => old.merge kv.2) root) base.root⟩

def mergeAll (documents : List Document) : Document :=
  documents.foldl merge empty

end Document

end Galley
