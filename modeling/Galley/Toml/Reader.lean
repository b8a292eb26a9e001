import Galley.Toml.Scalar

/-!
TOML documents.

Tables are opened by headers, by dotted keys or on the way to another table, and
each of them at most once by the same means. `read?` gives the object of a
document.
-/

namespace Galley.Toml

/-- What brought a table about. -/
inductive Origin where
  | header
  | implied
  | dotted
  deriving DecidableEq, Inhabited

/-- What stands under a name. The tables of a list are kept last first. -/
inductive Node where
  | value (v : Json)
  | table (origin : Origin) (entries : List (String × Node))
  | tables (items : List (List (String × Node)))
  deriving Inhabited

/-! ### Tables -/

def find? (name : String) (entries : List (String × Node)) : Option Node :=
  (entries.find? fun e => e.1 == name).map Prod.snd

def set (name : String) (node : Node) (entries : List (String × Node)) : List (String × Node) :=
  (name, node) :: entries.filter fun e => e.1 != name

def insert? : List String → Node → List (String × Node) → Option (List (String × Node))
  | [], _, _ => none
  | [name], node, entries =>
    if (find? name entries).isSome then none else some (set name node entries)
  | name :: names, node, entries =>
    match find? name entries with
    | none => (insert? names node []).map fun inner => set name (.table .dotted inner) entries
    | some (.table .dotted inner) =>
      (insert? names node inner).map fun inner => set name (.table .dotted inner) entries
    | some (.table .implied inner) =>
      if names.length = 1 then none
      else (insert? names node inner).map fun inner => set name (.table .implied inner) entries
    | _ => none

/-- Changes the table at the end of a key, where `last` changes what stands there.
Tables on the way are brought about. -/
def change? (last : Option Node → Option Node) :
    List String → List (String × Node) → Option (List (String × Node))
  | [], _ => none
  | [name], entries => (last (find? name entries)).map fun node => set name node entries
  | name :: names, entries =>
    match find? name entries with
    | none => (change? last names []).map fun inner => set name (.table .implied inner) entries
    | some (.table origin inner) =>
      (change? last names inner).map fun inner => set name (.table origin inner) entries
    | some (.tables (inner :: others)) =>
      (change? last names inner).map fun inner => set name (.tables (inner :: others)) entries
    | _ => none

/-- Opens a table that only stood on the way to others so far. -/
def openTable? : Option Node → Option Node
  | none => some (.table .header [])
  | some (.table .implied entries) => some (.table .header entries)
  | _ => none

/-- Opens a further table of a list. -/
def openItem? : Option Node → Option Node
  | none => some (.tables [[]])
  | some (.tables items) => some (.tables ([] :: items))
  | _ => none

/-- Puts something new into an open table. -/
def fill? (key : List String) (node : Node) : Option Node → Option Node
  | some (.table origin entries) => (insert? key node entries).map (.table origin)
  | some (.tables (entries :: others)) =>
    (insert? key node entries).map fun entries => .tables (entries :: others)
  | _ => none

mutual

def Node.toJson : Node → Json
  | .value v => v
  | .table _ entries => Json.ofPairs (entriesToJson entries)
  | .tables items => .list (itemsToJson items).reverse
termination_by structural n => n

def entriesToJson : List (String × Node) → List (String × Json)
  | [] => []
  | (name, node) :: rest => (name, node.toJson) :: entriesToJson rest
termination_by structural entries => entries

def itemsToJson : List (List (String × Node)) → List Json
  | [] => []
  | entries :: rest => Json.ofPairs (entriesToJson entries) :: itemsToJson rest
termination_by structural items => items

end

/-! ### Values -/

mutual

def readValue? : Nat → List Char → Option (Json × List Char)
  | 0, _ => none
  | n + 1, s =>
    match s with
    | '[' :: s => readItems? n (skipTrivia s.length s)
    | '\x7b' :: s =>
      match skipSpace s with
      | '\x7d' :: rest => some (.object [], rest)
      | s => readPairs? n [] s
    | s => readScalar? s

def readItems? : Nat → List Char → Option (Json × List Char)
  | 0, _ => none
  | n + 1, s =>
    match s with
    | ']' :: rest => some (.list [], rest)
    | s => do
      let (v, rest) ← readValue? n s
      match skipTrivia rest.length rest with
      | ',' :: rest =>
        match ← readItems? n (skipTrivia rest.length rest) with
        | (.list items, rest) => return (.list (v :: items), rest)
        | _ => none
      | ']' :: rest => return (.list [v], rest)
      | _ => none

def readPairs? : Nat → List (String × Node) → List Char → Option (Json × List Char)
  | 0, _, _ => none
  | n + 1, entries, s => do
    let (key, rest) ← readKey? s.length s
    let (v, rest) ← readValue? n (skipSpace (← Text.dropPrefix? ['='] rest))
    let entries ← insert? key (.value v) entries
    match skipSpace rest with
    | ',' :: rest => readPairs? n entries rest
    | '\x7d' :: rest => return (Json.ofPairs (entriesToJson entries), rest)
    | _ => none

end

/-! ### Documents -/

/-- Removes the rest of a line that holds no more than a comment. -/
def dropLineEnd? (s : List Char) : Option (List Char) :=
  let rest := match skipSpace s with
    | '#' :: s => s.dropWhile isTextChar
    | s => s
  if rest.isEmpty then some [] else dropNewline? rest

/-- Reads the lines of a document into its tables; `current` is the key of the
open one. -/
def readFrom? : Nat → List String → List (String × Node) → List Char →
    Option (List (String × Node))
  | 0, _, _, _ => none
  | n + 1, current, root, s =>
    match skipTrivia s.length s with
    | [] => some root
    | '[' :: '[' :: s => do
      let (key, rest) ← readKey? s.length s
      let rest ← dropLineEnd? (← Text.dropPrefix? [']', ']'] rest)
      readFrom? n key (← change? openItem? key root) rest
    | '[' :: s => do
      let (key, rest) ← readKey? s.length s
      let rest ← dropLineEnd? (← Text.dropPrefix? [']'] rest)
      readFrom? n key (← change? openTable? key root) rest
    | s => do
      let (key, rest) ← readKey? s.length s
      let (v, rest) ← readValue? s.length (skipSpace (← Text.dropPrefix? ['='] rest))
      let rest ← dropLineEnd? rest
      let root ←
        if current.isEmpty then insert? key (.value v) root
        else change? (fill? key (.value v)) current root
      readFrom? n current root rest

def read? (text : String) : Option (List (String × Json)) := do
  let s := text.toList
  let s := (Text.dropPrefix? ['\uFEFF'] s).getD s
  let root ← readFrom? (s.length + 1) [] [] s
  return Fields.ofPairs (entriesToJson root)

end Galley.Toml
