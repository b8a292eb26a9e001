import Galley.Files.Path
import Galley.Text.Bytes

/-!
A tree of files and the scratch files beside it.

The tree is that of all files, with the root at its top, and somewhere in it is
the working directory. `FileTree.resolve` follows a path piece by piece the way
an operating system does: every piece but the last must lead to a directory that
can be entered, and two dots lead to the parent, which for the root is the root.
`Files` adds the scratch files that are alive.
-/

namespace Galley

/-- What a file holds: a text, or bytes that are none in UTF-8. -/
inductive FileContent where
  | text (s : String)
  | bytes (b : List UInt8)
  deriving DecidableEq, Inhabited

namespace FileContent

def ofBytes (b : List UInt8) : FileContent :=
  match String.fromUTF8? ⟨b.toArray⟩ with
  | some s => .text s
  | none => .bytes b

/-- The characters of a content, with replacements for bytes that are none. -/
def repaired : FileContent → List Char
  | text s => s.toList
  | bytes b => Text.repaired b

end FileContent

/-- A file with what it holds, a directory, or a directory that can neither be entered nor
listed, with what the operating system says about it. -/
inductive FileTree where
  | file (content : FileContent)
  | dir (entries : List (String × FileTree))
  | locked (reason : String)
  deriving Inhabited

inductive ReadFault where
  | missing
  | notDirectory
  | isDirectory
  | nameTooLong
  | badName
  | notText
  | refused (text : String)
  deriving DecidableEq, Inhabited

def ReadFault.message : ReadFault → String
  | missing => "No such file or directory (os error 2)"
  | notDirectory => "Not a directory (os error 20)"
  | isDirectory => "Is a directory (os error 21)"
  | nameTooLong => "File name too long (os error 36)"
  | badName => "file name contained an unexpected NUL byte"
  | notText => "stream did not contain valid UTF-8"
  | refused text => text

namespace FileTree

def empty : FileTree := .dir []

def entry? (name : String) : FileTree → Option FileTree
  | .file _ | .locked _ => none
  | .dir entries => (entries.find? fun e => e.1 == name).map Prod.snd

/-- A place in a tree: the directories above it, the nearest first, and the tree
below it. -/
structure Place where
  above : List FileTree
  here : FileTree

/-- The longest name of a file, in bytes. -/
def nameLimit : Nat := 255

def Place.down (p : Place) (name : String) : Except ReadFault Place :=
  match p.here.entry? name with
  | some t => .ok ⟨p.here :: p.above, t⟩
  | none => .error .missing

def Place.step (p : Place) (piece : List Char) : Except ReadFault Place :=
  match p.here with
  | .file _ => .error .notDirectory
  | .locked reason => if piece.isEmpty then .ok p else .error (.refused reason)
  | .dir _ =>
    match PathPart.ofPiece? piece with
    | some (.name s) => if s.utf8ByteSize > nameLimit then .error .nameTooLong else p.down s
    | some .up =>
      match p.above with
      | [] => .ok p
      | t :: rest => .ok ⟨rest, t⟩
    | _ => .ok p

/-- What a path leads to from a directory, which is told by the names that lead to it. -/
def resolve (t : FileTree) (home : List String) (path : String) : Except ReadFault FileTree :=
  let text := path.toList
  if text.isEmpty then .error .missing
  else if text.contains '\x00' then .error .badName
  else do
    let start ← (if text.head? == some '/' then [] else home).foldlM Place.down ⟨[], t⟩
    let stop ← (pathPieces text).foldlM Place.step start
    return stop.here

/-! ### Changes -/

/-- Puts a tree at the end of a list of names; directories on the way are
created. -/
def put (new : FileTree) : List String → FileTree → FileTree
  | [], _ => new
  | name :: rest, t =>
    let entries := match t with
      | .dir entries => entries
      | _ => []
    let inner := put new rest ((t.entry? name).getD empty)
    .dir (entries.filter (fun e => e.1 != name) ++ [(name, inner)])

def remove : List String → FileTree → FileTree
  | [], t => t
  | [name], .dir entries => .dir (entries.filter fun e => e.1 != name)
  | name :: rest, t =>
    match t with
    | .dir entries => .dir (entries.map fun e => if e.1 == name then (e.1, remove rest e.2) else e)
    | _ => t

end FileTree

/-! ### Scratch files -/

/-- A scratch file that is alive. -/
structure Scratch where
  serial : Nat
  lead : String
  text : String
  deriving DecidableEq, Inhabited

def Scratch.name (s : Scratch) : String :=
  let lead := (pathPieces s.lead.toList).getLastD []
  let digits := Nat.toDigits 10 s.serial
  String.ofList (lead ++ List.replicate (6 - digits.length) '0' ++ digits) ++ ".yml"

def Scratch.path (s : Scratch) : FilePath :=
  .scratch s.serial

/-- A tree of files and the scratch files that are alive. -/
structure Files where
  tree : FileTree := .empty
  /-- The names that lead to the working directory. -/
  home : List String := []
  scratch : List Scratch := []
  /-- The number of the next scratch file. -/
  serial : Nat := 0
  /-- Whether there is room for a scratch file with a text. -/
  hasRoom : String → Bool := fun _ => true
  deriving Inhabited

namespace Files

def resolve (fs : Files) : FilePath → Except ReadFault FileTree
  | .named text => fs.tree.resolve fs.home text
  | .scratch serial =>
    match fs.scratch.find? fun s => s.serial == serial with
    | some s => .ok (.file (.text s.text))
    | none => .error .missing

def read (fs : Files) (p : FilePath) : Except ReadFault FileContent :=
  match fs.resolve p with
  | .error f => .error f
  | .ok (.dir _) => .error .isDirectory
  | .ok (.locked reason) => .error (.refused reason)
  | .ok (.file content) => .ok content

def readText (fs : Files) (p : FilePath) : Except ReadFault String :=
  match fs.read p with
  | .error f => .error f
  | .ok (.bytes _) => .error .notText
  | .ok (.text s) => .ok s

def isFile (fs : Files) (p : FilePath) : Bool :=
  match fs.resolve p with
  | .ok (.file _) => true
  | _ => false

def isDirectory (fs : Files) (p : FilePath) : Bool :=
  match fs.resolve p with
  | .ok (.dir _) | .ok (.locked _) => true
  | _ => false

/-- Where a path leads from the working directory. -/
def address (fs : Files) (p : FilePath) : List String ⊕ Nat :=
  p.address fs.home

def put (fs : Files) (path : String) (t : FileTree) : Files :=
  match fs.address (.named path) with
  | .inl names => { fs with tree := FileTree.put t names fs.tree }
  | .inr _ => fs

def remove (fs : Files) (path : String) : Files :=
  match fs.address (.named path) with
  | .inl names => { fs with tree := FileTree.remove names fs.tree }
  | .inr _ => fs

/-- Whether a scratch file can have a name with the given lead: its directory
must exist, and the name must be short enough and hold no zero character. -/
def acceptsLead (lead : String) : Bool :=
  let pieces := pathPieces lead.toList
  let outer := pieces.dropLast
  !lead.toList.contains '\x00' &&
    (outer.all fun p => p.all (· == '.') && p.length ≤ 2) &&
    (String.ofList (pieces.getLastD [])).utf8ByteSize + 10 ≤ FileTree.nameLimit

/-- Creates a scratch file; nothing when its name is refused or there is no room for its text. -/
def addScratch? (fs : Files) (lead text : String) : Option (Scratch × Files) :=
  if acceptsLead lead && fs.hasRoom text then
    let s : Scratch := ⟨fs.serial, lead, text⟩
    some (s, { fs with scratch := s :: fs.scratch, serial := fs.serial + 1 })
  else none

def dropScratch (fs : Files) (s : Scratch) : Files :=
  { fs with scratch := fs.scratch.filter fun t => t.serial != s.serial }

def isAlive (fs : Files) (s : Scratch) : Bool :=
  fs.scratch.any fun t => t.serial == s.serial

end Files

end Galley
