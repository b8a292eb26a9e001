import Galley.Fault
import Galley.Glob

/-!
Finding model files below a directory.

The directory is walked in the order of names, and the files whose path below
the root is covered by a pattern are listed in the order of paths. A directory
on the way that cannot be listed ends the search.
-/

namespace Galley

namespace FileTree

mutual

/-- What a walk of a tree comes to below its directories, in the order of names: files, and
directories that it cannot list, each with the names that lead to it. -/
def leaves : FileTree → List (List String × FileTree)
  | .dir entries =>
    ((leavesOfEntries entries).mergeSort fun a b => decide (a.1 ≤ b.1)).flatMap fun e =>
      e.2.map fun leaf => (e.1 :: leaf.1, leaf.2)
  | leaf => [([], leaf)]
termination_by structural t => t

def leavesOfEntries : List (String × FileTree) → List (String × List (List String × FileTree))
  | [] => []
  | (name, t) :: rest => (name, leaves t) :: leavesOfEntries rest
termination_by structural entries => entries

end

/-- The names that lead to each file of a tree, in the order of a walk. -/
def walk (t : FileTree) : List (List String) :=
  t.leaves.filterMap fun
    | (names, .file _) => some names
    | _ => none

/-- The first directory that a walk cannot list: the names that lead to it, and why. -/
def firstLocked? (t : FileTree) : Option (List String × String) :=
  t.leaves.findSome? fun
    | (names, .locked reason) => some (names, reason)
    | _ => none

end FileTree

namespace Glob

/-- The pattern of a text, or the fault of a text that is none. -/
def ofText (text : String) : Except ModelFault Glob :=
  match ofText? text with
  | some g => .ok g
  | none => .error (.badPattern text)

def pathBelow (root : FilePath) (names : List String) : FilePath :=
  names.foldl FilePath.join root

/-- What a search says about a directory that it cannot list. -/
def unlisted (directory : FilePath) (reason : String) : String :=
  "IO error for operation on " ++ directory.shown ++ ": " ++ reason

/-- The files below a directory that a pattern covers, in the order of paths. Nothing is found
when a directory on the way cannot be listed. -/
def discover (g : Glob) (fs : Files) (root : FilePath) : Attempt (List FilePath) :=
  match fs.resolve root with
  | .error _ | .ok (.file _) => Attempt.fail (.notSearched root "not a directory")
  | .ok t =>
    match t.firstLocked? with
    | some (names, reason) =>
      Attempt.fail (.notSearched root (unlisted (pathBelow root names) reason))
    | none => do
      let covered := t.walk.filter fun names => g.covers (String.intercalate "/" names)
      let found := (covered.map (pathBelow root)).mergeSort FilePath.le
      Attempt.write .debug
        ("Discovered " ++ toString found.length ++ " model files under " ++ root.shown ++
          " matching " ++ g.text)
      return found

end Glob

end Galley
