import Galley.Diff.Run

/-!
A place in the middle of a shortest way from one list to another.

A way leads through a grid: a step down the first list removes an item, a step
down the second adds one, and common items are passed for free. A diagonal holds
the places with the same difference of steps. Round by round, a row holds how far
one more change gets on every second diagonal, the one with most removals first.
Two searches go forward from the start and backward from the end until they meet.
-/

namespace Galley.Diff

variable {α : Type} [DecidableEq α]

/-- Where the inner diagonals and the last one start in the next round. -/
def innerStarts : List Nat → List Nat
  | further :: nearer :: row =>
    (if nearer < further then further else nearer + 1) :: innerStarts (nearer :: row)
  | row => row

/-- Where the diagonals start in the next round; the first round starts at the
front. -/
def starts : List Nat → List Nat
  | [] => [0]
  | first :: row => (first + 1) :: innerStarts (first :: row)

def diagonals (round : Nat) : List Int :=
  (List.range (round + 1)).map fun (i : Nat) => (round : Int) - 2 * (i : Int)

/-- How far one gets in the second list at a place of the first. -/
def across (x : Nat) (diagonal : Int) : Nat :=
  ((x : Int) - diagonal).toNat

/-- How far common items lead from a place. -/
def glide (as bs : List α) (x : Nat) (diagonal : Int) : Nat :=
  x + commonLead (as.drop x) (bs.drop (across x diagonal))

/-- Whether the other search has got to a place on the same diagonal or past it.
`total` is the length of the first list and `delta` the difference of lengths. -/
def meets (total : Nat) (delta : Int) (row : List Nat) (diagonal : Int) (x : Nat) : Bool :=
  let other := delta - diagonal
  let last : Int := (row.length : Int) - 1
  other.natAbs ≤ last && (last - other) % 2 == 0 &&
    match row[((last - other) / 2).toNat]? with
    | some x' => total ≤ x + x'
    | none => false

/-- A place on a row where the other search is met: the start and the end of the
common items there, with the diagonal. -/
def meeting? (total : Nat) (delta : Int) (other : List Nat) :
    List (Int × Nat × Nat) → Option (Int × Nat × Nat) :=
  List.find? fun (diagonal, _, x) => meets total delta other diagonal x

/-- Searches from both ends, given the rows of the round before. -/
def middleFrom? (as bs : List α) (delta : Int) :
    Nat → Nat → List Nat → List Nat → Option (Nat × Nat)
  | 0, _, _, _ => none
  | n + 1, round, forward, backward =>
    let ks := diagonals round
    let isOdd := delta % 2 != 0
    let begins := starts forward
    let forward := List.zipWith (glide as bs) begins ks
    match if isOdd then meeting? as.length delta backward (ks.zip (begins.zip forward))
      else none with
    | some (k, x, _) => some (x, across x k)
    | none =>
      let begins := starts backward
      let backward := List.zipWith (glide as.reverse bs.reverse) begins ks
      match if isOdd then none
        else meeting? as.length delta forward (ks.zip (begins.zip backward)) with
      | some (k, _, x) => some (as.length - x, bs.length - across x k)
      | none => middleFrom? as bs delta n (round + 1) forward backward

/-- A place in the middle of a shortest way. -/
def middle? (as bs : List α) : Option (Nat × Nat) :=
  middleFrom? as bs ((as.length : Int) - bs.length) ((as.length + bs.length + 1) / 2 + 1) 0 [] []

/-- The runs between two lists: what they have in common at both ends is kept, and
the rest is cut in the middle. The fuel bounds the number of cuts. -/
def runsFrom : Nat → List α → List α → List (Run α)
  | 0, as, bs => runOf .removed as ++ runOf .added bs
  | n + 1, as, bs =>
    let lead := commonLead as bs
    let as' := as.drop lead
    let bs' := bs.drop lead
    let trail := commonTrail as' bs'
    let as'' := as'.take (as'.length - trail)
    let bs'' := bs'.take (bs'.length - trail)
    let inner :=
      if as''.isEmpty || bs''.isEmpty then runOf .removed as'' ++ runOf .added bs''
      else
        match middle? as'' bs'' with
        | some (x, y) =>
          runsFrom n (as''.take x) (bs''.take y) ++ runsFrom n (as''.drop x) (bs''.drop y)
        | none => runOf .removed as'' ++ runOf .added bs''
    runOf .kept (as.take lead) ++ inner ++ runOf .kept (as'.drop (as'.length - trail))

def runs (as bs : List α) : List (Run α) :=
  runsFrom (as.length + bs.length + 1) as bs

end Galley.Diff
