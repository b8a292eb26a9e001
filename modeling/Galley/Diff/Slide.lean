import Galley.Diff.Run

/-!
Changes that slide.

Added items that end like the kept items in front of them can stand in front of
those instead. Sliding changes up and down as far as they go joins changes that
belong together. Removed items only change places with added ones.
-/

namespace Galley.Diff

variable {α : Type} [DecidableEq α]

/-- A run with the runs before it, nearest first, and those behind it. -/
structure Cursor (α : Type) where
  before : List (Run α)
  here : Run α
  after : List (Run α)

/-- Puts kept items in front of runs, into the first one if it is kept. -/
def keepAhead (items : List α) : List (Run α) → List (Run α)
  | ⟨.kept, more⟩ :: rest => ⟨.kept, items ++ more⟩ :: rest
  | rest => ⟨.kept, items⟩ :: rest

/-- Puts kept items behind runs whose nearest comes first. -/
def keepBehind (items : List α) : List (Run α) → List (Run α)
  | ⟨.kept, more⟩ :: rest => ⟨.kept, more ++ items⟩ :: rest
  | rest => ⟨.kept, items⟩ :: rest

/-- Slides a change up by one run; nothing if it cannot go further. -/
def Cursor.up? (c : Cursor α) : Option (Cursor α) :=
  match c.before with
  | [] => none
  | r :: before =>
    match c.here.mark, r.mark with
    | .kept, _ => none
    | .added, .kept =>
      let n := commonTrail r.items c.here.items
      if n = 0 then (if r.items.isEmpty then some { c with before } else none)
      else
        let left := r.items.take (r.items.length - n)
        let common := r.items.drop (r.items.length - n)
        let here := ⟨.added, common ++ c.here.items.take (c.here.items.length - n)⟩
        some ⟨runOf .kept left ++ before, here, keepAhead common c.after⟩
    | .removed, .kept => if r.items.isEmpty then some { c with before } else none
    | .added, .added | .removed, .removed =>
      some ⟨before, ⟨r.mark, r.items ++ c.here.items⟩, c.after⟩
    | .added, .removed | .removed, .added => some ⟨before, c.here, r :: c.after⟩

/-- Slides a change down by one run; nothing if it cannot go further. -/
def Cursor.down? (c : Cursor α) : Option (Cursor α) :=
  match c.after with
  | [] => none
  | r :: after =>
    match c.here.mark, r.mark with
    | .kept, _ => none
    | .added, .kept =>
      let n := commonLead r.items c.here.items
      if n = 0 then (if r.items.isEmpty then some { c with after } else none)
      else
        let common := r.items.take n
        let here := ⟨.added, c.here.items.drop n ++ common⟩
        some ⟨keepBehind common c.before, here, runOf .kept (r.items.drop n) ++ after⟩
    | .removed, .kept => if r.items.isEmpty then some { c with after } else none
    | .added, .added | .removed, .removed =>
      some ⟨c.before, ⟨r.mark, c.here.items ++ r.items⟩, after⟩
    | .added, .removed | .removed, .added => some ⟨r :: c.before, c.here, after⟩

/-- Repeats a move as long as it is possible. -/
def Cursor.repeatMove (move : Cursor α → Option (Cursor α)) : Nat → Cursor α → Cursor α
  | 0, c => c
  | n + 1, c =>
    match move c with
    | some c' => repeatMove move n c'
    | none => c

/-- The number of items and runs. -/
def extent : List (Run α) → Nat
  | [] => 0
  | r :: runs => r.items.length + 1 + extent runs

/-- Slides a change up and then down as far as it goes. -/
def Cursor.settle (c : Cursor α) : Cursor α :=
  let bound := extent c.before + extent c.after + c.here.items.length + 1
  (c.repeatMove Cursor.up? bound).repeatMove Cursor.down? bound

/-- Slides all changes with a mark, from first to last. -/
def slideFrom (mark : Mark) : Nat → List (Run α) → List (Run α) → List (Run α)
  | 0, before, after => before.reverse ++ after
  | _, before, [] => before.reverse
  | n + 1, before, r :: after =>
    if r.mark = mark then
      let c := Cursor.settle ⟨before, r, after⟩
      slideFrom mark n (c.here :: c.before) c.after
    else slideFrom mark n (r :: before) after

/-- Slides all changes, first the removed items, then the added ones. -/
def slide (runs : List (Run α)) : List (Run α) :=
  let bound := (extent runs + 1) * (extent runs + 1)
  slideFrom .added bound [] (slideFrom .removed bound [] runs)

end Galley.Diff
