/-!
What changed between two lists.

A run is a stretch of items that were kept, removed or added. `older` and `newer`
are the two lists that runs tell about.
-/

namespace Galley.Diff

/-- What happened to an item. -/
inductive Mark where
  | kept
  | removed
  | added
  deriving DecidableEq, Inhabited

/-- Items that the same thing happened to. -/
structure Run (α : Type) where
  mark : Mark
  items : List α
  deriving DecidableEq, Inhabited

variable {α : Type}

def Run.older (r : Run α) : List α :=
  if r.mark = .added then [] else r.items

def Run.newer (r : Run α) : List α :=
  if r.mark = .removed then [] else r.items

def older (runs : List (Run α)) : List α :=
  runs.flatMap Run.older

def newer (runs : List (Run α)) : List α :=
  runs.flatMap Run.newer

@[simp] theorem older_nil : older ([] : List (Run α)) = [] := rfl

@[simp] theorem newer_nil : newer ([] : List (Run α)) = [] := rfl

@[simp] theorem older_cons (r : Run α) (runs : List (Run α)) :
    older (r :: runs) = r.older ++ older runs := rfl

@[simp] theorem newer_cons (r : Run α) (runs : List (Run α)) :
    newer (r :: runs) = r.newer ++ newer runs := rfl

@[simp] theorem older_append (as bs : List (Run α)) : older (as ++ bs) = older as ++ older bs := by
  simp [older]

@[simp] theorem newer_append (as bs : List (Run α)) : newer (as ++ bs) = newer as ++ newer bs := by
  simp [newer]

/-- A run of a mark, if there are items. -/
def runOf (mark : Mark) (items : List α) : List (Run α) :=
  if items.isEmpty then [] else [⟨mark, items⟩]

/-- The number of items that two lists have in common at the front. -/
def commonLead [DecidableEq α] : List α → List α → Nat
  | a :: as, b :: bs => if a = b then commonLead as bs + 1 else 0
  | _, _ => 0

/-- The number of items that two lists have in common at the end. -/
def commonTrail [DecidableEq α] (as bs : List α) : Nat :=
  commonLead as.reverse bs.reverse

end Galley.Diff
