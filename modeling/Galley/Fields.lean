/-!
Fields sorted by key.

A field list is an association list whose keys strictly increase. `insert` puts
a field at its place and replaces the value of a key that is there already, so
a list built by insertion holds each key once.
-/

namespace Galley.Fields

variable {β γ : Type}

def find? (k : String) : List (String × β) → Option β
  | [] => none
  | (k', v) :: rest => if k' = k then some v else find? k rest

/-- Puts a field at its place, replacing the value of a key that is there. -/
def insert (k : String) (v : β) : List (String × β) → List (String × β)
  | [] => [(k, v)]
  | (k', v') :: rest =>
    if k = k' then (k, v) :: rest
    else if k < k' then (k, v) :: (k', v') :: rest
    else (k', v') :: insert k v rest

def keys (fields : List (String × β)) : List String :=
  fields.map Prod.fst

def contains (k : String) (fields : List (String × β)) : Bool :=
  (find? k fields).isSome

/-- Inserts fields from first to last, so that the last value of a key stays. -/
def insertAll (fields : List (String × β)) (more : List (String × β)) : List (String × β) :=
  more.foldl (fun acc kv => insert kv.1 kv.2 acc) fields

/-- The sorted fields of a list of pairs; the last value of a key stays. -/
def ofPairs (pairs : List (String × β)) : List (String × β) :=
  insertAll [] pairs

/-- Of neighbours with the same key, the last one. -/
def lastOfEach : List (String × β) → List (String × β)
  | [] => []
  | [e] => [e]
  | e :: f :: rest =>
    if e.1 = f.1 then lastOfEach (f :: rest) else e :: lastOfEach (f :: rest)

/-- The fields of pairs that are all sorted first; pairs with the same key stay in order, and the
last of them stays. -/
def collect (pairs : List (String × β)) : List (String × β) :=
  lastOfEach (pairs.mergeSort fun e f => e.1 ≤ f.1)

/-- Strictly increasing keys. -/
def Sorted (fields : List (String × β)) : Prop :=
  (keys fields).Pairwise (· < ·)

/-! ### The view of insertion -/

@[simp] theorem find?_nil (k : String) : find? k ([] : List (String × β)) = none := rfl

theorem find?_insert_self (k : String) (v : β) (fields : List (String × β)) :
    find? k (insert k v fields) = some v := by
  induction fields with
  | nil => simp [insert, find?]
  | cons kv rest ih =>
    obtain ⟨k', v'⟩ := kv
    simp only [insert]
    split
    · simp [find?]
    · split
      · simp [find?]
      · rename_i h _
        simp [find?, ih, Ne.symm h]

theorem find?_insert_of_ne {k k' : String} (h : k' ≠ k) (v : β) (fields : List (String × β)) :
    find? k' (insert k v fields) = find? k' fields := by
  induction fields with
  | nil => simp [insert, find?, h.symm]
  | cons kv rest ih =>
    obtain ⟨k₀, v₀⟩ := kv
    simp only [insert]
    split
    · rename_i hk
      subst hk
      simp [find?, h.symm]
    · split
      · simp [find?, h.symm]
      · simp only [find?, ih]

/-- Looking up after an insertion. -/
theorem find?_insert (k k' : String) (v : β) (fields : List (String × β)) :
    find? k' (insert k v fields) = if k' = k then some v else find? k' fields := by
  split
  · rename_i h
    rw [h, find?_insert_self]
  · rename_i h
    exact find?_insert_of_ne h v fields

end Galley.Fields
