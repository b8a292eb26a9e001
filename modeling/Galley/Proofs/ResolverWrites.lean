import Galley.Proofs.BuildStages
import Galley.Proofs.Changes
import Galley.Proofs.CommentRemoval
import Galley.Proofs.SortedFields

/-!
What resolvers write.

A plan lists the entries that a resolver stores, from first to last, or tells why it stores
none. A resolver follows a plan on a document when it does the same from every model: it
stores the entries of the plan and tells of every entry that it replaces, and nothing else
depends on the model (`Resolver.Follows`). The stock resolvers follow a plan on every
document (`follows_of_isStock`), and so does a list of resolvers that follow plans
(`Registry.puts_runOn`).
-/

namespace Galley

@[simp] theorem Attempt.lines_liftM {α : Type} (x : Logged α) :
    (liftM x : Attempt α).lines = x.lines := by
  have hlines : (liftM x : Attempt α).lines = x.lines ++ [] := rfl
  rw [hlines, List.append_nil]

namespace Model

/-! ### Lines that tell of a replaced entry -/

/-- The key of the entry that a line tells to be replaced. -/
def overwrittenKey? (l : LogLine) : Option String :=
  match l.level with
  | .warn => do
    let rest ← Text.dropPrefix? "Model entry '".toList l.text.toList
    let key ← Text.dropPrefix? "' overwritten by a later resolver".toList.reverse rest.reverse
    return String.ofList key.reverse
  | _ => none

/-- The keys of the entries that a log tells to be replaced. -/
def overwrites (lines : List LogLine) : List String :=
  lines.filterMap overwrittenKey?

/-- The lines that tell of a replaced entry are the warnings about it. -/
theorem overwrittenKey?_eq_some_iff {l : LogLine} {key : String} :
    overwrittenKey? l = some key ↔ l = ⟨.warn, overwritten key⟩ := by
  obtain ⟨level, text⟩ := l
  constructor
  · intro h
    cases level <;> try cases h
    obtain ⟨rest, hrest, h⟩ := Option.bind_eq_some_iff.mp h
    obtain ⟨name, hname, hkey⟩ := Option.bind_eq_some_iff.mp h
    rw [Text.dropPrefix?_eq_some_iff] at hrest hname
    have hkey : String.ofList name.reverse = key := Option.some.inj hkey
    have hmiddle : rest = name.reverse ++ "' overwritten by a later resolver".toList := by
      rw [← List.reverse_reverse rest, hname, List.reverse_append, List.reverse_reverse]
    have htext : text.toList = (overwritten key).toList := by
      rw [hrest, hmiddle, ← hkey, overwritten]
      simp [String.toList_append]
    rw [String.toList_inj.mp htext]
  · intro h
    cases h
    have hrest : Text.dropPrefix? "Model entry '".toList (overwritten key).toList =
        some (key.toList ++ "' overwritten by a later resolver".toList) := by
      rw [Text.dropPrefix?_eq_some_iff, overwritten]
      simp [String.toList_append]
    have hname : Text.dropPrefix? "' overwritten by a later resolver".toList.reverse
        (key.toList ++ "' overwritten by a later resolver".toList).reverse =
        some key.toList.reverse := by
      rw [Text.dropPrefix?_eq_some_iff, List.reverse_append]
    simp only [overwrittenKey?, hrest, hname, Option.bind_eq_bind, Option.bind_some]
    simp

theorem overwrittenKey?_of_ne_warn {level : LogLevel} (h : level ≠ .warn) (text : String) :
    overwrittenKey? ⟨level, text⟩ = none := by
  cases hkey : overwrittenKey? ⟨level, text⟩ with
  | none => rfl
  | some key =>
      have hline := overwrittenKey?_eq_some_iff.mp hkey
      exact absurd (congrArg LogLine.level hline) h

@[simp] theorem overwrites_append (front back : List LogLine) :
    overwrites (front ++ back) = overwrites front ++ overwrites back :=
  List.filterMap_append

variable [CallerTypes]

/-! ### Storing several entries -/

/-- Stores entries from first to last. -/
def putAll : List (String × Entry) → Model → Logged Model
  | [], m => pure m
  | (key, e) :: writes, m => do
    let m ← m.put key e
    putAll writes m

/-! ### What is stored, and what is told -/

section PutAll

open scoped List

variable {key : String} {e : Entry} {writes : List (String × Entry)} {m : Model}

@[simp] theorem entries_put (key : String) (e : Entry) (m : Model) :
    (m.put key e).value.entries = Fields.insert key e m.entries := by
  rw [put]
  split <;> rfl

/-- Replacing an entry is told, and storing a new one is not. -/
theorem overwrites_put (key : String) (e : Entry) (m : Model) :
    overwrites (m.put key e).lines = if m.contains key then [key] else [] := by
  rw [put]
  split
  · have hline : overwrittenKey? ⟨.warn, overwritten key⟩ = some key :=
      overwrittenKey?_eq_some_iff.mpr rfl
    simp [overwrites, hline]
  · rfl

@[simp] theorem putAll_nil (m : Model) : m.putAll [] = pure m := rfl

theorem putAll_append (front back : List (String × Entry)) (m : Model) :
    m.putAll (front ++ back) = m.putAll front >>= putAll back := by
  induction front generalizing m with
  | nil => simp
  | cons write front ih =>
      obtain ⟨key, e⟩ := write
      rw [List.cons_append, putAll, putAll, bind_assoc]
      simp only [ih]

theorem entries_putAll :
    (m.putAll writes).value.entries = Fields.insertAll m.entries writes := by
  induction writes generalizing m with
  | nil => rfl
  | cons write writes ih =>
      obtain ⟨k, e⟩ := write
      rw [putAll, Logged.value_bind, ih, entries_put]
      rfl

/-- The entry of a key is the last one stored under it. -/
theorem entry?_putAll : entry? key (m.putAll writes).value =
    (Fields.find? key writes.reverse).or (m.entry? key) := by
  rw [Model.entry?, entries_putAll, Fields.find?_insertAll, Model.entry?]

theorem sorted_putAll (h : Fields.Sorted m.entries) :
    Fields.Sorted (m.putAll writes).value.entries := by
  rw [entries_putAll]
  exact Fields.sorted_insertAll h

/-- Every entry that is stored is one of the model, or is told to be replaced: as often as a
key is stored, or was there, it is replaced or stays. -/
theorem overwrites_putAll_perm (h : Fields.Sorted m.entries) :
    (overwrites (m.putAll writes).lines ++ (m.putAll writes).value.keys).Perm
      (writes.map Prod.fst ++ m.keys) := by
  induction writes generalizing m with
  | nil => exact .refl _
  | cons write writes ih =>
      obtain ⟨k, e⟩ := write
      have hsorted : Fields.Sorted (m.put k e).value.entries := by
        rw [entries_put]
        exact Fields.sorted_insert h
      -- One write: its key is told to be replaced, or it is a new key of the model.
      have hstep : (overwrites (m.put k e).lines ++ (m.put k e).value.keys).Perm (k :: m.keys) := by
        rw [overwrites_put, keys, keys, entries_put, contains]
        by_cases hk : k ∈ Fields.keys m.entries
        · rw [if_pos (Fields.contains_iff.mpr hk), Fields.keys_insert_of_mem h hk]
          exact .refl _
        · rw [if_neg (mt Fields.contains_iff.mp hk)]
          exact Fields.perm_keys_insert_of_notMem hk
      rw [putAll, Logged.lines_bind, Logged.value_bind, overwrites_append, List.append_assoc,
        List.map_cons, List.cons_append]
      calc overwrites (m.put k e).lines ++
              (overwrites ((m.put k e).value.putAll writes).lines ++
                ((m.put k e).value.putAll writes).value.keys)
          ~ overwrites (m.put k e).lines ++ (writes.map Prod.fst ++ (m.put k e).value.keys) :=
            (ih hsorted).append_left _
        _ ~ writes.map Prod.fst ++ (overwrites (m.put k e).lines ++ (m.put k e).value.keys) := by
            rw [← List.append_assoc, ← List.append_assoc]
            exact List.perm_append_comm.append_right _
        _ ~ writes.map Prod.fst ++ k :: m.keys := hstep.append_left _
        _ ~ k :: (writes.map Prod.fst ++ m.keys) := List.perm_middle

end PutAll

end Model

variable [CallerTypes]

/-! ### Plans -/

/-- The entries that are stored, from first to last, or the fault for which none is. -/
abbrev Plan := Except ModelFault (List (String × Entry))

namespace Plan

def writes : Plan → List (String × Entry)
  | .ok writes => writes
  | .error _ => []

/-- The keys under which a plan stores entries, one for each time. -/
def keys (plan : Plan) : List String :=
  Fields.keys plan.writes

def ofValue (k : Kind) (key : String) (v : k.Carrier) : Plan := do
  let e ← (Entry.ofValue k v).mapError ModelFault.notPlain
  return [(key, e)]

def append (plan plan' : Plan) : Plan := do
  return (← plan) ++ (← plan')

end Plan

namespace Attempt

variable {α : Type} {m : Model} {plan plan' : Plan}

theorem lines_bind_of_ok {x : Attempt Model} {f : Model → Attempt Model}
    (h : x.outcome = .ok m) : (x >>= f).lines = x.lines ++ (f m).lines := by
  rw [outcome] at h
  rw [lines, ExceptT.run_bind, Logged.lines_bind, h]
  rfl

/-- From a model, an attempt stores what a plan says and tells of what it replaces. -/
structure Puts (x : Attempt Model) (m : Model) (plan : Plan) : Prop where
  outcome : x.outcome = plan.map fun writes => (m.putAll writes).value
  overwrites : ∀ writes, plan = .ok writes →
    Model.overwrites x.lines = Model.overwrites (m.putAll writes).lines

namespace Puts

theorem pure (m : Model) : Puts (Pure.pure m) m (.ok []) :=
  ⟨rfl, fun _ h => by cases h; rfl⟩

/-- What follows an outcome that does not depend on the model. -/
theorem ofExcept_bind {y : Except ModelFault α} {f : α → Attempt Model} {plan : α → Plan}
    (h : ∀ a, y = .ok a → (f a).Puts m (plan a)) :
    Puts (Attempt.ofExcept y >>= f) m (y >>= plan) := by
  cases y with
  | error fault => exact ⟨rfl, fun _ heq => by cases heq⟩
  | ok a =>
      have hstep := h a rfl
      exact ⟨hstep.outcome, hstep.overwrites⟩

/-- What follows a line that is not a warning. -/
theorem write_bind {level : LogLevel} {text : String} {f : Unit → Attempt Model}
    (hlevel : level ≠ .warn) (h : (f ()).Puts m plan) :
    Puts (Attempt.write level text >>= f) m plan := by
  refine ⟨by rw [outcome_write_bind, h.outcome], ?_⟩
  intro writes hplan
  have hlines : (Attempt.write level text >>= f).lines = ⟨level, text⟩ :: (f ()).lines := rfl
  rw [hlines, ← h.overwrites writes hplan, Model.overwrites, List.filterMap_cons,
    Model.overwrittenKey?_of_ne_warn hlevel]
  rfl

/-- Storing one value. -/
theorem insert (k : Kind) (key : String) (v : k.Carrier) (m : Model) :
    Puts (m.insert k key v) m (Plan.ofValue k key v) := by
  rw [Model.insert_eq]
  apply ofExcept_bind
  intro e _
  refine ⟨rfl, ?_⟩
  intro writes hwrites
  cases hwrites
  simp [Model.putAll]

/-- One attempt after another. -/
theorem bind {x : Attempt Model} {f : Model → Attempt Model} (hx : x.Puts m plan)
    (hf : ∀ m, (f m).Puts m plan') : Puts (x >>= f) m (plan.append plan') := by
  cases plan with
  | error fault =>
      have hfail : (x >>= f).outcome = .error fault := outcome_bind_of_error hx.outcome
      exact ⟨hfail, fun _ heq => by cases heq⟩
  | ok writes =>
      have hfirst : x.outcome = .ok (m.putAll writes).value := hx.outcome
      have hsecond := hf (m.putAll writes).value
      have hlines := lines_bind_of_ok (f := f) hfirst
      cases plan' with
      | error fault =>
          refine ⟨?_, fun _ heq => by cases heq⟩
          rw [outcome_bind_of_ok hfirst, hsecond.outcome]
          rfl
      | ok writes' =>
          refine ⟨?_, ?_⟩
          · rw [outcome_bind_of_ok hfirst, hsecond.outcome]
            have hall : Plan.append (.ok writes) (.ok writes') = .ok (writes ++ writes') := rfl
            simp [hall, Except.map, Model.putAll_append]
          · intro all hall
            cases hall
            rw [hlines, Model.putAll_append, Logged.lines_bind, Model.overwrites_append,
              Model.overwrites_append, hx.overwrites writes rfl, hsecond.overwrites writes' rfl]

end Puts

end Attempt

/-! ### Resolvers that follow a plan -/

namespace Resolver

/-- From every model, a resolver stores what a plan says and tells of what it replaces. -/
def Follows (r : Resolver) (d : Document) (plan : Plan) : Prop :=
  ∀ m, (r.run d m).Puts m plan

/-- The resolvers for collections, for the project and for the service API. -/
inductive IsStock : Resolver → Prop where
  | collection (key : String) (item : Kind) (modelKey : Option String) :
      IsStock (.collection key item modelKey)
  | project : IsStock .project
  | serviceApi : IsStock .serviceApi

def collectionPlan (key : String) (item : Kind) (modelKey : Option String) (d : Document) :
    Plan := do
  let items ← readSequence item d key ("collection:" ++ key)
  Plan.ofValue (.list item) (modelKey.getD key) items

/-- The plan for the project: it is stored if there is one. -/
def projectPlan (d : Document) : Plan := do
  match ← readSection .project d Project.key "project" with
  | none => return []
  | some p => Plan.ofValue .project Project.key p

def entitiesPlan (k : EntityKind) (es : Entities k) : Plan :=
  Plan.ofValue (.entities k) k.key es

/-- The plan for a service API: four lists, read before the first one is stored. -/
def serviceApiPlan (d : Document) : Plan := do
  let datasources ← readEntities .datasource d
  let services ← readEntities .service d
  let restResources ← readEntities .restResource d
  let dataAccesses ← readEntities .dataAccess d
  (entitiesPlan .datasource datasources).append
    ((entitiesPlan .service services).append
      ((entitiesPlan .restResource restResources).append
        (entitiesPlan .dataAccess dataAccesses)))

theorem follows_collection (key : String) (item : Kind) (modelKey : Option String)
    (d : Document) :
    (collection key item modelKey).Follows d (collectionPlan key item modelKey d) := by
  intro m
  apply Attempt.Puts.ofExcept_bind
  intro items _
  apply Attempt.Puts.write_bind (by decide)
  exact .insert (.list item) (modelKey.getD key) items m

theorem follows_project (d : Document) : project.Follows d (projectPlan d) := by
  intro m
  apply Attempt.Puts.ofExcept_bind
  intro found _
  cases found with
  | none => exact .pure m
  | some p => exact .insert .project Project.key p m

theorem follows_serviceApi (d : Document) : serviceApi.Follows d (serviceApiPlan d) := by
  intro m
  rw [run_serviceApi]
  apply Attempt.Puts.ofExcept_bind
  intro datasources _
  apply Attempt.Puts.ofExcept_bind
  intro services _
  apply Attempt.Puts.ofExcept_bind
  intro restResources _
  apply Attempt.Puts.ofExcept_bind
  intro dataAccesses _
  apply Attempt.Puts.write_bind (by decide)
  apply Attempt.Puts.bind (.insert _ _ _ m)
  intro m
  apply Attempt.Puts.bind (.insert _ _ _ m)
  intro m
  apply Attempt.Puts.bind (.insert _ _ _ m)
  intro m
  exact .insert _ _ _ m

/-- The stock resolvers follow a plan on every document. -/
theorem follows_of_isStock {r : Resolver} (h : IsStock r) (d : Document) :
    ∃ plan, r.Follows d plan := by
  cases h with
  | collection key item modelKey => exact ⟨_, follows_collection key item modelKey d⟩
  | project => exact ⟨_, follows_project d⟩
  | serviceApi => exact ⟨_, follows_serviceApi d⟩

end Resolver

/-! ### Registries -/

namespace Registry

def planOf (plan : Resolver → Plan) : Registry → Plan
  | [] => .ok []
  | r :: rest => (plan r).append (planOf plan rest)

/-- A list of resolvers that follow plans follows their plans, one after the other. -/
theorem puts_runOn {d : Document} {resolvers : Registry} {plan : Resolver → Plan}
    (h : ∀ r ∈ resolvers, r.Follows d (plan r)) (m : Model) :
    (resolvers.runOn d m).Puts m (planOf plan resolvers) := by
  induction resolvers generalizing m with
  | nil => exact .pure m
  | cons r rest ih =>
      obtain ⟨hr, hrest⟩ := List.forall_mem_cons.mp h
      apply Attempt.Puts.write_bind (by decide)
      apply Attempt.Puts.bind (hr m)
      exact ih hrest

end Registry

end Galley
