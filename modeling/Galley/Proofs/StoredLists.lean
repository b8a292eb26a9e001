import Galley.Proofs.ResolverWrites

/-!
Lists that the stock resolvers store.

A sequence is read item by item (`readSequence_eq_ok_iff`). A collection succeeds when its
sequence is read and has a plain form, and stores it under one key
(`Resolver.outcome_collection_eq_ok_iff`). The resolver of a service API succeeds when the
lists of all kinds are read, and stores each under the key of its kind
(`Resolver.outcome_serviceApi_eq_ok_iff`). What was stored is found again, by its kind and in
its plain form.
-/

namespace Galley

/-! ### Sequences -/

namespace Yaml.Value

/-- The items of a sequence; any other value has none. -/
def items : Value → List Value
  | .seq items => items
  | _ => []

def NullOrSeq (v : Value) : Prop :=
  v = .null ∨ ∃ items, v = .seq items

end Yaml.Value

variable [CallerTypes]

/-- A sequence is read item by item; where there is none, nothing is read. -/
theorem readSequence_eq_ok_iff {k : Kind} {d : Document} {key resolver : String}
    {xs : List k.Carrier} :
    readSequence k d key resolver = .ok xs ↔
      (∀ v, d.find? key = some v → v.NullOrSeq) ∧
        List.Forall₂ (fun v x => k.read v = .ok x) ((d.find? key).elim [] Yaml.Value.items) xs := by
  rw [readSequence, mapError_eq_ok_iff]
  cases hfound : d.find? key with
  | none => simp [eq_comm]
  | some v =>
      rw [Option.elim_some]
      cases v with
      | null => simp [Yaml.Value.NullOrSeq, Yaml.Value.items, eq_comm]
      | seq vs => simp [Yaml.Value.NullOrSeq, Yaml.Value.items, mapM_eq_ok_iff]
      | _ => simp [Yaml.Value.NullOrSeq]

/-! ### Stored values -/

namespace Entry

theorem ofValue_eq_ok_iff {k : Kind} {v : k.Carrier} {e : Entry} :
    ofValue k v = .ok e ↔ ∃ j, k.toJson v = .ok j ∧ e = ⟨k, v, j⟩ := by
  rw [ofValue, bind_eq_ok_iff]
  constructor
  · rintro ⟨j, hj, heq⟩
    exact ⟨j, hj, (Except.ok.inj heq).symm⟩
  · rintro ⟨j, hj, rfl⟩
    exact ⟨j, hj, rfl⟩

/-- A stored value is found by its kind. -/
@[simp] theorem get?_mk (k : Kind) (v : k.Carrier) (j : Json) :
    (⟨k, v, j⟩ : Entry).get? k = some v := by
  simp [get?]

def ofEntities {k : EntityKind} (es : Entities k) : Entry :=
  ⟨.entities k, es, es.toJson⟩

end Entry

namespace Model

variable {key : String} {m m' : Model}

theorem entry?_put (key key' : String) (e : Entry) (m : Model) :
    entry? key' (m.put key e).value = if key' = key then some e else m.entry? key' := by
  rw [Model.entry?, entries_put, Fields.find?_insert]
  rfl

theorem get?_of_entry? {k : Kind} {v : k.Carrier} {j : Json}
    (h : m.entry? key = some ⟨k, v, j⟩) : m.get? k key = some v := by
  rw [get?, h, Option.bind_some, Entry.get?_mk]

theorem value?_of_entry? {e : Entry} (h : m.entry? key = some e) :
    m.value? key = some e.json := by
  rw [value?, h, Option.map_some]

/-- The entities of a kind are found when their list is stored under its key. -/
theorem entities_of_entry? {k : EntityKind} {es : Entities k}
    (h : m.entry? k.key = some (.ofEntities es)) : m.entities k = es := by
  have hget : m.get? (.entities k) k.key = some es := get?_of_entry? h
  rw [entities, hget]

/-- A value is stored when it has a plain form. -/
theorem outcome_insert_eq_ok_iff {k : Kind} {v : k.Carrier} :
    (m.insert k key v).outcome = .ok m' ↔
      ∃ j, k.toJson v = .ok j ∧ m' = (m.put key ⟨k, v, j⟩).value := by
  have hput (e : Entry) : (liftM (m.put key e) : Attempt Model).outcome =
      .ok (m.put key e).value := rfl
  rw [insert_eq, Attempt.outcome_bind_eq_ok_iff]
  simp only [Attempt.outcome_ofExcept, mapError_eq_ok_iff, Entry.ofValue_eq_ok_iff, hput]
  constructor
  · rintro ⟨e, ⟨j, hj, rfl⟩, heq⟩
    exact ⟨j, hj, (Except.ok.inj heq).symm⟩
  · rintro ⟨j, hj, rfl⟩
    exact ⟨_, ⟨j, hj, rfl⟩, rfl⟩

end Model

namespace Resolver

variable {d : Document} {m m' : Model}

/-! ### Collections -/

section Collection

variable {key : String} {item : Kind} {modelKey : Option String}

/-- A collection reads its sequence and stores it with its plain form. -/
theorem outcome_collection_eq_ok_iff :
    ((collection key item modelKey).run d m).outcome = .ok m' ↔
      ∃ xs j, readSequence item d key ("collection:" ++ key) = .ok xs ∧
        (Kind.list item).toJson xs = .ok j ∧
        m' = (m.put (modelKey.getD key) ⟨.list item, xs, j⟩).value := by
  rw [collection, Attempt.outcome_bind_eq_ok_iff]
  simp only [Attempt.outcome_ofExcept, Attempt.outcome_write_bind]
  constructor
  · rintro ⟨xs, hxs, hinsert⟩
    obtain ⟨j, hj, hm'⟩ := Model.outcome_insert_eq_ok_iff.mp hinsert
    exact ⟨xs, j, hxs, hj, hm'⟩
  · rintro ⟨xs, j, hxs, hj, hm'⟩
    exact ⟨xs, hxs, Model.outcome_insert_eq_ok_iff.mpr ⟨j, hj, hm'⟩⟩

/-- What a collection read is found under its key, by its kind and in its plain form. -/
theorem stored_of_collection (h : ((collection key item modelKey).run d m).outcome = .ok m') :
    ∃ xs j, readSequence item d key ("collection:" ++ key) = .ok xs ∧
      (Kind.list item).toJson xs = .ok j ∧
      m'.get? (.list item) (modelKey.getD key) = some xs ∧
      m'.value? (modelKey.getD key) = some j := by
  obtain ⟨xs, j, hxs, hj, rfl⟩ := outcome_collection_eq_ok_iff.mp h
  have hentry := Model.entry?_put (modelKey.getD key) (modelKey.getD key) ⟨.list item, xs, j⟩ m
  rw [if_pos rfl] at hentry
  exact ⟨xs, j, hxs, hj, Model.get?_of_entry? hentry, Model.value?_of_entry? hentry⟩

end Collection

/-! ### The service API -/

/-- The entries of a service API in the order in which they are stored. -/
def entitiesWrites (lists : ∀ k, Entities k) : List (String × Entry) :=
  EntityKind.all.map fun k => (k.key, .ofEntities (lists k))

/-- The lists are stored one after the other. -/
theorem value_putAll_entitiesWrites (lists : ∀ k, Entities k) (m : Model) :
    (m.putAll (entitiesWrites lists)).value =
      (EntityKind.all.foldl (fun m k => (m.put k.key (.ofEntities (lists k))).value) m) := by
  simp only [entitiesWrites, EntityKind.all, List.map_cons, List.map_nil, List.foldl_cons,
    List.foldl_nil, Model.putAll, Logged.value_bind, Logged.value_pure]

/-- The resolver of a service API reads the lists of all kinds and stores them. -/
theorem outcome_serviceApi_eq_ok_iff :
    (serviceApi.run d m).outcome = .ok m' ↔
      ∃ lists : ∀ k, Entities k, (∀ k, readEntities k d = .ok (lists k)) ∧
        m' = (m.putAll (entitiesWrites lists)).value := by
  have hinsert (k : EntityKind) (es : Entities k) (m m' : Model) :
      (m.insert (.entities k) k.key es).outcome = .ok m' ↔
        m' = (m.put k.key (.ofEntities es)).value := by
    constructor
    · intro h
      obtain ⟨j, hj, rfl⟩ := Model.outcome_insert_eq_ok_iff.mp h
      cases hj
      rfl
    · rintro rfl
      exact Model.outcome_insert_eq_ok_iff.mpr ⟨_, rfl, rfl⟩
  simp only [run_serviceApi, Attempt.outcome_bind_eq_ok_iff, Attempt.outcome_ofExcept,
    Attempt.outcome_write_bind, hinsert, exists_eq_left, value_putAll_entitiesWrites,
    EntityKind.all, List.foldl_cons, List.foldl_nil]
  constructor
  · rintro ⟨datasources, h₁, services, h₂, restResources, h₃, dataAccesses, h₄, rfl⟩
    refine ⟨@EntityKind.rec (fun k => Entities k) datasources services restResources dataAccesses,
      ?_, rfl⟩
    intro k
    cases k with
    | datasource => exact h₁
    | service => exact h₂
    | restResource => exact h₃
    | dataAccess => exact h₄
  · rintro ⟨lists, hlists, rfl⟩
    exact ⟨_, hlists .datasource, _, hlists .service, _, hlists .restResource, _,
      hlists .dataAccess, rfl⟩

/-- A service API is resolved when the lists of all kinds are read. -/
theorem serviceApi_succeeds_iff :
    (∃ m', (serviceApi.run d m).outcome = .ok m') ↔ ∀ k, ∃ es, readEntities k d = .ok es := by
  simp only [outcome_serviceApi_eq_ok_iff]
  constructor
  · rintro ⟨m', lists, hlists, -⟩ k
    exact ⟨lists k, hlists k⟩
  · intro h
    obtain ⟨lists, hlists⟩ := Classical.axiomOfChoice h
    exact ⟨_, lists, hlists, rfl⟩

/-- Each list is found under the key of its kind. -/
theorem entry?_entitiesWrites (lists : ∀ k, Entities k) (m : Model) (k : EntityKind) :
    Model.entry? k.key (m.putAll (entitiesWrites lists)).value =
      some (.ofEntities (lists k)) := by
  have hlast : Fields.find? k.key (entitiesWrites lists).reverse =
      some (.ofEntities (lists k)) := by
    cases k <;> simp [entitiesWrites, EntityKind.all, EntityKind.key, Fields.find?]
  rw [Model.entry?_putAll, hlast, Option.some_or]

/-- What a service API read of a kind is found under its key. -/
theorem stored_of_serviceApi (h : (serviceApi.run d m).outcome = .ok m') (k : EntityKind) :
    ∃ es, readEntities k d = .ok es ∧ m'.entities k = es ∧
      m'.value? k.key = some es.toJson := by
  obtain ⟨lists, hlists, rfl⟩ := outcome_serviceApi_eq_ok_iff.mp h
  have hentry := entry?_entitiesWrites lists m k
  exact ⟨lists k, hlists k, Model.entities_of_entry? hentry, Model.value?_of_entry? hentry⟩

end Resolver

end Galley
