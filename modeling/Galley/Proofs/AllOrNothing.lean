import Galley.Proofs.PlainForms

/-!
A service API is stored as a whole or not at all.

The items that are read as entities are told by their attributes (`EntityKind.Accepts`,
`Entity.ofValue_succeeds_iff`), and so are the sections that are read
(`Document.HoldsEntities`, `Resolver.readEntities_succeeds_iff`). All sections are read before
the first list is stored, and a list of entities always has a plain form. So either all four
lists are stored, or the first section that is not read is told and the model is as it was
(`Resolver.serviceApi_all_or_nothing`).
-/

namespace Galley

open Yaml

/-! ### Items that are entities -/

namespace EntityKind

variable {k : EntityKind} {a : String} {v : Yaml.Value} {pairs : Pairs}

/-- What an attribute of an entity may be in a document: the name is a text, a known attribute
null or a text, and any other has a plain form and no tags. -/
def Holds (k : EntityKind) (a : String) (v : Yaml.Value) : Prop :=
  if a = "name" then v.asText?.isSome = true
  else if a ∈ k.attributes then v = .null ∨ v.asText?.isSome = true
  else v.hasTag = false ∧ ∃ j, v.readPlain = .ok j

/-- A mapping is an entity: its keys are texts, its attributes are what they may be, and it has
a name. The name and the known attributes are there once at most. -/
structure AcceptsPairs (k : EntityKind) (pairs : Pairs) : Prop where
  texts : ∀ p ∈ pairs, p.1.asText?.isSome = true
  holds : ∀ f ∈ pairs.fields, k.Holds f.1 f.2
  named : "name" ∈ Fields.keys pairs.fields
  once : ((Fields.keys pairs.fields).filter fun a => a = "name" ∨ a ∈ k.attributes).Nodup

/-- A value of a document is an entity: a mapping that is one, which may be tagged. -/
def Accepts (k : EntityKind) (v : Yaml.Value) : Prop :=
  ∃ pairs, v.untagged = .map pairs ∧ k.AcceptsPairs pairs

/-- An attribute may be what its field in the record takes, and has a plain form when it is not
known. -/
theorem holds_iff : k.Holds a v ↔ k.shape.takes (a, v) = true ∧
    (k.shape.knows a = false → ∃ j, v.readPlain = .ok j) := by
  have hoptionals : k.shape.optionals = k.attributes := rfl
  rw [Holds]
  cases hknows : k.shape.knows a with
  | true =>
      rw [Shape.takes_value_of_knows hknows, hoptionals]
      rcases knows_shape_iff.mp hknows with rfl | hattribute
      · simp [k.name_notMem_attributes]
      · have hname : a ≠ "name" := fun h => k.name_notMem_attributes (h ▸ hattribute)
        simp [hname, hattribute, or_comm]
  | false =>
      have hnot : ¬ (a = "name" ∨ a ∈ k.attributes) := by
        rw [← knows_shape_iff, hknows]
        exact Bool.false_ne_true
      obtain ⟨hname, hattribute⟩ := not_or.mp hnot
      rw [Shape.takes_value_of_not_knows hknows]
      simp [hname, hattribute]

theorem acceptsPairs_iff : k.AcceptsPairs pairs ↔ k.shape.Accepts pairs ∧
    "name" ∈ Fields.keys pairs.fields ∧
    ∀ f ∈ pairs.fields, k.shape.knows f.1 = false → ∃ j, f.2.readPlain = .ok j := by
  have hknown : (fun a => decide (a = "name" ∨ a ∈ k.attributes)) = k.shape.knows := by
    funext a
    rw [Bool.eq_iff_iff, decide_eq_true_iff, knows_shape_iff]
  constructor
  · rintro ⟨htexts, hholds, hnamed, honce⟩
    have hfields := fun f hf => holds_iff.mp (hholds f hf)
    exact ⟨⟨htexts, ⟨fun f hf => (hfields f hf).1, hknown ▸ honce⟩⟩, hnamed,
      fun f hf => (hfields f hf).2⟩
  · rintro ⟨h, hnamed, hplain⟩
    exact ⟨h.texts, fun f hf => holds_iff.mpr ⟨h.fits.takes f hf, hplain f hf⟩, hnamed,
      hknown ▸ h.fits.once⟩

end EntityKind

namespace Entity

variable {k : EntityKind} {fields : List (String × Yaml.Value)}

theorem readExtra_succeeds_iff : (∃ extra, readExtra (k.shape.readOf fields).others = .ok extra) ↔
    ∀ f ∈ fields, k.shape.knows f.1 = false → ∃ j, f.2.readPlain = .ok j := by
  simp only [readExtra_eq_ok_iff]
  rw [exists_forall₂_iff]
  simp [Shape.readOf]

theorem required_name_succeeds_iff (h : ∀ f ∈ fields, k.shape.takes f = true) :
    (∃ name, (k.shape.readOf fields).required "name" = .ok name) ↔
      "name" ∈ Fields.keys fields := by
  have hknows : k.shape.knows "name" = true := EntityKind.knows_shape_iff.mpr (.inl rfl)
  have hoptionals : k.shape.optionals = k.attributes := rfl
  simp only [RecordRead.required_eq_ok_iff, Shape.text?_readOf hknows]
  rw [← Fields.contains_iff, Fields.contains]
  cases hfound : Fields.find? "name" fields with
  | none => simp
  | some v =>
      have htakes := (Shape.takes_value_of_knows hknows).mp (h _ (Fields.mem_of_find? hfound))
      have htext : v.asText?.isSome = true := by
        simpa [hoptionals, k.name_notMem_attributes] using htakes
      simpa [Value.fieldText?_eq] using Option.isSome_iff_exists.mp htext

/-- The items that are read as entities of a kind are those that are such entities. -/
theorem ofValue_succeeds_iff {v : Yaml.Value} : (∃ e, ofValue k v = .ok e) ↔ k.Accepts v := by
  simp only [ofValue_eq_ok_iff]
  constructor
  · rintro ⟨e, r, name, extra, hread, hrequired, hothers, -⟩
    rw [Shape.read] at hread
    split at hread
    · rename_i pairs hpairs
      obtain ⟨haccepts, rfl⟩ := (Shape.foldlM_readPair_eq_ok_iff rfl).mp hread
      exact ⟨pairs, hpairs, EntityKind.acceptsPairs_iff.mpr ⟨haccepts,
        (required_name_succeeds_iff haccepts.fits.takes).mp ⟨name, hrequired⟩,
        readExtra_succeeds_iff.mp ⟨extra, hothers⟩⟩⟩
    · cases hread
      cases hrequired
    · cases hread
  · rintro ⟨pairs, hpairs, h⟩
    obtain ⟨haccepts, hnamed, hplain⟩ := EntityKind.acceptsPairs_iff.mp h
    obtain ⟨name, hrequired⟩ := (required_name_succeeds_iff haccepts.fits.takes).mpr hnamed
    obtain ⟨extra, hothers⟩ := readExtra_succeeds_iff.mpr hplain
    refine ⟨_, _, name, extra, ?_, hrequired, hothers, rfl⟩
    rw [Shape.read, hpairs]
    exact (Shape.foldlM_readPair_eq_ok_iff rfl).mpr ⟨haccepts, rfl⟩

end Entity

/-! ### Sections that are read -/

/-- The section of a kind holds entities: it is absent or null, or a sequence of entities. -/
def Document.HoldsEntities (k : EntityKind) (d : Document) : Prop :=
  ∀ v, d.find? k.key = some v → v = .null ∨ ∃ items, v = .seq items ∧ ∀ u ∈ items, k.Accepts u

/-- Either all items of a list have a property, or there is a first one that has not. -/
theorem forall_or_exists_first {α : Type} [DecidableEq α] (P : α → Prop) (xs : List α) :
    (∀ x ∈ xs, P x) ∨ ∃ x ∈ xs, (∀ y ∈ xs.takeWhile (· ≠ x), P y) ∧ ¬ P x := by
  induction xs with
  | nil => exact .inl (by simp)
  | cons a xs ih =>
      by_cases ha : P a
      · rcases ih with hall | ⟨x, hx, hbefore, hnot⟩
        · exact .inl (List.forall_mem_cons.mpr ⟨ha, hall⟩)
        · refine .inr ⟨x, List.mem_cons_of_mem a hx, ?_, hnot⟩
          have hne : a ≠ x := fun h => hnot (h ▸ ha)
          rw [List.takeWhile_cons_of_pos (by simpa using hne)]
          exact List.forall_mem_cons.mpr ⟨ha, hbefore⟩
      · exact .inr ⟨a, List.mem_cons_self, by simp, ha⟩

section

variable [CallerTypes]

/-- A sequence is read when there is none, or when each of its items is. -/
theorem readSequence_succeeds_iff {k : Kind} {d : Document} {key resolver : String} :
    (∃ xs, readSequence k d key resolver = .ok xs) ↔ ∀ v, d.find? key = some v →
      v = .null ∨ ∃ items, v = .seq items ∧ ∀ u ∈ items, ∃ x, k.read u = .ok x := by
  simp only [readSequence_eq_ok_iff, exists_and_left]
  rw [exists_forall₂_iff]
  cases hfound : d.find? key with
  | none => simp
  | some v =>
      simp only [Option.some.injEq, forall_eq', Option.elim_some, Value.NullOrSeq]
      constructor
      · rintro ⟨rfl | ⟨items, rfl⟩, hitems⟩
        · exact .inl rfl
        · exact .inr ⟨items, rfl, hitems⟩
      · rintro (rfl | ⟨items, rfl, hitems⟩)
        · exact ⟨.inl rfl, by simp [Value.items]⟩
        · exact ⟨.inr ⟨items, rfl⟩, hitems⟩

namespace Resolver

variable {k : EntityKind} {d : Document} {m : Model} {lists : ∀ k, Entities k}

/-- The sections that are read are those that hold entities. -/
theorem readEntities_succeeds_iff : (∃ es, readEntities k d = .ok es) ↔ d.HoldsEntities k := by
  refine (readSequence_succeeds_iff (k := .entity k)).trans ?_
  have hread (u : Yaml.Value) : (∃ e, (Kind.entity k).read u = .ok e) ↔ k.Accepts u :=
    Entity.ofValue_succeeds_iff
  simp only [hread]
  rfl

/-- A section that is not read is told with its key. -/
theorem eq_of_readEntities_error {f : ModelFault} (h : readEntities k d = .error f) :
    ∃ cause, f = .unresolved "service-api" k.key cause := by
  obtain ⟨cause, -, rfl⟩ := mapError_eq_error_iff.mp h
  exact ⟨cause, rfl⟩

/-! ### The resolver -/

theorem store_entities (key : String) (es : Entities k) :
    Model.store (.entities k) key es = Change.replace (Model.put key (.ofEntities es)) :=
  Model.store_of_plain rfl

/-- When all sections are read, all lists are stored. -/
theorem storeServiceApi_of_read (h : ∀ k, readEntities k d = .ok (lists k)) (m : Model) :
    (storeServiceApi d).outcome m = .ok () ∧
      (storeServiceApi d).left m = (m.putAll (entitiesWrites lists)).value := by
  simp [storeServiceApi, h, store_entities, value_putAll_entitiesWrites, EntityKind.all]

/-- Each list is found under its key, and under every other key what was there before. -/
theorem left_storeServiceApi (h : ∀ k, readEntities k d = .ok (lists k)) (m : Model) :
    (∀ k, ((storeServiceApi d).left m).get? (.entities k) k.key = some (lists k) ∧
      ((storeServiceApi d).left m).value? k.key = some (.list ((lists k).map Entity.toJson))) ∧
    ∀ key, (∀ k : EntityKind, k.key ≠ key) →
      Model.entry? key ((storeServiceApi d).left m) = m.entry? key := by
  rw [(storeServiceApi_of_read h m).2]
  constructor
  · intro k
    have hentry := entry?_entitiesWrites lists m k
    exact ⟨Model.get?_of_entry? hentry, Model.value?_of_entry? hentry⟩
  · intro key hkey
    have hnew : key ∉ Fields.keys (entitiesWrites lists) := by
      simp [entitiesWrites, EntityKind.all, Fields.keys, fun k => (hkey k).symm]
    rw [Model.entry?_putAll, Fields.find?_reverse_eq_none_iff.mpr hnew, Option.none_or]

/-- When the sections before one are read and this one is not, its fault is told. -/
theorem storeServiceApi_of_fault {f : ModelFault}
    (hbefore : ∀ k' ∈ EntityKind.all.takeWhile (· ≠ k), ∃ es, readEntities k' d = .ok es)
    (h : readEntities k d = .error f) : storeServiceApi d = Change.ofExcept (.error f) := by
  cases k with
  | datasource => simp [storeServiceApi, h]
  | service =>
      obtain ⟨es, hes⟩ := hbefore .datasource (by decide)
      simp [storeServiceApi, h, hes]
  | restResource =>
      obtain ⟨es, hes⟩ := hbefore .datasource (by decide)
      obtain ⟨es', hes'⟩ := hbefore .service (by decide)
      simp [storeServiceApi, h, hes, hes']
  | dataAccess =>
      obtain ⟨es, hes⟩ := hbefore .datasource (by decide)
      obtain ⟨es', hes'⟩ := hbefore .service (by decide)
      obtain ⟨es'', hes''⟩ := hbefore .restResource (by decide)
      simp [storeServiceApi, h, hes, hes', hes'']

/-- A service API is stored as a whole or not at all. Either every section is absent, null or a
sequence of entities; then the resolver succeeds, and the model holds for each kind, under its
key, the list of its entities and the list of their plain forms, in the order of the section,
and under every other key what it held before. Or the model is left as it was, and the fault
tells the first kind, in the fixed order, whose section is anything else. What fails is never
the storing: a list of entities is stored in every model. -/
theorem serviceApi_all_or_nothing (d : Document) (m : Model) :
    (((∀ k, d.HoldsEntities k) ∧ (storeServiceApi d).outcome m = .ok () ∧
        (serviceApi.run d m).outcome = .ok ((storeServiceApi d).left m) ∧
        (∀ k, ∃ es : Entities k,
          List.Forall₂ (fun v e => Entity.ofValue k v = .ok e)
            ((d.find? k.key).elim [] Value.items) es ∧
          ((storeServiceApi d).left m).get? (.entities k) k.key = some es ∧
          ((storeServiceApi d).left m).value? k.key = some (.list (es.map Entity.toJson))) ∧
        ∀ key, (∀ k : EntityKind, k.key ≠ key) →
          Model.entry? key ((storeServiceApi d).left m) = m.entry? key) ∨
      ∃ k cause, (∀ k' ∈ EntityKind.all.takeWhile (· ≠ k), d.HoldsEntities k') ∧
        ¬ d.HoldsEntities k ∧
        (storeServiceApi d).outcome m = .error (.unresolved "service-api" k.key cause) ∧
        (serviceApi.run d m).outcome = .error (.unresolved "service-api" k.key cause) ∧
        (storeServiceApi d).left m = m) ∧
    ∀ (k : EntityKind) (key : String) (es : Entities k) (n : Model),
      (Model.store (.entities k) key es).outcome n = .ok () := by
  refine ⟨?_, fun k key es n => by rw [store_entities]; rfl⟩
  rcases forall_or_exists_first (fun k => d.HoldsEntities k) EntityKind.all with
    hall | ⟨k, -, hbefore, hnot⟩
  · left
    have hholds : ∀ k, d.HoldsEntities k := fun k => hall k (by cases k <;> decide)
    obtain ⟨lists, hlists⟩ :=
      Classical.axiomOfChoice fun k => readEntities_succeeds_iff.mpr (hholds k)
    obtain ⟨hok, hleft⟩ := storeServiceApi_of_read hlists m
    have hrun : (serviceApi.run d m).outcome = .ok ((storeServiceApi d).left m) :=
      outcome_serviceApi_eq_ok_iff.mpr ⟨lists, hlists, hleft⟩
    obtain ⟨hfound, hothers⟩ := left_storeServiceApi hlists m
    exact ⟨hholds, hok, hrun, fun k => ⟨lists k, (readSequence_eq_ok_iff.mp (hlists k)).2,
      hfound k⟩, hothers⟩
  · right
    cases hk : readEntities k d with
    | ok es => exact absurd (readEntities_succeeds_iff.mp ⟨es, hk⟩) hnot
    | error f =>
        obtain ⟨cause, rfl⟩ := eq_of_readEntities_error hk
        have hfault := storeServiceApi_of_fault
          (fun k' hk' => readEntities_succeeds_iff.mpr (hbefore k' hk')) hk
        have hrun : (serviceApi.run d m).outcome = ((storeServiceApi d).outcome m).map
            fun _ => (storeServiceApi d).left m := Change.outcome_attempt _ m
        rw [hrun, hfault]
        exact ⟨k, cause, hbefore, hnot, rfl, rfl, rfl⟩

end Resolver

end

/-- The services are told, which come before the data accesses, and nothing is stored. -/
example :
    let d : Document := ⟨[(.text "data_accesses", .text "x"), (.text "services", .map []),
      (.text "datasources", .seq [.map [(.text "name", .text "main")]])]⟩
    (Resolver.storeServiceApi d).outcome .empty =
        .error (.unresolved "service-api" "services" (.notSequence "mapping")) ∧
      (Resolver.storeServiceApi d).left .empty = .empty :=
  ⟨rfl, rfl⟩

end Galley
