import Galley.Proofs.EntityForms
import Galley.Proofs.StoredLists

/-!
Plain forms of entities that are declared.

A record that is read keeps what the mapping holds: the known fields and the others are those
of the plain form of the mapping (`RecordRead.Shows`, `RecordRead.shows_readOf`). Hence an
entity that is read is well formed (`Entity.wellFormed_of_ofValue`) and is written out as its
item is, but for the known attributes that are null (`Entity.toJson_of_plain`), and so are the
lists of a service API (`Resolver.typed_section_as_declared`).
-/

namespace Galley

open Yaml

namespace Json

/-- A text, or null for none. -/
def ofText? : Option String → Json
  | some s => .text s
  | none => .null

end Json

/-! ### Values that are read -/

namespace Yaml.Value

variable {v : Value} {s : String} {j : Json}

/-- A value with a plain form has no tag around it. -/
theorem untagged_of_readPlain (h : v.readPlain = .ok j) : v.untagged = v := by
  cases v with
  | tagged tag v => cases h
  | _ => rfl

/-- The plain form of a text or of null. -/
theorem readPlain_eq_ofText? (h : v.asText?.isSome = true ∨ v = .null)
    (hplain : v.readPlain = .ok j) : j = Json.ofText? v.asText? := by
  rcases h with htext | rfl
  · obtain ⟨s, hs⟩ := Option.isSome_iff_exists.mp htext
    have huntagged := untagged_eq_text_iff.mpr hs
    rw [untagged_of_readPlain hplain] at huntagged
    subst huntagged
    cases hplain
    rfl
  · cases hplain
    rfl

theorem readPlain_map_eq_ok_iff {pairs : Pairs} :
    (Value.map pairs).readPlain = .ok j ↔
      ∃ fields, readPlainPairs "a string key" pairs = .ok fields ∧ j = .ofPairs fields := by
  rw [readPlain, bind_eq_ok_iff]
  constructor
  · rintro ⟨fields, hfields, heq⟩
    exact ⟨fields, hfields, (Except.ok.inj heq).symm⟩
  · rintro ⟨fields, hfields, rfl⟩
    exact ⟨fields, hfields, rfl⟩

theorem readPlainPairs_cons_eq_ok_iff {expected : String} {k : Value} {rest : Pairs}
    {fields : List (String × Json)} :
    readPlainPairs expected ((k, v) :: rest) = .ok fields ↔
      ∃ key j more, k.readText expected = .ok key ∧ v.readPlain = .ok j ∧
        readPlainPairs "a string" rest = .ok more ∧ fields = (key, j) :: more := by
  rw [readPlainPairs]
  simp only [bind_eq_ok_iff]
  constructor
  · rintro ⟨key, hkey, j, hj, more, hmore, heq⟩
    exact ⟨key, j, more, hkey, hj, hmore, (Except.ok.inj heq).symm⟩
  · rintro ⟨key, j, more, hkey, hj, hmore, rfl⟩
    exact ⟨key, hkey, j, hj, more, hmore, rfl⟩

/-- The fields of a mapping with a plain form, each with its own. -/
theorem fields_of_readPlainPairs {expected : String} {pairs : Pairs}
    {fields : List (String × Json)} (h : readPlainPairs expected pairs = .ok fields) :
    List.Forall₂ (fun p f => p.1 = f.1 ∧ p.2.readPlain = .ok f.2) pairs.fields fields := by
  induction pairs generalizing expected fields with
  | nil =>
      cases h
      exact .nil
  | cons pair pairs ih =>
      obtain ⟨k, v⟩ := pair
      obtain ⟨key, j, more, hkey, hj, hmore, rfl⟩ := readPlainPairs_cons_eq_ok_iff.mp h
      have htext := untagged_eq_text_iff.mp (readText_eq_ok_iff.mp hkey)
      rw [Pairs.fields_cons htext]
      exact .cons ⟨rfl, hj⟩ (ih hmore)

end Yaml.Value

/-! ### Records -/

namespace RecordRead

/-- A record holds the fields of a mapping in its plain form: those that the shape knows once
each, as texts or null, and all others as they are. -/
structure Shows (s : Shape) (fields : List (String × Json)) (r : RecordRead Yaml.Value) : Prop where
  distinct : (Fields.keys r.known).Nodup
  known : (fields.filter fun f => s.knows f.1) = r.known.map fun f => (f.1, .ofText? f.2)
  others : List.Forall₂ (fun p f => p.1 = f.1 ∧ p.2.readPlain = .ok f.2) r.others
    (fields.filter fun f => !s.knows f.1)

variable {s : Shape} {fields : List (String × Json)} {r : RecordRead Yaml.Value}

/-- The record of a mapping holds its fields. -/
theorem shows_readOf {pairs : Pairs} {expected : String} (h : s.Accepts pairs)
    (hplain : Value.readPlainPairs expected pairs = .ok fields) :
    (s.readOf pairs.fields).Shows s fields := by
  have hfields : List.Forall₂ (fun p f => s.takes p = true ∧ p.1 = f.1 ∧ p.2.readPlain = .ok f.2)
      pairs.fields fields :=
    (List.forall₂_and_left _ _).mpr ⟨h.fits.takes, Value.fields_of_readPlainPairs hplain⟩
  have hpart (q : String → Bool) : List.Forall₂ (fun p f => q p.1 = true ∧ s.takes p = true ∧
      p.1 = f.1 ∧ p.2.readPlain = .ok f.2)
      (pairs.fields.filter fun p => q p.1) (fields.filter fun f => q f.1) := by
    refine (List.forall₂_and_left _ _).mpr ⟨fun p hp => (List.mem_filter.mp hp).2, ?_⟩
    refine List.rel_filter (fun p f hf => ?_) hfields
    show q p.1 = true ↔ q f.1 = true
    rw [hf.2.1]
  constructor
  · rw [Shape.keys_known_readOf]
    exact h.fits.once
  · rw [Shape.readOf, List.map_map]
    refine (List.forall₂_eq_eq_eq ▸ List.forall₂_map_left_iff.mpr ((hpart s.knows).imp ?_)).symm
    rintro ⟨a, v⟩ ⟨b, j⟩ ⟨hknows, htakes, hkey, hj⟩
    have htext : v.asText?.isSome = true ∨ v = .null :=
      ((Shape.takes_value_of_knows hknows).mp htakes).imp_right And.right
    rw [Function.comp_apply, Value.fieldText?_eq]
    exact Prod.ext hkey (Value.readPlain_eq_ofText? htext hj).symm
  · exact (hpart fun a => !s.knows a).imp fun _ _ hf => hf.2.2

theorem find?_of_required {field name : String} (h : r.required field = .ok name) :
    Fields.find? field r.known = some (some name) := by
  rw [required_eq_ok_iff, text?] at h
  exact Option.join_eq_some_iff.mp h

end RecordRead

namespace Shape

/-- A record with a required field that is read of a value with a plain form: the value is a
mapping, and the record holds its fields. -/
theorem shows_of_read {s : Shape} {v : Yaml.Value} {r : RecordRead Yaml.Value} {j : Json}
    {field name : String} (hkeeps : s.keepsOthers = true) (hread : s.read v = .ok r)
    (hname : r.required field = .ok name) (hplain : v.readPlain = .ok j) :
    ∃ fields, j = .ofPairs fields ∧ r.Shows s fields := by
  rw [read, Value.untagged_of_readPlain hplain] at hread
  cases v with
  | map pairs =>
      obtain ⟨fields, hfields, rfl⟩ := Value.readPlain_map_eq_ok_iff.mp hplain
      obtain ⟨haccepts, rfl⟩ := (foldlM_readPair_eq_ok_iff hkeeps).mp hread
      exact ⟨fields, rfl, RecordRead.shows_readOf haccepts hfields⟩
  | null =>
      cases hread
      cases hname
  | _ => cases hread

end Shape

/-! ### Entities -/

namespace Entity

variable {k : EntityKind}

theorem readExtra_eq_ok_iff {others : List (String × Yaml.Value)}
    {fields : List (String × Json)} :
    readExtra others = .ok fields ↔
      List.Forall₂ (fun p f => p.1 = f.1 ∧ p.2.readPlain = .ok f.2) others fields := by
  induction others generalizing fields with
  | nil => simp [readExtra, eq_comm]
  | cons p others ih =>
      obtain ⟨a, v⟩ := p
      rw [readExtra]
      simp only [bind_eq_ok_iff, ih, List.forall₂_cons_left_iff]
      constructor
      · rintro ⟨j, hj, more, hmore, heq⟩
        exact ⟨(a, j), more, ⟨rfl, hj⟩, hmore, (Except.ok.inj heq).symm⟩
      · rintro ⟨⟨a', j⟩, more, ⟨ha, hj⟩, hmore, rfl⟩
        cases ha
        exact ⟨j, hj, more, hmore, rfl⟩

theorem ofValue_eq_ok_iff {v : Yaml.Value} {e : Entity k} :
    ofValue k v = .ok e ↔ ∃ r name extra, k.shape.read v = .ok r ∧
      r.required "name" = .ok name ∧ readExtra r.others = .ok extra ∧
      e = ⟨name, knownOf k r.text?, Fields.ofPairs extra⟩ := by
  rw [ofValue]
  simp only [bind_eq_ok_iff]
  constructor
  · rintro ⟨r, hr, name, hname, extra, hextra, heq⟩
    exact ⟨r, name, extra, hr, hname, hextra, (Except.ok.inj heq).symm⟩
  · rintro ⟨r, name, extra, hr, hname, hextra, rfl⟩
    exact ⟨r, hr, name, hname, extra, hextra, rfl⟩

/-- An entity that was read of a document is well formed. -/
theorem wellFormed_of_ofValue {v : Yaml.Value} {e : Entity k} (h : ofValue k v = .ok e) :
    e.WellFormed := by
  obtain ⟨r, name, extra, hread, hname, hextra, rfl⟩ := ofValue_eq_ok_iff.mp h
  refine wellFormed_of_knownOf Fields.sorted_ofPairs fun a hknows => ?_
  have hkeys : Fields.keys extra = Fields.keys r.others := by
    have hforall := (readExtra_eq_ok_iff.mp hextra).imp fun _ _ hf => hf.1
    exact (List.forall₂_eq_eq_eq ▸ List.forall₂_map_left_iff.mpr
      (List.forall₂_map_right_iff.mpr hforall)).symm
  rw [Fields.find?_ofPairs, Fields.find?_reverse_eq_none_iff, hkeys, ← Fields.find?_eq_none_iff]
  rw [Shape.read] at hread
  split at hread
  · obtain ⟨-, rfl⟩ := (Shape.foldlM_readPair_eq_ok_iff rfl).mp hread
    rw [Shape.readOf, Fields.find?_filter_keys fun key => !k.shape.knows key, hknows]
    rfl
  · cases hread
    rfl
  · cases hread

/-- A known field that a record shows is found in its mapping as it was read. -/
theorem find?_of_shows {r : RecordRead Yaml.Value} {fields : List (String × Json)}
    (h : r.Shows k.shape fields) {a : String} (hknows : k.shape.knows a = true) :
    Fields.find? a fields.reverse = (Fields.find? a r.known).map Json.ofText? := by
  have hkeys : (Fields.keys (r.known.map fun f => (f.1, Json.ofText? f.2))).Nodup := by
    simpa [Fields.keys, Function.comp_def] using h.distinct
  calc Fields.find? a fields.reverse
      = Fields.find? a (fields.reverse.filter fun f => k.shape.knows f.1) := by
        rw [Fields.find?_filter_keys k.shape.knows, if_pos hknows]
    _ = Fields.find? a (r.known.map fun f => (f.1, Json.ofText? f.2)) := by
        rw [List.filter_reverse, h.known, Fields.find?_reverse hkeys]
    _ = (Fields.find? a r.known).map Json.ofText? := Fields.find?_map _

/-- An entity is written out as its item is, but for the known attributes that are null. -/
theorem toJson_of_plain {v : Yaml.Value} {e : Entity k} {j : Json} (h : ofValue k v = .ok e)
    (hplain : v.readPlain = .ok j) : e.toJson = j.withoutNulls k.attributes := by
  have hform := wellFormed_of_ofValue h
  obtain ⟨r, name, extra, hread, hname, hextra, rfl⟩ := ofValue_eq_ok_iff.mp h
  obtain ⟨fields, rfl, hshows⟩ := Shape.shows_of_read rfl hread hname hplain
  obtain rfl : fields.filter (fun f => !k.shape.knows f.1) = extra :=
    Except.ok.inj ((readExtra_eq_ok_iff.mpr hshows.others).symm.trans hextra)
  have hread {a : String} (ha : a = "name" ∨ a ∈ k.attributes) :
      Fields.find? a (Fields.ofPairs fields) = (Fields.find? a r.known).map Json.ofText? :=
    Fields.find?_ofPairs.trans (find?_of_shows hshows (EntityKind.knows_shape_iff.mpr ha))
  refine hform.toJson_eq_withoutNulls Fields.sorted_ofPairs ?_ ?_ ?_
  · rw [hread (.inl rfl), RecordRead.find?_of_required hname]
    rfl
  · intro a ha
    rw [hread (.inr ha), attribute?, find?_knownOf, if_pos ha, RecordRead.text?]
    rcases Fields.find? a r.known with _ | _ | text
    · rfl
    · rfl
    · rfl
  · intro a hknows
    rw [Fields.find?_ofPairs, Fields.find?_ofPairs, ← List.filter_reverse,
      Fields.find?_filter_keys fun key => !k.shape.knows key, hknows]
    rfl

end Entity

/-- Items that are read as entities and as plain values are one list, but for the known
attributes that are null. -/
theorem Entities.toJson_of_plain {k : EntityKind} {values : List Yaml.Value} {es : Entities k}
    {items : List Json} (h : List.Forall₂ (fun v e => Entity.ofValue k v = .ok e) values es)
    (hplain : List.Forall₂ (fun v j => v.readPlain = .ok j) values items) :
    es.toJson = .list (items.map (Json.withoutNulls k.attributes)) := by
  have hitems : es.map Entity.toJson = items.map (Json.withoutNulls k.attributes) := by
    induction h generalizing items with
    | nil =>
        cases hplain
        rfl
    | cons hv _ ih =>
        cases hplain with
        | cons hj hplain =>
            rw [List.map_cons, List.map_cons, Entity.toJson_of_plain hv hj, ih hplain]
  rw [Entities.toJson, hitems]

section

variable [CallerTypes]

/-- A plain list is written out as it is. -/
theorem Kind.toJson_list_json (items : List Json) :
    (Kind.list .json).toJson items = .ok (.list items) := by
  have hitems : items.mapM Kind.json.toJson = .ok items :=
    mapM_eq_ok_iff.mpr (List.forall₂_same.mpr fun _ _ => rfl)
  exact bind_eq_ok_iff.mpr ⟨items, hitems, rfl⟩

namespace Resolver

/-- A service API and a collection of plain values store the same of each section on which both
succeed: the plain form of an entity is that of its item without the known attributes that are
null, and with all else as it is. -/
theorem typed_section_as_declared (d : Document) (k : EntityKind) (modelKey : Option String)
    (m n m' n' : Model) (h : (serviceApi.run d m).outcome = .ok m')
    (hplain : ((collection k.key .json modelKey).run d n).outcome = .ok n') :
    ∃ items, n'.value? (modelKey.getD k.key) = some (.list items) ∧
      m'.value? k.key = some (.list (items.map (Json.withoutNulls k.attributes))) := by
  obtain ⟨es, hes, -, hvalue⟩ := stored_of_serviceApi h k
  obtain ⟨(items : List Json), j, hitems, hj, -, hstored⟩ := stored_of_collection hplain
  obtain ⟨-, htyped⟩ := readSequence_eq_ok_iff.mp hes
  obtain ⟨-, huntyped⟩ := readSequence_eq_ok_iff.mp hitems
  rw [Kind.toJson_list_json] at hj
  cases hj
  exact ⟨items, hstored, hvalue.trans (congrArg some (Entities.toJson_of_plain htyped huntyped))⟩

end Resolver

end

namespace Resolver

/-- A datasource whose type is null, and so are an attribute that is not known and one inside
another. -/
theorem typed_section_as_declared_null_attributes :
    let options : Yaml.Value :=
      .map [(.text "size", .null), (.text "hosts", .seq [.text "a", .null])]
    let d : Document := ⟨[(.text "datasources", .seq [.map [(.text "type", .null),
      (.text "name", .text "main"), (.text "options", options), (.text "kind", .null)]])]⟩
    ∃ m n, (serviceApi.run d .empty).outcome = .ok m ∧
      ((collection "datasources" .json).run d .empty).outcome = .ok n ∧
      ∃ items, n.value? "datasources" = some (.list items) ∧
        m.value? "datasources" =
          some (.list (items.map (Json.withoutNulls ["type", "description"]))) := by
  intro options d
  have hm : (serviceApi.run d .empty).outcome = .ok _ := rfl
  have hn : ((collection "datasources" .json).run d .empty).outcome = .ok _ := rfl
  exact ⟨_, _, hm, hn, typed_section_as_declared d .datasource none _ _ _ _ hm hn⟩

end Resolver

end Galley
