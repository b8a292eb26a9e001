import Galley.Proofs.AllOrNothing

/-!
Entities as plain values.

A plain value is an entity of a kind when it is an object whose name is a text and whose known
attributes are texts, or null, where they are present (`EntityKind.AcceptsPlain`); this is what
its reading field by field comes to (`Entity.ofJson?_object_eq_some_iff`). An entity that was
read is well formed (`Entity.wellFormed_of_ofJson?`, `Entity.wellFormed_of_ofValue`).
Hence a plain value is written as it was read but for the known attributes that are null
(`Entity.toJson_of_ofJson?`), and what was written is read again
(`Entity.WellFormed.ofJson?_toJson`). All of it together, and item by item for lists, is
`Entity.plain_codec`.
-/

namespace Galley

namespace Json

theorem sortedItems_iff {items : List Json} : SortedItems items ↔ ∀ v ∈ items, v.Sorted := by
  induction items with
  | nil => simp [SortedItems]
  | cons v items ih => rw [SortedItems, ih, List.forall_mem_cons]

end Json

/-! ### Plain values that are entities -/

/-- A plain value is an entity of a kind: an object whose name is a text, and in which each known
attribute is absent, null or a text. -/
def EntityKind.AcceptsPlain (k : EntityKind) (v : Json) : Prop :=
  ∃ fields, v = .object fields ∧ (∃ s, Fields.find? "name" fields = some (.text s)) ∧
    ∀ a ∈ k.attributes, ∀ j, Fields.find? a fields = some j → j = .null ∨ ∃ s, j = .text s

theorem Json.fieldText?_eq (v : Json) : FieldValue.text? v = v.asText? := by
  cases v <;> rfl

theorem Json.asText?_eq_some_iff {v : Json} {s : String} : v.asText? = some s ↔ v = .text s := by
  cases v <;> simp [Json.asText?]

namespace EntityKind

variable {k : EntityKind} {a : String} {j : Json} {fields : List (String × Json)}

theorem takes_plain_iff : k.shape.takes (a, j) = true ↔
    (a = "name" → ∃ s, j = .text s) ∧ (a ∈ k.attributes → j = .null ∨ ∃ s, j = .text s) := by
  have hoptionals : k.shape.optionals = k.attributes := rfl
  have htext : (FieldValue.text? j).isSome = true ↔ ∃ s, j = .text s := by
    simp only [Option.isSome_iff_exists, Json.fieldText?_eq, Json.asText?_eq_some_iff]
  have hnull : FieldValue.isNull j = true ↔ j = .null := by
    cases j <;> simp [FieldValue.isNull, Json.isNull]
  cases hknows : k.shape.knows a with
  | true =>
      rw [Shape.takes_of_knows hknows, htext, hnull, hoptionals]
      rcases knows_shape_iff.mp hknows with rfl | hattribute
      · simp [k.name_notMem_attributes]
      · have hname : a ≠ "name" := fun h => k.name_notMem_attributes (h ▸ hattribute)
        simp [hname, hattribute, or_comm]
  | false =>
      obtain ⟨hname, hattribute⟩ := not_or.mp (mt knows_shape_iff.mpr (Bool.eq_false_iff.mp hknows))
      simp [Shape.takes, hknows, hname, hattribute, FieldValue.refusal?]

/-- Sorted fields make an entity's record when the name and the known attributes are what they
may be. -/
theorem fits_plain_iff (hsorted : Fields.Sorted fields) : k.shape.Fits fields ↔
    (∀ j, Fields.find? "name" fields = some j → ∃ s, j = .text s) ∧
    ∀ a ∈ k.attributes, ∀ j, Fields.find? a fields = some j → j = .null ∨ ∃ s, j = .text s := by
  have hnodup := Fields.nodup_keys hsorted
  simp only [Fields.find?_eq_some_iff_mem hnodup]
  constructor
  · intro h
    have htakes := fun a j hmem => takes_plain_iff.mp (h.takes (a, j) hmem)
    exact ⟨fun j hj => (htakes _ j hj).1 rfl, fun a ha j hj => (htakes a j hj).2 ha⟩
  · rintro ⟨hname, hattributes⟩
    refine ⟨?_, hnodup.filter _⟩
    rintro ⟨a, j⟩ hmem
    refine takes_plain_iff.mpr ⟨?_, fun ha => hattributes a ha j hmem⟩
    rintro rfl
    exact hname j hmem

end EntityKind

namespace Entity

variable {k : EntityKind} {e : Entity k} {v : Json} {fields : List (String × Json)}

theorem exists_object_of_ofJson? (h : ofJson? k v = some e) : ∃ fields, v = .object fields := by
  cases v with
  | object fields => exact ⟨fields, rfl⟩
  | _ => cases h

theorem readPlain_eq_ok_iff : readPlain k v = .ok e ↔ ofJson? k v = some e := by
  rw [ofJson?]
  cases readPlain k v <;> simp [Except.toOption]

/-- An object is read field by field. What is read has its name, its known attributes and all
others. -/
theorem ofJson?_object_eq_some_iff (hsorted : Fields.Sorted fields) :
    ofJson? k (.object fields) = some e ↔ k.shape.Fits fields ∧
      Fields.find? "name" fields = some (.text e.name) ∧
      e.known = knownOf k (fun a => (Fields.find? a fields).bind Json.asText?) ∧
      e.extra = fields.filter fun f => !k.shape.knows f.1 := by
  have htext {a : String} (h : k.shape.knows a = true) :
      (k.shape.readOf fields).text? a = (Fields.find? a fields).bind Json.asText? := by
    rw [Shape.text?_readOf h]
    exact congrArg _ (funext Json.fieldText?_eq)
  have hname (s : String) : (k.shape.readOf fields).required "name" = .ok s ↔
      Fields.find? "name" fields = some (.text s) := by
    rw [RecordRead.required_eq_ok_iff, htext (EntityKind.knows_shape_iff.mpr (.inl rfl))]
    simp only [Option.bind_eq_some_iff, Json.asText?_eq_some_iff, exists_eq_right]
  have hknown : knownOf k (k.shape.readOf fields).text? =
      knownOf k (fun a => (Fields.find? a fields).bind Json.asText?) :=
    knownOf_congr fun a ha => htext (EntityKind.knows_shape_iff.mpr (.inr ha))
  -- The other fields come sorted out of a sorted object, so collecting them moves none.
  have hothers : Fields.ofPairs (k.shape.readOf fields).others =
      fields.filter fun f => !k.shape.knows f.1 :=
    Fields.ofPairs_of_sorted (Fields.sorted_filter hsorted _)
  rw [← readPlain_eq_ok_iff, readPlain, Shape.readObject]
  simp only [bind_eq_ok_iff, Shape.foldlM_readField_eq_ok_iff (s := k.shape) rfl]
  constructor
  · rintro ⟨_, ⟨hfits, rfl⟩, s, hs, heq⟩
    obtain rfl := Except.ok.inj heq
    exact ⟨hfits, (hname s).mp hs, hknown, hothers⟩
  · rintro ⟨hfits, hs, hattributes, hextra⟩
    refine ⟨_, ⟨hfits, rfl⟩, e.name, (hname _).mpr hs, ?_⟩
    rw [hknown, hothers, ← hattributes, ← hextra]
    rfl

/-- The plain values that are read as entities of a kind are those that are such entities. -/
theorem ofJson?_succeeds_iff (hv : v.Sorted) :
    (∃ e, ofJson? k v = some e) ↔ k.AcceptsPlain v := by
  constructor
  · rintro ⟨e, he⟩
    obtain ⟨fields, rfl⟩ := exists_object_of_ofJson? he
    rw [Json.Sorted] at hv
    obtain ⟨hfits, hname, -⟩ := (ofJson?_object_eq_some_iff hv.1).mp he
    exact ⟨fields, rfl, ⟨e.name, hname⟩, ((EntityKind.fits_plain_iff hv.1).mp hfits).2⟩
  · rintro ⟨fields, rfl, ⟨name, hname⟩, hattributes⟩
    rw [Json.Sorted] at hv
    have hfits : k.shape.Fits fields := by
      refine (EntityKind.fits_plain_iff hv.1).mpr ⟨fun j hj => ?_, hattributes⟩
      exact ⟨name, Option.some.inj (hj.symm.trans hname)⟩
    exact ⟨⟨name, _, _⟩, (ofJson?_object_eq_some_iff hv.1).mpr ⟨hfits, hname, rfl, rfl⟩⟩

/-! ### Entities of plain values -/

/-- Fields of which the known ones were taken have none of them. -/
theorem find?_filter_others {a : String} (h : k.shape.knows a = true) :
    Fields.find? a (fields.filter fun f => !k.shape.knows f.1) = none := by
  rw [Fields.find?_filter_keys fun key => !k.shape.knows key, h]
  rfl

/-- An entity that was read of a plain value is well formed. -/
theorem wellFormed_of_ofJson? (hv : v.Sorted) (h : ofJson? k v = some e) : e.WellFormed := by
  obtain ⟨fields, rfl⟩ := exists_object_of_ofJson? h
  rw [Json.Sorted] at hv
  obtain ⟨-, -, hknown, hextra⟩ := (ofJson?_object_eq_some_iff hv.1).mp h
  obtain ⟨name, known, extra⟩ := e
  cases hknown
  cases hextra
  exact wellFormed_of_knownOf (Fields.sorted_filter hv.1 _) fun _ => find?_filter_others

/-! ### Plain forms -/

/-- The plain form of a well-formed entity is read as the entity. -/
theorem WellFormed.ofJson?_toJson (h : e.WellFormed) : ofJson? k e.toJson = some e := by
  obtain ⟨fields, hfields, hsorted⟩ := toJson_eq_object e
  have hfound (a : String) : Fields.find? a fields = if a = "name" then some (.text e.name)
      else if a ∈ k.attributes then (e.attribute? a).map .text
      else Fields.find? a e.extra := by
    rw [← h.field?_toJson a, hfields, Json.field?]
  have hattribute {a : String} (ha : a ∈ k.attributes) :
      Fields.find? a fields = (e.attribute? a).map .text := by
    have hname : a ≠ "name" := fun heq => k.name_notMem_attributes (heq ▸ ha)
    rw [hfound, if_neg hname, if_pos ha]
  rw [hfields, ofJson?_object_eq_some_iff hsorted, EntityKind.fits_plain_iff hsorted]
  refine ⟨⟨fun j hj => ?_, fun a ha j hj => ?_⟩, hfound "name", ?_, ?_⟩
  · exact ⟨e.name, Option.some.inj (hj.symm.trans (hfound "name"))⟩
  · rw [hattribute ha, Option.map_eq_some_iff] at hj
    obtain ⟨s, -, rfl⟩ := hj
    exact .inr ⟨s, rfl⟩
  · refine h.known.trans (knownOf_congr fun a ha => ?_)
    rw [hattribute ha]
    cases e.attribute? a <;> rfl
  · refine Fields.eq_of_find?_eq h.sorted (Fields.sorted_filter hsorted _) fun a => ?_
    cases hknows : k.shape.knows a with
    | true => rw [h.others a hknows, find?_filter_others hknows]
    | false =>
        obtain ⟨hname, hother⟩ := not_or.mp (mt EntityKind.knows_shape_iff.mpr
          (Bool.eq_false_iff.mp hknows))
        rw [Fields.find?_filter_keys fun key => !k.shape.knows key, hknows, hfound, if_neg hname,
          if_neg hother]
        rfl

/-- An entity is written as it was read, but for the known attributes that are null. -/
theorem toJson_of_ofJson? (hv : v.Sorted) (h : ofJson? k v = some e) :
    e.toJson = v.withoutNulls k.attributes := by
  have hform := wellFormed_of_ofJson? hv h
  obtain ⟨fields, rfl⟩ := exists_object_of_ofJson? h
  rw [Json.Sorted] at hv
  obtain ⟨hfits, hname, hknown, hextra⟩ := (ofJson?_object_eq_some_iff hv.1).mp h
  obtain ⟨-, hattributes⟩ := (EntityKind.fits_plain_iff hv.1).mp hfits
  refine hform.toJson_eq_withoutNulls hv.1 hname ?_ ?_
  · intro a ha
    rw [attribute?, hknown, find?_knownOf, if_pos ha]
    cases hj : Fields.find? a fields with
    | none => rfl
    | some j =>
        rcases hattributes a ha j hj with rfl | ⟨s, rfl⟩
        · rfl
        · rfl
  · intro a hknows
    rw [hextra, Fields.find?_filter_keys fun key => !k.shape.knows key, hknows]
    rfl

end Entity

/-! ### Lists -/

theorem mapM_eq_some_iff {α β : Type} {f : α → Option β} {xs : List α} {ys : List β} :
    xs.mapM f = some ys ↔ List.Forall₂ (fun x y => f x = some y) xs ys := by
  induction xs generalizing ys with
  | nil => simp [eq_comm]
  | cons x xs ih =>
      rw [List.mapM_cons, List.forall₂_cons_left_iff]
      simp only [Option.bind_eq_bind, Option.bind_eq_some_iff, Option.pure_def, Option.some.injEq,
        ih]
      constructor
      · rintro ⟨y, hy, ys, hys, rfl⟩
        exact ⟨y, ys, hy, hys, rfl⟩
      · rintro ⟨y, ys, hy, hys, rfl⟩
        exact ⟨y, hy, ys, hys, rfl⟩

theorem forall_mem_of_forall₂ {α β : Type} {R : α → β → Prop} {P : β → Prop} {xs : List α}
    {ys : List β} (h : List.Forall₂ R xs ys) (hP : ∀ x y, R x y → P y) : ∀ y ∈ ys, P y := by
  have hflip : List.Forall₂ (fun y x => P y ∧ R x y) ys xs :=
    h.flip.imp fun y x hr => ⟨hP x y hr, hr⟩
  exact ((List.forall₂_and_left _ _).mp hflip).1

namespace Entities

variable {k : EntityKind} {v : Json} {es : Entities k}

theorem ofJson?_eq_some_iff : ofJson? k v = some es ↔
    ∃ items, v = .list items ∧ List.Forall₂ (fun j e => Entity.ofJson? k j = some e) items es := by
  cases v with
  | list items => simp [ofJson?, mapM_eq_some_iff]
  | _ => simp [ofJson?]

theorem ofJson?_succeeds_iff (hv : v.Sorted) : (∃ es, ofJson? k v = some es) ↔
    ∃ items, v = .list items ∧ ∀ j ∈ items, k.AcceptsPlain j := by
  simp only [ofJson?_eq_some_iff]
  rw [exists_comm]
  simp only [exists_and_left, exists_forall₂_iff]
  refine exists_congr fun items => and_congr_right ?_
  rintro rfl
  rw [Json.Sorted, Json.sortedItems_iff] at hv
  exact forall₂_congr fun j hj => Entity.ofJson?_succeeds_iff (hv j hj)

/-- The plain form of a list of well-formed entities is read as the list. -/
theorem ofJson?_toJson (h : ∀ e ∈ es, e.WellFormed) : ofJson? k es.toJson = some es := by
  refine ofJson?_eq_some_iff.mpr ⟨_, rfl, List.forall₂_map_left_iff.mpr ?_⟩
  exact List.forall₂_same.mpr fun e he => (h e he).ofJson?_toJson

/-- A list is written as it was read, but for the known attributes that are null. -/
theorem toJson_of_ofJson? {items : List Json} (hv : (Json.list items).Sorted)
    (h : List.Forall₂ (fun j e => Entity.ofJson? k j = some e) items es) :
    es.toJson = .list (items.map (Json.withoutNulls k.attributes)) := by
  rw [Json.Sorted, Json.sortedItems_iff] at hv
  have hwritten := ((List.forall₂_and_left _ _).mpr ⟨hv, h⟩).imp
    fun _ _ hj => Entity.toJson_of_ofJson? hj.1 hj.2
  rw [toJson, Json.list.injEq, ← List.forall₂_eq_eq_eq]
  exact List.forall₂_map_left_iff.mpr (List.forall₂_map_right_iff.mpr hwritten.flip)

end Entities

/-- The entities of a section of a document are well formed. -/
theorem Resolver.wellFormed_of_readEntities [CallerTypes] {k : EntityKind} {d : Document}
    {es : Entities k} (h : readEntities k d = .ok es) : ∀ e ∈ es, e.WellFormed := by
  obtain ⟨-, hitems⟩ := readSequence_eq_ok_iff.mp h
  exact forall_mem_of_forall₂ hitems fun _ _ => Entity.wellFormed_of_ofValue

namespace Entity

/-- What is read of plain values, and what is written of it. A value is read as an entity when it
is one, an entity is written as it was read but for the known attributes that are null, and
reading what was written gives the entity again, which may also come from a document. The same
holds of lists, item by item. -/
theorem plain_codec [CallerTypes] (k : EntityKind) (v : Json) (hv : v.Sorted) :
    ((∃ e, ofJson? k v = some e) ↔ k.AcceptsPlain v) ∧
    (∀ e, ofJson? k v = some e →
      e.toJson = v.withoutNulls k.attributes ∧ ofJson? k e.toJson = some e) ∧
    (∀ u e, ofValue k u = .ok e → ofJson? k e.toJson = some e) ∧
    ((∃ es, Entities.ofJson? k v = some es) ↔
      ∃ items, v = .list items ∧ ∀ j ∈ items, k.AcceptsPlain j) ∧
    (∀ es, Entities.ofJson? k v = some es → ∃ items, v = .list items ∧
      List.Forall₂ (fun j e => ofJson? k j = some e) items es ∧
      es.toJson = .list (items.map (Json.withoutNulls k.attributes)) ∧
      Entities.ofJson? k es.toJson = some es) ∧
    (∀ d es, Resolver.readEntities k d = .ok es → Entities.ofJson? k es.toJson = some es) := by
  refine ⟨ofJson?_succeeds_iff hv, fun e he => ⟨toJson_of_ofJson? hv he, ?_⟩, fun u e he => ?_,
    Entities.ofJson?_succeeds_iff hv, fun es hes => ?_, fun d es hes => ?_⟩
  · exact (wellFormed_of_ofJson? hv he).ofJson?_toJson
  · exact (wellFormed_of_ofValue he).ofJson?_toJson
  · obtain ⟨items, rfl, hitems⟩ := Entities.ofJson?_eq_some_iff.mp hes
    refine ⟨items, rfl, hitems, Entities.toJson_of_ofJson? hv hitems, ?_⟩
    rw [Json.Sorted, Json.sortedItems_iff] at hv
    exact Entities.ofJson?_toJson (forall_mem_of_forall₂
      ((List.forall₂_and_left _ _).mpr ⟨hv, hitems⟩) fun _ _ hj => wellFormed_of_ofJson? hj.1 hj.2)
  · exact Entities.ofJson?_toJson (Resolver.wellFormed_of_readEntities hes)

/-- A datasource with a null type, an attribute that is not known, and null inside another. -/
theorem plain_codec_null_type :
    let v : Json := .list [.object [("kind", .bool true), ("name", .text "main"),
      ("options", .object [("port", .null)]), ("type", .null)]]
    v.Sorted ∧ ∃ es, Entities.ofJson? .datasource v = some es ∧
      es.toJson = .list [.object [("kind", .bool true), ("name", .text "main"),
        ("options", .object [("port", .null)])]] ∧
      Entities.ofJson? .datasource es.toJson = some es := by
  intro v
  have hv : v.Sorted := by
    simp only [v, Json.Sorted, Json.SortedItems, Json.SortedFields, Fields.Sorted, Fields.keys]
    decide
  have hes : Entities.ofJson? .datasource v = some _ := rfl
  obtain ⟨-, -, -, -, hlists, -⟩ := plain_codec .datasource v hv
  obtain ⟨items, hitems, -, hwritten, hagain⟩ := hlists _ hes
  obtain rfl := Json.list.inj hitems
  exact ⟨hv, _, hes, hwritten, hagain⟩

end Entity

end Galley
