import Galley.Proofs.RecordReading
import Galley.Entity

/-!
Entities and their plain forms.

An entity is well formed when its known attributes are those of its kind, in order, and its other
attributes are sorted and none that the kind knows (`Entity.WellFormed`). Each attribute is found
in the plain form of such an entity as it is in the entity (`Entity.WellFormed.field?_toJson`). So
the plain form is that of any object in which they are found alike, but for the known attributes
that are null there (`Entity.WellFormed.toJson_eq_withoutNulls`).
-/

namespace Galley

namespace Json

/-- An object without those of the given attributes that are null. Other attributes, and other
values, are as they were. -/
def withoutNulls (attributes : List String) : Json → Json
  | .object fields => .object (fields.filter fun f => !(attributes.contains f.1 && f.2.isNull))
  | v => v

example : (Json.object [("kind", .null), ("name", .text "main"), ("type", .null)]).withoutNulls
    ["type", "description"] = .object [("kind", .null), ("name", .text "main")] := rfl

end Json

namespace EntityKind

variable {k : EntityKind} {a : String}

theorem knows_shape_iff : k.shape.knows a = true ↔ a = "name" ∨ a ∈ k.attributes := by
  simp [Shape.knows, shape]

theorem name_notMem_attributes (k : EntityKind) : "name" ∉ k.attributes := by
  cases k <;> decide

end EntityKind

namespace Entity

variable {k : EntityKind} {e : Entity k} {name : String} {fields : List (String × Json)}

/-- A known attribute is found as it was read. -/
theorem find?_knownOf {value? : String → Option String} {a : String} :
    Fields.find? a (knownOf k value?) = if a ∈ k.attributes then value? a else none :=
  Fields.find?_filterMap

theorem knownOf_congr {value? value?' : String → Option String}
    (h : ∀ a ∈ k.attributes, value? a = value?' a) : knownOf k value? = knownOf k value?' :=
  List.filterMap_congr fun a ha => by rw [h a ha]

theorem nodup_keys_named {value? : String → Option String} {name : Json} :
    (Fields.keys (("name", name) :: (knownOf k value?).map fun a => (a.1, .text a.2))).Nodup := by
  have hattributes : ("name" :: k.attributes).Nodup := by
    cases k <;> decide
  refine hattributes.sublist (.cons_cons _ ?_)
  rw [List.map_map]
  exact Fields.keys_filterMap_sublist

theorem toJson_eq_object (e : Entity k) :
    ∃ fields, e.toJson = .object fields ∧ Fields.Sorted fields :=
  ⟨_, rfl, Fields.sorted_insertAll Fields.sorted_ofPairs⟩

/-- The known attributes of an entity are in the order of its kind, and the others are sorted
and none that the kind knows. -/
structure WellFormed (e : Entity k) : Prop where
  known : e.known = knownOf k e.attribute?
  sorted : Fields.Sorted e.extra
  others : ∀ a, k.shape.knows a = true → Fields.find? a e.extra = none

/-- Known attributes that are made for a kind are found as they were made, so that making them
again gives the same. -/
theorem wellFormed_of_knownOf {value? : String → Option String} {extra : List (String × Json)}
    (hsorted : Fields.Sorted extra)
    (hothers : ∀ a, k.shape.knows a = true → Fields.find? a extra = none) :
    (⟨name, knownOf k value?, extra⟩ : Entity k).WellFormed where
  known := knownOf_congr fun a ha => by rw [attribute?, find?_knownOf, if_pos ha]
  sorted := hsorted
  others := hothers

namespace WellFormed

/-- In the plain form of a well-formed entity each attribute is found as it is in the entity. -/
theorem field?_toJson (h : e.WellFormed) (a : String) : e.toJson.field? a =
    if a = "name" then some (.text e.name)
    else if a ∈ k.attributes then (e.attribute? a).map .text
    else Fields.find? a e.extra := by
  have hnamed : (Fields.keys (("name", Json.text e.name) ::
      e.known.map fun a => (a.1, .text a.2))).Nodup := by
    rw [h.known]
    exact nodup_keys_named
  have hothers := fun ha => h.others a (EntityKind.knows_shape_iff.mpr ha)
  rw [toJson, Json.field?, Fields.find?_insertAll,
    Fields.find?_reverse (Fields.nodup_keys h.sorted), Fields.find?_ofPairs,
    Fields.find?_reverse hnamed, Fields.find?, Fields.find?_map Json.text]
  by_cases hname : a = "name"
  · rw [hothers (.inl hname), if_pos hname.symm, if_pos hname, Option.none_or]
  · rw [if_neg (Ne.symm hname), if_neg hname]
    by_cases hattribute : a ∈ k.attributes
    · rw [hothers (.inr hattribute), if_pos hattribute, Option.none_or, attribute?]
    · rw [h.known, find?_knownOf, if_neg hattribute, if_neg hattribute, Option.map_none,
        Option.or_none]

/-- The plain form of a well-formed entity is that of an object in which the same is found, but
for the known attributes that are null in the object. -/
theorem toJson_eq_withoutNulls (h : e.WellFormed) (hsorted : Fields.Sorted fields)
    (hname : Fields.find? "name" fields = some (.text e.name))
    (hknown : ∀ a ∈ k.attributes,
      (Fields.find? a fields).filter (fun v => !v.isNull) = (e.attribute? a).map .text)
    (hothers : ∀ a, k.shape.knows a = false → Fields.find? a fields = Fields.find? a e.extra) :
    e.toJson = (Json.object fields).withoutNulls k.attributes := by
  obtain ⟨written, hwritten, hwrittenSorted⟩ := toJson_eq_object e
  rw [hwritten]
  refine congrArg Json.object (Fields.eq_of_find?_eq hwrittenSorted
    (Fields.sorted_filter hsorted _) fun a => ?_)
  have hfound := h.field?_toJson a
  rw [hwritten, Json.field?] at hfound
  rw [hfound, Fields.find?_filter (Fields.nodup_keys hsorted)]
  by_cases hfirst : a = "name"
  · subst hfirst
    simp [hname, Json.isNull, Option.filter_some]
  · by_cases hattribute : a ∈ k.attributes
    · rw [if_neg hfirst, if_pos hattribute, ← hknown a hattribute]
      simp [hattribute]
    · have hknows : k.shape.knows a = false := by
        rw [Bool.eq_false_iff, ne_eq, EntityKind.knows_shape_iff]
        exact not_or.mpr ⟨hfirst, hattribute⟩
      rw [if_neg hfirst, if_neg hattribute, ← hothers a hknows]
      cases Fields.find? a fields with
      | none => rfl
      | some v => simp [hattribute, Option.filter_some]

end WellFormed

end Entity

end Galley
