import Galley.Proofs.Outcomes
import Galley.Proofs.SortedFields
import Galley.Record

/-!
Reading records that keep their other fields.

A field is read when it may hold its value and was not read before, if the record knows it
(`Shape.readField_eq_ok_iff`). So fields are read when they make a record (`Shape.Fits`), and what
is read are the known ones apart from the others (`Shape.foldlM_readField_eq_ok_iff`). All this
holds for fields of documents and for plain ones. The fields of a mapping are its pairs whose keys
are texts, which may be tagged (`Yaml.Pairs.fields`), and a mapping is a record when all keys are
texts and the fields make one (`Shape.Accepts`).
-/

namespace Galley

open Yaml

namespace Yaml

namespace Value

variable {v : Value} {s : String}

theorem readText_eq_ok_iff {expected : String} :
    v.readText expected = .ok s ↔ v.untagged = .text s := by
  rw [readText]
  split
  · rename_i t ht
    rw [ht, Except.ok.injEq, Value.text.injEq]
  · rename_i hother
    constructor
    · intro h
      cases h
    · intro h
      exact absurd h (hother s)

theorem untagged_eq_text_iff : v.untagged = .text s ↔ v.asText? = some s := by
  induction v using asText?.induct with
  | case1 t => simp [asText?, untagged]
  | case2 tag v ih => simpa [asText?, untagged] using ih
  | case3 v htext htagged => cases v <;> simp_all [asText?, untagged]

/-- What is read behind a text. -/
theorem readText_bind_eq_ok_iff {α : Type} {expected : String}
    {f : String → Except DecodeFault α} {b : α} :
    (v.readText expected >>= f) = .ok b ↔ ∃ t, v.asText? = some t ∧ f t = .ok b := by
  simp only [bind_eq_ok_iff, readText_eq_ok_iff, untagged_eq_text_iff]

theorem isNull_iff : v.isNull = true ↔ v = .null := by
  cases v <;> simp [isNull]

end Value

/-- The fields of a mapping: the pairs whose keys are texts. -/
def Pairs.fields (pairs : Pairs) : List (String × Value) :=
  pairs.filterMap fun p => p.1.asText?.map fun a => (a, p.2)

theorem Pairs.fields_cons {k : Value} {key : String} (h : k.asText? = some key) (v : Value)
    (pairs : Pairs) : fields ((k, v) :: pairs) = (key, v) :: fields pairs := by
  simp [fields, h]

end Yaml

section FieldValue

variable {β : Type}

theorem RecordRead.required_eq_ok_iff {r : RecordRead β} {field name : String} :
    r.required field = .ok name ↔ r.text? field = some name := by
  rw [required]
  cases r.text? field <;> simp

variable [FieldValue β]

/-- The text that a known field has for a value. -/
def FieldValue.text? (v : β) : Option String :=
  (FieldValue.readText v).toOption

namespace Shape

variable {s : Shape} {r r' : RecordRead β} {f : String × β} {fields : List (String × β)}

/-- Whether a field may hold a value: one that the shape knows a text, and null when it is
optional, and any other what can be kept. -/
def takes (s : Shape) (f : String × β) : Bool :=
  if s.knows f.1 then
    (FieldValue.text? f.2).isSome || s.optionals.contains f.1 && FieldValue.isNull f.2
  else (FieldValue.refusal? f.2).isNone

theorem takes_of_knows (h : s.knows f.1 = true) : s.takes f = true ↔
    (FieldValue.text? f.2).isSome = true ∨ f.1 ∈ s.optionals ∧ FieldValue.isNull f.2 = true := by
  simp [takes, h]

/-! ### Fields -/

def add (s : Shape) (r : RecordRead β) (f : String × β) : RecordRead β :=
  if s.knows f.1 then { r with known := r.known ++ [(f.1, FieldValue.text? f.2)] }
  else { r with others := r.others ++ [f] }

/-- A field is read when it was not read before, if it is known, and may hold its value. -/
theorem readField_eq_ok_iff (hkeeps : s.keepsOthers = true) :
    s.readField r f = .ok r' ↔ s.takes f = true ∧
      (s.knows f.1 = true → Fields.contains f.1 r.known = false) ∧ r' = s.add r f := by
  obtain ⟨key, v⟩ := f
  rw [readField, takes, add]
  dsimp only
  cases hknows : s.knows key with
  | false =>
      rw [hkeeps]
      cases FieldValue.refusal? v with
      | some fault => simp
      | none => simp [eq_comm (a := r')]
  | true =>
      cases hnew : Fields.contains key r.known with
      | true => simp
      | false =>
          rw [FieldValue.text?]
          cases htext : FieldValue.readText v with
          | ok text =>
              -- A value with a text is not null, so reading null first changes nothing.
              have hnull := FieldValue.isNull_of_readText htext
              simp [hnull, Except.toOption, eq_comm (a := r')]
          | error fault =>
              cases s.optionals.contains key && FieldValue.isNull v with
              | true => simp [Except.toOption, eq_comm (a := r')]
              | false => simp [Except.toOption]

/-! ### Records -/

def readOf (s : Shape) (fields : List (String × β)) : RecordRead β where
  known := (fields.filter fun f => s.knows f.1).map fun f => (f.1, FieldValue.text? f.2)
  others := fields.filter fun f => !s.knows f.1

/-- Fields make a record: those that the shape knows are there once at most, and every field
holds what it may. -/
structure Fits (s : Shape) (fields : List (String × β)) : Prop where
  takes : ∀ f ∈ fields, s.takes f = true
  once : ((Fields.keys fields).filter s.knows).Nodup

theorem readOf_concat (s : Shape) (fields : List (String × β)) (f : String × β) :
    s.readOf (fields ++ [f]) = s.add (s.readOf fields) f := by
  cases hknows : s.knows f.1 <;> simp [readOf, add, hknows]

theorem keys_known_readOf (s : Shape) (fields : List (String × β)) :
    Fields.keys (s.readOf fields).known = (Fields.keys fields).filter s.knows := by
  simp [readOf, Fields.keys, List.filter_map, Function.comp_def]

/-- One field more makes a record when the other ones do, and it has a new key, if it is known,
with a value that it may hold. -/
theorem fits_concat_iff : s.Fits (fields ++ [f]) ↔ s.Fits fields ∧ s.takes f = true ∧
    (s.knows f.1 = true → Fields.contains f.1 (s.readOf fields).known = false) := by
  have hnew : Fields.contains f.1 (s.readOf fields).known = false ↔
      f.1 ∉ (Fields.keys fields).filter s.knows := by
    rw [← keys_known_readOf, ← Fields.contains_iff, Bool.not_eq_true]
  have hkeys : Fields.keys (fields ++ [f]) = Fields.keys fields ++ [f.1] := List.map_append
  have honce : ((Fields.keys (fields ++ [f])).filter s.knows).Nodup ↔
      ((Fields.keys fields).filter s.knows).Nodup ∧
        (s.knows f.1 = true → f.1 ∉ (Fields.keys fields).filter s.knows) := by
    rw [hkeys, List.filter_append]
    cases hknows : s.knows f.1 with
    | true =>
        rw [List.filter_cons_of_pos hknows, List.filter_nil,
          (List.perm_append_singleton f.1 _).nodup_iff, List.nodup_cons, and_comm]
        simp
    | false => simp [hknows]
  rw [hnew]
  constructor
  · rintro ⟨htakes, hnodup⟩
    obtain ⟨hfront, hlast⟩ := List.forall_mem_append.mp htakes
    obtain ⟨hnodup, hfresh⟩ := honce.mp hnodup
    exact ⟨⟨hfront, hnodup⟩, hlast f (List.mem_singleton_self f), hfresh⟩
  · rintro ⟨⟨hfront, hnodup⟩, hlast, hfresh⟩
    refine ⟨List.forall_mem_append.mpr ⟨hfront, ?_⟩, honce.mpr ⟨hnodup, hfresh⟩⟩
    simpa using hlast

/-- Fields are read when they make a record, and this record is what is read. -/
theorem foldlM_readField_eq_ok_iff (hkeeps : s.keepsOthers = true) :
    fields.foldlM s.readField {} = .ok r ↔ s.Fits fields ∧ r = s.readOf fields := by
  -- The last field is read last, when the record holds exactly what the fields before it gave.
  induction fields using List.reverseRecOn generalizing r with
  | nil =>
      have hnil : s.Fits ([] : List (String × β)) := ⟨by simp, List.nodup_nil⟩
      rw [List.foldlM_nil, pure_eq_ok_iff, and_iff_right hnil]
      rfl
  | append_singleton fields f ih =>
      rw [List.foldlM_append, bind_eq_ok_iff, fits_concat_iff, readOf_concat]
      simp only [ih, List.foldlM_cons, List.foldlM_nil, bind_pure, readField_eq_ok_iff hkeeps]
      constructor
      · rintro ⟨_, ⟨hfields, rfl⟩, htakes, hfresh, rfl⟩
        exact ⟨⟨hfields, htakes, hfresh⟩, rfl⟩
      · rintro ⟨⟨hfields, htakes, hfresh⟩, rfl⟩
        exact ⟨_, ⟨hfields, rfl⟩, htakes, hfresh, rfl⟩

/-- A field that the shape knows is found in a record as a text. -/
theorem text?_readOf {a : String} (h : s.knows a = true) :
    (s.readOf fields).text? a = (Fields.find? a fields).bind FieldValue.text? := by
  rw [RecordRead.text?, readOf, Fields.find?_map, Fields.find?_filter_keys s.knows, if_pos h]
  cases Fields.find? a fields <;> rfl

end Shape

end FieldValue

/-! ### Mappings -/

theorem Yaml.Value.fieldText?_eq (v : Yaml.Value) : FieldValue.text? v = v.asText? := by
  refine Option.ext fun s => ?_
  have htext : FieldValue.readText v = .ok s ↔ v.asText? = some s :=
    readText_eq_ok_iff.trans untagged_eq_text_iff
  rw [FieldValue.text?, ← htext]
  cases FieldValue.readText v <;> simp [Except.toOption]

namespace Shape

variable {s : Shape} {r r' : RecordRead Yaml.Value} {pairs : Pairs} {a : String}

theorem takes_value_of_knows {v : Yaml.Value} (h : s.knows a = true) :
    s.takes (a, v) = true ↔ v.asText?.isSome = true ∨ a ∈ s.optionals ∧ v = .null := by
  rw [takes_of_knows h, Yaml.Value.fieldText?_eq, ← Value.isNull_iff]
  rfl

theorem takes_value_of_not_knows {v : Yaml.Value} (h : s.knows a = false) :
    s.takes (a, v) = true ↔ v.hasTag = false := by
  rw [takes, h]
  cases htag : v.hasTag <;> simp [FieldValue.refusal?, htag]

theorem readPair_eq_ok_iff {k v : Yaml.Value} : s.readPair r (k, v) = .ok r' ↔
    ∃ key, k.asText? = some key ∧ s.readField r (key, v) = .ok r' :=
  Value.readText_bind_eq_ok_iff

/-- Pairs are read when their keys are texts and their fields are read. -/
theorem foldlM_readPair_iff_readField : pairs.foldlM s.readPair r = .ok r' ↔
    (∀ p ∈ pairs, p.1.asText?.isSome = true) ∧ pairs.fields.foldlM s.readField r = .ok r' := by
  induction pairs generalizing r with
  | nil => simp [Pairs.fields]
  | cons pair pairs ih =>
      obtain ⟨k, v⟩ := pair
      rw [List.foldlM_cons, List.forall_mem_cons, bind_eq_ok_iff]
      simp only [readPair_eq_ok_iff, ih]
      cases hkey : k.asText? with
      | none => simp
      | some key =>
          rw [Pairs.fields_cons hkey, List.foldlM_cons, bind_eq_ok_iff]
          simp only [Option.some.injEq, exists_eq_left', Option.isSome_some, true_and]
          constructor
          · rintro ⟨mid, hmid, htexts, hrest⟩
            exact ⟨htexts, mid, hmid, hrest⟩
          · rintro ⟨htexts, mid, hmid, hrest⟩
            exact ⟨mid, hmid, htexts, hrest⟩

/-- A mapping is a record: its keys are texts, and its fields make one. -/
structure Accepts (s : Shape) (pairs : Pairs) : Prop where
  texts : ∀ p ∈ pairs, p.1.asText?.isSome = true
  fits : s.Fits pairs.fields

/-- A mapping is read when it is a record, and its fields are what is read. -/
theorem foldlM_readPair_eq_ok_iff (hkeeps : s.keepsOthers = true) :
    pairs.foldlM s.readPair {} = .ok r ↔ s.Accepts pairs ∧ r = s.readOf pairs.fields := by
  rw [foldlM_readPair_iff_readField, foldlM_readField_eq_ok_iff hkeeps, ← and_assoc]
  exact and_congr_left' ⟨fun h => ⟨h.1, h.2⟩, fun h => ⟨h.texts, h.fits⟩⟩

end Shape

end Galley
