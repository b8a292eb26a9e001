import Galley.Settings.Decode
import Mathlib.Data.List.TakeDrop
import Mathlib.Data.List.TakeWhile

/-!
Values that are put under keys.

A key starts with a name and may lead further (`Settings.readKey_eq_cons`). A value that is put
under a key changes the field of this name alone (`Settings.field?_put`): it takes the place of
the field, an object joins its fields to it, and under a key that leads further there is a list
or an object afterwards. A reader of scalars reads nothing from these.
-/

namespace Galley.Settings

/-! ### Keys -/

section Keys

variable {key : String} {s : List Char} {n : Nat}

theorem readSteps?_ne_some_nil (h : s ≠ []) : readSteps? n s ≠ some [] := by
  intro hsteps
  fun_cases readSteps? n s with
  | case1 => exact h rfl
  | case2 s hs => simp [readSteps?] at hsteps
  | case3 n s back hspan => simp only [readSteps?, hspan, reduceCtorEq] at hsteps
  | case4 n s name rest hname hspan =>
      simp only [readSteps?, hspan, Option.map_eq_some_iff, reduceCtorEq, and_false,
        exists_false] at hsteps
  | case5 n s =>
      simp only [readSteps?, Option.bind_eq_bind, Option.bind_eq_some_iff] at hsteps
      obtain ⟨_, -, _, -, hsteps⟩ := hsteps
      cases hsteps
  | case6 n s => simp [readSteps?] at hsteps

/-- A key starts with a name; a key that leads no further is this name. -/
theorem readKey_eq_cons (key : String) :
    ∃ name rest, readKey key = .field name :: rest ∧ (rest = [] → name = key) := by
  rw [readKey, List.span_eq_takeWhile_dropWhile]
  split
  · exact ⟨key, [], rfl, fun _ => rfl⟩
  · rename_i name rest hname hspan
    cases hsteps : readSteps? rest.length rest with
    | none => exact ⟨key, [], rfl, fun _ => rfl⟩
    | some steps =>
        refine ⟨String.ofList name, steps, rfl, ?_⟩
        rintro rfl
        have hrest : rest = [] := by
          by_contra hne
          exact readSteps?_ne_some_nil hne hsteps
        obtain ⟨rfl, hdrop⟩ := Prod.mk.inj hspan
        rw [← List.append_nil (List.takeWhile _ _), ← hrest, ← hdrop,
          List.takeWhile_append_dropWhile, String.ofList_toList]

/-- A key without dots and brackets leads no further. -/
theorem readKey_of_isKeyChar (hne : key.toList ≠ []) (h : ∀ c ∈ key.toList, isKeyChar c = true) :
    readKey key = [.field key] := by
  rw [readKey, List.span_eq_takeWhile_dropWhile, List.takeWhile_eq_self_iff.mpr h,
    List.dropWhile_eq_nil_iff.mpr h]
  simp [readSteps?]

end Keys

/-! ### Fields -/

section Fields

variable {v : Json} {old : Option Json}

theorem find?_fieldsOf (name : String) (target : Json) :
    Fields.find? name (fieldsOf target) = target.field? name := by
  cases target <;> rfl

/-- A value under a key is put into the field that the key starts with, and leaves the others as
they are. -/
theorem field?_put (name field : String) (rest : List KeyStep) (v target : Json) :
    (put (.field field :: rest) v (some target)).field? name =
      if name = lowered field then some (put rest v (target.field? name))
      else target.field? name := by
  rw [put, Option.getD_some, setField, Json.field?, Fields.find?_insert, find?_fieldsOf]
  split
  · rename_i h
    rw [h]
  · rfl

/-- Under a key that leads further there is a list or an object. -/
theorem put_cons (step : KeyStep) (rest : List KeyStep) (v : Json) (old : Option Json) :
    (∃ items, put (step :: rest) v old = .list items) ∨
      ∃ fields, put (step :: rest) v old = .object fields := by
  cases step with
  | field name => exact .inr ⟨_, rfl⟩
  | item index =>
      cases rest with
      | nil => exact .inl ⟨_, rfl⟩
      | cons => exact .inl ⟨_, rfl⟩

def isObject : Json → Bool
  | .object _ => true
  | _ => false

theorem merged_of_not_isObject (h : isObject v = false) : merged v old = v := by
  cases v with
  | object fields => cases h
  | _ => rfl

/-- An object with fields leaves an object, whatever it is put over. -/
theorem mergedFields_cons (e : String × Json) (fields : List (String × Json)) (target : Json) :
    ∃ fields', mergedFields (e :: fields) target = .object fields' := by
  induction fields generalizing e target with
  | nil => exact ⟨_, rfl⟩
  | cons e' fields ih => exact ih e' _

theorem putAll_append (entries more : List (String × Json)) (target : Json) :
    putAll (entries ++ more) target = putAll more (putAll entries target) :=
  List.foldl_append

theorem putAll_concat (entries : List (String × Json)) (e : String × Json) (target : Json) :
    putAll (entries ++ [e]) target = put (readKey e.1) e.2 (some (putAll entries target)) :=
  putAll_append entries [e] target

end Fields

/-! ### Readers -/

section Readers

variable {α : Type} {read? : Json → Option α} {default x : α} {v : Json}

/-- What is read from a value, or the default where there is none. -/
def valueOr (read? : Json → Option α) (default : α) : Option Json → Option α
  | none => some default
  | some v => read? v

theorem setting?_eq (fields : List (String × Json)) (name : String) :
    setting? fields name read? default = valueOr read? default (Fields.find? name fields) := by
  rw [setting?]
  cases Fields.find? name fields <;> rfl

/-- A reader that reads nothing from lists and objects. -/
structure ReadsScalars (read? : Json → Option α) : Prop where
  list : ∀ items, read? (.list items) = none
  object : ∀ fields, read? (.object fields) = none

theorem readsScalars_textOf? : ReadsScalars textOf? :=
  ⟨fun _ => rfl, fun _ => rfl⟩

theorem readsScalars_pathOf? : ReadsScalars pathOf? :=
  ⟨fun _ => rfl, fun _ => rfl⟩

theorem readsScalars_flagOf? : ReadsScalars flagOf? :=
  ⟨fun _ => rfl, fun _ => rfl⟩

/-- A scalar that is read where an object was put over a value is this value: only an object
without fields leaves one. -/
theorem valueOr_of_merged (hread : ReadsScalars read?) {old : Option Json}
    (hobject : isObject v = true) (h : read? (merged v old) = some x) :
    valueOr read? default old = some x := by
  cases v with
  | object fields =>
      rw [merged] at h
      cases fields with
      | nil =>
          rw [mergedFields] at h
          cases old with
          | none =>
              rw [Option.getD_none, hread.object] at h
              cases h
          | some v => exact h
      | cons e fields =>
          obtain ⟨fields', heq⟩ := mergedFields_cons e fields (old.getD (.object []))
          rw [heq, hread.object] at h
          cases h
  | _ => cases hobject

end Readers

end Galley.Settings
