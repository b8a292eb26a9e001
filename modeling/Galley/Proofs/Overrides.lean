import Galley.Proofs.MergePaths

/-!
Scalars in a merge.

A scalar replaces whatever the documents in front of its own hold at its path, also where
something else than a mapping stands on the way there (`mergeAll_at_scalar`), and it stays
as long as the documents behind it are silent at the path (`mergeAll_at_last_scalar`).
-/

namespace Galley

namespace Yaml.Value

open Pairs

/-- Whether a value is a scalar that a merge takes over; null is none. -/
def isScalar : Value → Bool
  | .bool _ | .number _ | .text _ => true
  | _ => false

/-- The value of a key, in a mapping. -/
def child? (k : Value) : Value → Option Value
  | .map pairs => find? k pairs
  | _ => none

/-- A value changes nothing at a path: it holds nothing there, or null, and only mappings
and nulls stand on the way. -/
def SilentAt (path : List Value) (v : Value) : Prop :=
  ClearTo path v ∧ ∀ u, valueAt? path v = some u → u = .null

theorem valueAt?_cons (k : Value) (path : List Value) (v : Value) :
    valueAt? (k :: path) v = (child? k v).bind (valueAt? path) := by
  cases v <;> rfl

theorem distinct_of_child? {k v u : Value} (hv : v.distinct = true) (h : child? k v = some u) :
    u.distinct = true := by
  cases v <;> try cases h
  exact distinct_of_find? hv h

/-- A value at a path has only mappings on the way. -/
theorem clearTo_of_valueAt? {path : List Value} {v u : Value} (h : valueAt? path v = some u) :
    ClearTo path v := by
  induction path generalizing v with
  | nil => exact .nil v
  | cons k path ih =>
      cases v <;> try cases h
      rename_i pairs
      apply ClearTo.map
      intro w hw
      rw [valueAt?, hw] at h
      exact ih h

/-! ### Merging below a key -/

/-- What a merge with a mapping holds for a key. -/
theorem child?_merge_map {k v : Value} {pairs : Pairs} (hk : k.distinct = true)
    (hv : v.distinct = true) (hpairs : distinctPairs pairs = true) :
    child? k (v.merge (.map pairs)) = Option.merge merge (child? k v) (find? k pairs) := by
  cases v with
  | map as => exact find?_merge hk hv hpairs
  | _ => exact Option.merge_none_left.symm

/-- A scalar is taken over by a merge, whatever stood at its path. -/
theorem valueAt?_merge_of_scalar {path : List Value} {v w u : Value}
    (hpath : ∀ k ∈ path, k.distinct = true) (hv : v.distinct = true) (hw : w.distinct = true)
    (h : valueAt? path w = some u) (hscalar : u.isScalar = true) :
    valueAt? path (v.merge w) = some u := by
  induction path generalizing v w with
  | nil =>
      cases h
      cases u <;> first | rfl | cases hscalar
  | cons k path ih =>
      obtain ⟨hk, hpath⟩ := List.forall_mem_cons.mp hpath
      cases w <;> try cases h
      rename_i pairs
      rw [valueAt?] at h
      obtain ⟨b, hb, hu⟩ := Option.bind_eq_some_iff.mp h
      rw [valueAt?_cons, child?_merge_map hk hv hw, hb]
      cases ha : child? k v with
      | none => exact hu
      | some a => exact ih hpath (distinct_of_child? hv ha) (distinct_of_find? hw hb) hu

/-- Only what a value holds at a path counts for what a merge with it holds there. -/
theorem valueAt?_merge_congr {path : List Value} {v v' w : Value}
    (hpath : ∀ k ∈ path, k.distinct = true) (hv : v.distinct = true) (hv' : v'.distinct = true)
    (hw : w.distinct = true) (h : valueAt? path v = valueAt? path v') :
    valueAt? path (v.merge w) = valueAt? path (v'.merge w) := by
  induction path generalizing v v' w with
  | nil => rw [Option.some.inj h]
  | cons k path ih =>
      obtain ⟨hk, hpath⟩ := List.forall_mem_cons.mp hpath
      -- Below a key that a value lacks, it counts as much as null does there.
      have hnull : ∀ {a b : Value}, a.distinct = true → b.distinct = true →
          valueAt? path a = none → valueAt? path (a.merge b) = valueAt? path b := by
        intro a b ha hb hnone
        have hmissing : valueAt? path .null = none := by
          cases path with
          | nil => cases hnone
          | cons k path => rfl
        have hboth := @ih a .null b hpath ha rfl hb (hnone.trans hmissing.symm)
        rwa [null_merge] at hboth
      cases w with
      | null => exact h
      | map pairs =>
          rw [valueAt?_cons, valueAt?_cons] at h ⊢
          rw [child?_merge_map hk hv hw, child?_merge_map hk hv' hw]
          cases hb : find? k pairs with
          | none => simpa using h
          | some b =>
              have hbdistinct := distinct_of_find? hw hb
              cases ha : child? k v with
              | none =>
                  cases ha' : child? k v' with
                  | none => rfl
                  | some a' =>
                      rw [ha, ha'] at h
                      exact (hnull (distinct_of_child? hv' ha') hbdistinct h.symm).symm
              | some a =>
                  have hadistinct := distinct_of_child? hv ha
                  cases ha' : child? k v' with
                  | none =>
                      rw [ha, ha'] at h
                      exact hnull hadistinct hbdistinct h
                  | some a' =>
                      rw [ha, ha'] at h
                      exact ih hpath hadistinct (distinct_of_child? hv' ha') hbdistinct h
      | seq items =>
          have hnone : ∀ u : Value, valueAt? (k :: path) (u.merge (.seq items)) = none := by
            intro u
            cases u <;> rfl
          rw [hnone, hnone]
      | bool b => rfl
      | number n => rfl
      | text s => rfl
      | tagged tag u => rfl

/-- A value stays at its path when what is merged in is silent there. -/
theorem valueAt?_merge_of_silent {path : List Value} {v w u : Value}
    (hpath : ∀ k ∈ path, k.distinct = true) (hv : v.distinct = true) (hw : w.distinct = true)
    (h : valueAt? path v = some u) (hsilent : SilentAt path w) :
    valueAt? path (v.merge w) = some u := by
  obtain ⟨hclear, hnull⟩ := hsilent
  rw [valueAt?_merge hpath hv hw (clearTo_of_valueAt? h) hclear, h]
  cases hfound : valueAt? path w with
  | none => rfl
  | some u' =>
      rw [hnull u' hfound]
      rfl

end Yaml.Value

namespace Document

open Yaml Yaml.Value

section Scalars

variable {front back : List Document} {e : Document} {path : List Yaml.Value} {u : Yaml.Value}

/-- What stands in front of a scalar does not count at its path. -/
theorem mergeAll_at_scalar (hdocs : ∀ d ∈ front ++ e :: back, d.value.distinct = true)
    (hpath : ∀ k ∈ path, k.distinct = true) (h : valueAt? path e.value = some u)
    (hscalar : u.isScalar = true) :
    valueAt? path (mergeAll (front ++ e :: back)).value =
      valueAt? path (mergeAll (e :: back)).value := by
  obtain ⟨hfront, hrest⟩ := List.forall_mem_append.mp hdocs
  induction back using List.reverseRecOn with
  | nil =>
      have he : e.value.distinct = true := hrest e List.mem_cons_self
      have htaken : ∀ documents : List Document, (∀ d ∈ documents, d.value.distinct = true) →
          valueAt? path (mergeAll (documents ++ [e])).value = some u := by
        intro documents hdocuments
        rw [mergeAll_concat, value_merge]
        exact valueAt?_merge_of_scalar hpath (distinct_mergeAll hdocuments) he h hscalar
      exact (htaken front hfront).trans (htaken [] (by simp)).symm
  | append_singleton back d ih =>
      obtain ⟨hrest, hd⟩ : (∀ d ∈ e :: back, d.value.distinct = true) ∧
          d.value.distinct = true := by
        rw [← List.cons_append] at hrest
        obtain ⟨hrest, hd⟩ := List.forall_mem_append.mp hrest
        exact ⟨hrest, hd d List.mem_cons_self⟩
      have hall : ∀ d ∈ front ++ e :: back, d.value.distinct = true :=
        List.forall_mem_append.mpr ⟨hfront, hrest⟩
      rw [← List.cons_append, ← List.append_assoc, mergeAll_concat, mergeAll_concat,
        value_merge, value_merge]
      exact valueAt?_merge_congr hpath (distinct_mergeAll hall) (distinct_mergeAll hrest) hd
        (ih hall hrest)

/-- The last scalar at a path stays when all documents behind it are silent there. -/
theorem mergeAll_at_last_scalar (hdocs : ∀ d ∈ front ++ e :: back, d.value.distinct = true)
    (hpath : ∀ k ∈ path, k.distinct = true) (h : valueAt? path e.value = some u)
    (hscalar : u.isScalar = true) (hsilent : ∀ d ∈ back, d.value.SilentAt path) :
    valueAt? path (mergeAll (front ++ e :: back)).value = some u := by
  induction back using List.reverseRecOn with
  | nil =>
      obtain ⟨hfront, he⟩ := List.forall_mem_append.mp hdocs
      rw [mergeAll_concat, value_merge]
      exact valueAt?_merge_of_scalar hpath (distinct_mergeAll hfront) (he e List.mem_cons_self)
        h hscalar
  | append_singleton back d ih =>
      rw [← List.cons_append, ← List.append_assoc] at hdocs ⊢
      obtain ⟨hdocs, hd⟩ := List.forall_mem_append.mp hdocs
      obtain ⟨hsilent, hdsilent⟩ := List.forall_mem_append.mp hsilent
      rw [mergeAll_concat, value_merge]
      exact valueAt?_merge_of_silent hpath (distinct_mergeAll hdocs) (hd d List.mem_cons_self)
        (ih hdocs hsilent) (hdsilent d List.mem_cons_self)

end Scalars

end Document

end Galley
