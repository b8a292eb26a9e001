import Galley.Fields
import Mathlib.Data.List.Forall2
import Mathlib.Data.List.Induction
import Mathlib.Data.List.Sort
import Mathlib.Data.String.Basic

/-!
Fields sorted by key.

Insertion keeps fields sorted (`sorted_insert`), so that a list built by insertion holds
each key once: inserting a key that is there keeps the keys (`keys_insert_of_mem`), and any
other key adds one (`perm_keys_insert_of_notMem`). Of several fields that are inserted, the
last one of a key stays (`find?_insertAll`). Sorted fields are told by what is found in them
(`forall₂_of_find?`, `eq_of_find?_eq`).
-/

namespace Galley.Fields

variable {β γ : Type} {j k : String} {v : β} {fields more : List (String × β)}

/-! ### Keys -/

theorem find?_eq_none_iff : find? k fields = none ↔ k ∉ keys fields := by
  induction fields with
  | nil => simp [keys]
  | cons kv rest ih =>
      obtain ⟨k', v'⟩ := kv
      by_cases h : k' = k
      · simp [find?, keys, h]
      · simp [find?, keys, h, ih, Ne.symm h]

theorem mem_of_find? (h : find? k fields = some v) : (k, v) ∈ fields := by
  induction fields with
  | nil => cases h
  | cons kv rest ih =>
      obtain ⟨k', v'⟩ := kv
      rw [find?] at h
      split at h
      · rename_i hk
        cases h
        rw [hk]
        exact List.mem_cons_self
      · exact List.mem_cons_of_mem _ (ih h)

/-- Nothing is found from the back when nothing is found from the front. -/
theorem find?_reverse_eq_none_iff : find? k fields.reverse = none ↔ k ∉ keys fields := by
  rw [find?_eq_none_iff, keys, List.map_reverse, List.mem_reverse]
  rfl

theorem contains_iff : contains k fields = true ↔ k ∈ keys fields := by
  rw [contains, Option.isSome_iff_ne_none, ne_eq, find?_eq_none_iff, not_not]

theorem find?_append (k : String) (front back : List (String × β)) :
    find? k (front ++ back) = (find? k front).or (find? k back) := by
  induction front with
  | nil => rfl
  | cons kv front ih =>
      obtain ⟨k', v'⟩ := kv
      rw [List.cons_append, find?, find?, ih]
      by_cases h : k' = k
      · simp [h]
      · simp [h]

theorem sorted_nil : Sorted ([] : List (String × β)) :=
  List.Pairwise.nil

theorem sorted_cons_iff :
    Sorted ((k, v) :: fields) ↔ (∀ j ∈ keys fields, k < j) ∧ Sorted fields :=
  List.pairwise_cons

theorem nodup_keys (h : Sorted fields) : (keys fields).Nodup :=
  h.imp fun hlt => hlt.ne

theorem mem_keys_insert : j ∈ keys (insert k v fields) ↔ j = k ∨ j ∈ keys fields := by
  by_cases h : j = k
  · have hfound : j ∈ keys (insert k v fields) := by
      by_contra hnot
      rw [← find?_eq_none_iff, h, find?_insert_self] at hnot
      cases hnot
    simp [h ▸ hfound, h]
  · have hsame := find?_insert_of_ne h v fields
    have hiff : j ∉ keys (insert k v fields) ↔ j ∉ keys fields := by
      rw [← find?_eq_none_iff, ← find?_eq_none_iff, hsame]
    simp [h, not_iff_not.mp hiff]

/-! ### Insertion -/

/-- Insertion keeps fields sorted. -/
theorem sorted_insert (h : Sorted fields) : Sorted (insert k v fields) := by
  induction fields with
  | nil => exact List.pairwise_singleton _ _
  | cons kv rest ih =>
      obtain ⟨k', v'⟩ := kv
      obtain ⟨hfront, hrest⟩ := sorted_cons_iff.mp h
      rw [insert]
      by_cases heq : k = k'
      · rw [if_pos heq]
        exact sorted_cons_iff.mpr ⟨heq ▸ hfront, hrest⟩
      · rw [if_neg heq]
        by_cases hlt : k < k'
        · rw [if_pos hlt]
          refine sorted_cons_iff.mpr ⟨?_, h⟩
          intro j hj
          rcases List.mem_cons.mp hj with rfl | hj
          · exact hlt
          · exact hlt.trans (hfront j hj)
        · rw [if_neg hlt]
          refine sorted_cons_iff.mpr ⟨?_, ih hrest⟩
          intro j hj
          rcases mem_keys_insert.mp hj with rfl | hj
          · exact lt_of_le_of_ne (not_lt.mp hlt) (Ne.symm heq)
          · exact hfront j hj

theorem keys_insert_of_mem (h : Sorted fields) (hk : k ∈ keys fields) :
    keys (insert k v fields) = keys fields := by
  induction fields with
  | nil => cases hk
  | cons kv rest ih =>
      obtain ⟨k', v'⟩ := kv
      obtain ⟨hfront, hrest⟩ := sorted_cons_iff.mp h
      rw [insert]
      rcases List.mem_cons.mp hk with heq | hk
      · rw [if_pos heq, heq]
        rfl
      · have hlt : k' < k := hfront k hk
        rw [if_neg hlt.ne', if_neg hlt.not_gt]
        exact congrArg (k' :: ·) (ih hrest hk)

theorem perm_keys_insert_of_notMem (hk : k ∉ keys fields) :
    (keys (insert k v fields)).Perm (k :: keys fields) := by
  induction fields with
  | nil => exact .refl _
  | cons kv rest ih =>
      obtain ⟨k', v'⟩ := kv
      obtain ⟨hne, hrest⟩ := not_or.mp (mt List.mem_cons.mpr hk)
      rw [insert, if_neg hne]
      split
      · exact .refl _
      · exact ((ih hrest).cons k').trans (.swap k k' _)

/-! ### Insertion of several fields -/

theorem insertAll_append (front back : List (String × β)) :
    insertAll fields (front ++ back) = insertAll (insertAll fields front) back :=
  List.foldl_append

/-- The last value that was inserted under a key is found. -/
theorem find?_insertAll :
    find? k (insertAll fields more) = (find? k more.reverse).or (find? k fields) := by
  induction more using List.reverseRecOn with
  | nil => rfl
  | append_singleton more field ih =>
      obtain ⟨k', v⟩ := field
      have hlast : find? k (insertAll fields (more ++ [(k', v)])) =
          if k = k' then some v else find? k (insertAll fields more) := by
        rw [insertAll_append]
        exact find?_insert k' k v _
      rw [hlast, ih, List.reverse_concat, find?]
      by_cases hk : k = k'
      · simp [hk]
      · simp [hk, Ne.symm hk]

theorem sorted_insertAll (h : Sorted fields) : Sorted (insertAll fields more) := by
  induction more generalizing fields with
  | nil => exact h
  | cons field more ih => exact ih (sorted_insert h)

theorem find?_ofPairs : find? k (ofPairs fields) = find? k fields.reverse := by
  rw [ofPairs, find?_insertAll, find?_nil, Option.or_none]

theorem sorted_ofPairs : Sorted (ofPairs fields) :=
  sorted_insertAll sorted_nil

/-! ### Distinct keys -/

/-- Fields with distinct keys are found from the back as they are from the front. -/
theorem find?_reverse (h : (keys fields).Nodup) : find? k fields.reverse = find? k fields := by
  induction fields with
  | nil => rfl
  | cons field rest ih =>
      obtain ⟨k', v⟩ := field
      obtain ⟨hnew, hrest⟩ := List.nodup_cons.mp h
      rw [List.reverse_cons, find?_append, ih hrest]
      by_cases hk : k' = k
      · have hnone : find? k rest = none := find?_eq_none_iff.mpr (hk ▸ hnew)
        simp [find?, hk, hnone]
      · simp [find?, hk]

theorem find?_eq_some_iff_mem (h : (keys fields).Nodup) :
    find? k fields = some v ↔ (k, v) ∈ fields := by
  refine ⟨mem_of_find?, fun hmem => ?_⟩
  induction fields with
  | nil => cases hmem
  | cons field rest ih =>
      obtain ⟨k', v'⟩ := field
      obtain ⟨hnew, hrest⟩ := List.nodup_cons.mp h
      rcases List.mem_cons.mp hmem with heq | hmem
      · cases heq
        exact if_pos rfl
      · have hne : k' ≠ k := fun hk => hnew (List.mem_map.mpr ⟨_, hmem, hk.symm⟩)
        rw [find?, if_neg hne, ih hrest hmem]

/-- A test of fields is made on what is found. -/
theorem find?_filter (h : (keys fields).Nodup) (p : String × β → Bool) :
    find? k (fields.filter p) = (find? k fields).filter fun v => p (k, v) := by
  induction fields with
  | nil => rfl
  | cons field rest ih =>
      obtain ⟨k', v⟩ := field
      obtain ⟨hnew, hrest⟩ := List.nodup_cons.mp h
      by_cases hk : k' = k
      · subst hk
        have hnone : find? k' rest = none := find?_eq_none_iff.mpr hnew
        by_cases hp : p (k', v) = true
        · simp [find?, hp, Option.filter]
        · simp [find?, hp, ih hrest, hnone, Option.filter]
      · by_cases hp : p (k', v) = true
        · simp [find?, hp, hk, ih hrest]
        · simp [find?, hp, hk, ih hrest]

/-- A test of keys is made on the key that is looked up. -/
theorem find?_filter_keys (q : String → Bool) :
    find? k (fields.filter fun f => q f.1) = if q k then find? k fields else none := by
  induction fields with
  | nil => simp
  | cons field rest ih =>
      obtain ⟨k', v⟩ := field
      by_cases hk : k' = k
      · subst hk
        by_cases hq : q k' = true
        · simp [find?, hq]
        · simp [hq, ih]
      · by_cases hq : q k' = true
        · simp [find?, hq, hk, ih]
        · simp [find?, hq, hk, ih]

theorem find?_map (f : β → γ) :
    find? k (fields.map fun kv => (kv.1, f kv.2)) = (find? k fields).map f := by
  induction fields with
  | nil => rfl
  | cons field rest ih =>
      obtain ⟨k', v⟩ := field
      rw [List.map_cons, find?, find?, ih]
      split <;> rfl

/-- What is made of keys is found under the keys of which something is made. -/
theorem find?_filterMap {names : List String} {f : String → Option β} :
    find? k (names.filterMap fun a => (f a).map fun v => (a, v)) =
      if k ∈ names then f k else none := by
  induction names with
  | nil => rfl
  | cons a names ih =>
      cases hf : f a with
      | none =>
          rw [List.filterMap_cons_none (by rw [hf]; rfl), ih]
          by_cases hk : k = a
          · simp [hk, hf]
          · simp [hk]
      | some v =>
          rw [List.filterMap_cons_some (b := (a, v)) (by rw [hf]; rfl), find?, ih]
          by_cases hk : k = a
          · simp [hk, hf]
          · simp [hk, Ne.symm hk]

theorem keys_filterMap_sublist {names : List String} {f : String → Option β} :
    (keys (names.filterMap fun a => (f a).map fun v => (a, v))).Sublist names := by
  induction names with
  | nil => exact .slnil
  | cons a names ih =>
      cases hf : f a with
      | none =>
          rw [List.filterMap_cons_none (by rw [hf]; rfl)]
          exact ih.cons a
      | some v =>
          rw [List.filterMap_cons_some (b := (a, v)) (by rw [hf]; rfl)]
          exact ih.cons_cons a

theorem sorted_filter (h : Sorted fields) (p : String × β → Bool) : Sorted (fields.filter p) :=
  List.Pairwise.sublist (List.filter_sublist.map _) h

/-! ### Equality -/

/-- Sorted fields that are related wherever they are looked up are related one by one. -/
theorem forall₂_of_find? {R : β → γ → Prop} {others : List (String × γ)} (hf : Sorted fields)
    (ho : Sorted others) (h : ∀ k, Option.Rel R (find? k fields) (find? k others)) :
    List.Forall₂ (fun f g => f.1 = g.1 ∧ R f.2 g.2) fields others := by
  have hkeys : keys fields = keys others := by
    refine List.Pairwise.eq_of_mem_iff hf ho fun k => ?_
    rw [← not_iff_not, ← find?_eq_none_iff, ← find?_eq_none_iff]
    have hk := h k
    generalize find? k fields = found at hk
    generalize find? k others = found' at hk
    cases hk <;> simp
  induction fields generalizing others with
  | nil =>
      cases others with
      | nil => exact .nil
      | cons kv rest => cases hkeys
  | cons kv rest ih =>
      obtain ⟨k, v⟩ := kv
      cases others with
      | nil => cases hkeys
      | cons kv' rest' =>
          obtain ⟨k', v'⟩ := kv'
          obtain ⟨hk, hrest⟩ := List.cons.inj hkeys
          replace hk : k = k' := hk
          subst hk
          obtain ⟨hfront, hf⟩ := sorted_cons_iff.mp hf
          obtain ⟨hfront', ho⟩ := sorted_cons_iff.mp ho
          have hv : R v v' := by simpa [find?] using h k
          -- Neither rest has the first key again, and what is found for another key is found there.
          have hfound : ∀ j, Option.Rel R (find? j rest) (find? j rest') := by
            intro j
            by_cases hj : k = j
            · have hnone : find? j rest = none :=
                find?_eq_none_iff.mpr fun hin => absurd (hfront j hin) (hj ▸ lt_irrefl _)
              have hnone' : find? j rest' = none :=
                find?_eq_none_iff.mpr fun hin => absurd (hfront' j hin) (hj ▸ lt_irrefl _)
              rw [hnone, hnone']
              exact .none
            · have := h j
              rwa [find?, find?, if_neg hj, if_neg hj] at this
          exact .cons ⟨rfl, hv⟩ (ih hf ho hfound hrest)

/-- Fields that are related one by one are related wherever they are looked up. -/
theorem rel_find? {R : β → γ → Prop} {others : List (String × γ)}
    (h : List.Forall₂ (fun f g => f.1 = g.1 ∧ R f.2 g.2) fields others) (k : String) :
    Option.Rel R (find? k fields) (find? k others) := by
  induction h with
  | nil => exact .none
  | cons hfield _ ih =>
      rw [find?, find?, hfield.1]
      split
      · exact .some hfield.2
      · exact ih

/-- Sorted fields in which the same is found are the same. -/
theorem eq_of_find?_eq (hf : Sorted fields) (hm : Sorted more)
    (h : ∀ k, find? k fields = find? k more) : fields = more := by
  have hrel := forall₂_of_find? (R := Eq) hf hm fun k => by
    rw [h k]
    cases find? k more with
    | none => exact .none
    | some v => exact .some rfl
  exact List.forall₂_eq_eq_eq ▸ hrel.imp fun _ _ hfield => Prod.ext hfield.1 hfield.2

theorem ofPairs_of_sorted (h : Sorted fields) : ofPairs fields = fields :=
  eq_of_find?_eq sorted_ofPairs h fun _ => find?_ofPairs.trans (find?_reverse (nodup_keys h))

end Galley.Fields
