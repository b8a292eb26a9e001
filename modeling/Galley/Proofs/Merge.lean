import Galley.Document
import Galley.Proofs.DistinctKeys

/-!
The merge of mappings as a union of keys.

A merge of mappings keeps the pairs of the first one in their places, with what the
second one holds for their keys merged in, and appends the pairs whose keys are new
(`Pairs.merge_eq_union`). So the value of a key in a merge is the merge of its values
(`Pairs.find?_merge`), the keys are those of the first mapping and behind them the new
ones (`Pairs.keys_merge`), and keys stay distinct (`Value.distinct_merge`).
-/

namespace Galley

namespace Yaml

/-! ### Merging values -/

namespace Value

@[simp] theorem merge_null (v : Value) : v.merge .null = v := rfl

@[simp] theorem null_merge (v : Value) : Value.null.merge v = v := by
  cases v <;> rfl

@[simp] theorem map_merge_map (as bs : Pairs) :
    (Value.map as).merge (.map bs) = .map (Pairs.merge as bs) := rfl

@[simp] theorem seq_merge_seq (as bs : List Value) :
    (Value.seq as).merge (.seq bs) = .seq (as ++ bs) := rfl

end Value

namespace Pairs

open Value

/-! ### Changing one key -/

/-- A changed key is present afterwards, and nothing else is. -/
theorem contains_update (j k v : Value) (f : Value → Value) (pairs : Pairs) :
    contains j (update k v f pairs) = (contains j pairs || j.same k) := by
  induction pairs with
  | nil => simp [update]
  | cons kv rest ih =>
      rw [update]
      split
      · rename_i hk
        simp only [contains_cons]
        cases hj : j.same k with
        | true => simp [same_trans hj hk]
        | false => simp
      · rw [contains_cons, contains_cons, ih, Bool.or_assoc]

/-- Changing a key keeps keys distinct when the change does. -/
theorem distinct_update {k v : Value} {f : Value → Value} {pairs : Pairs}
    (hk : k.distinct = true) (hv : v.distinct = true)
    (hf : ∀ old, old.distinct = true → (f old).distinct = true)
    (hpairs : distinctPairs pairs = true) : distinctPairs (update k v f pairs) = true := by
  induction pairs with
  | nil => simp [update, distinctPairs, hk, hv]
  | cons kv rest ih =>
      obtain ⟨j, old⟩ := kv
      obtain ⟨hj, hold, hnew, hrest⟩ := distinctPairs_cons_iff.mp hpairs
      rw [update]
      split
      · exact distinctPairs_cons_iff.mpr ⟨hj, hf old hold, hnew, hrest⟩
      · rename_i hkj
        have hjk : j.same k = false := by
          rw [same_comm hj hk]
          simpa using hkj
        have hnew' : contains j (update k v f rest) = false := by
          rw [contains_update, hjk, hnew, Bool.or_false]
        exact distinctPairs_cons_iff.mpr ⟨hj, hold, hnew', ih hrest⟩

/-- A key that is present is changed at its place. -/
theorem update_of_contains {k v : Value} {f : Value → Value} {pairs : Pairs}
    (hk : k.distinct = true) (hpairs : distinctPairs pairs = true)
    (h : contains k pairs = true) :
    update k v f pairs = pairs.map fun kv => if k.same kv.1 then (kv.1, f kv.2) else kv := by
  induction pairs with
  | nil => cases h
  | cons kv rest ih =>
      obtain ⟨j, old⟩ := kv
      obtain ⟨hj, -, hnew, hrest⟩ := distinctPairs_cons_iff.mp hpairs
      rw [update, List.map_cons]
      split
      · rename_i hkj
        have hothers : contains k rest = false := by
          rw [contains_congr hk hj hkj, hnew]
        rw [List.map_congr_left (g := id), List.map_id]
        intro b hb
        simp [contains_eq_false_iff.mp hothers b hb]
      · rename_i hkj
        rw [ih hrest (by simpa [hkj] using h)]

/-- A key that is new is appended. -/
theorem update_of_not_contains {k v : Value} {f : Value → Value} {pairs : Pairs}
    (h : contains k pairs = false) : update k v f pairs = pairs ++ [(k, v)] := by
  induction pairs with
  | nil => rfl
  | cons kv rest ih =>
      rw [contains_cons, Bool.or_eq_false_iff] at h
      rw [update, if_neg (by simp [h.1]), ih h.2]
      rfl

/-! ### The union of keys -/

/-- The value of a pair with what a mapping holds for its key merged in. -/
def mergeFound (incoming : Pairs) (kv : Value × Value) : Value × Value :=
  (kv.1, kv.2.merge ((find? kv.1 incoming).getD .null))

/-- The pairs of a mapping in their places, with what another one holds for their keys
merged in, and behind them the pairs of the other one whose keys are new. -/
def union (base incoming : Pairs) : Pairs :=
  base.map (mergeFound incoming) ++ incoming.filter fun kv => !contains kv.1 base

theorem mergeFound_of_find?_eq_none {incoming : Pairs} {kv : Value × Value}
    (h : find? kv.1 incoming = none) : mergeFound incoming kv = kv := by
  rw [mergeFound, h]
  rfl

/-- Only what is found for the key counts for a merged pair. -/
theorem mergeFound_cons_of_ne {k v : Value} {rest : Pairs} {kv : Value × Value}
    (h : kv.1.same k = false) : mergeFound ((k, v) :: rest) kv = mergeFound rest kv := by
  rw [mergeFound, mergeFound, find?_cons, if_neg (by simp [h])]

/-- What a changed pair of the base makes with the rest of the incoming pairs. -/
theorem mergeFound_change {k v : Value} {rest : Pairs} {kv : Value × Value}
    (hk : k.distinct = true) (hkv : kv.1.distinct = true) (hnew : contains k rest = false) :
    mergeFound rest (if k.same kv.1 then (kv.1, kv.2.merge v) else kv) =
      mergeFound ((k, v) :: rest) kv := by
  cases h : k.same kv.1 with
  | true =>
      have hback : kv.1.same k = true := same_symm hk hkv h
      have hnone : find? kv.1 rest = none := by
        rw [find?_congr hkv hk hback, find?_eq_none_iff, hnew]
      simp only [if_true, mergeFound, hnone, find?_cons, hback, Option.getD_none,
        Option.getD_some, merge_null]
  | false =>
      rw [if_neg (by simp), mergeFound_cons_of_ne]
      rw [same_comm hkv hk, h]

/-- Merging in one pair and then the union with the rest is the union with all. -/
theorem union_update {k v : Value} {base rest : Pairs} (hbase : distinctPairs base = true)
    (hincoming : distinctPairs ((k, v) :: rest) = true) :
    union (update k v (fun old => old.merge v) base) rest = union base ((k, v) :: rest) := by
  obtain ⟨hdistinct, -⟩ := distinctPairs_iff.mp hbase
  obtain ⟨hk, -, hnew, hpairs⟩ := distinctPairs_cons_iff.mp hincoming
  obtain ⟨hrest, -⟩ := distinctPairs_iff.mp hpairs
  -- The filter sees the same keys, as no other incoming key is `k`.
  have hfilter : rest.filter (fun kv => !contains kv.1 (update k v (fun old => old.merge v) base)) =
      rest.filter fun kv => !contains kv.1 base := by
    apply List.filter_congr
    intro b hb
    have hbk : b.1.same k = false := by
      rw [same_comm (hrest b hb).1 hk]
      exact contains_eq_false_iff.mp hnew b hb
    rw [contains_update, hbk, Bool.or_false]
  rw [union, hfilter, union]
  cases hcontains : contains k base with
  | true =>
      rw [update_of_contains hk hbase hcontains, List.map_map,
        List.filter_cons_of_neg (by simp [hcontains])]
      congr 1
      exact List.map_congr_left fun kv hkv => mergeFound_change hk (hdistinct kv hkv).1 hnew
  | false =>
      have hmap : base.map (mergeFound rest) = base.map (mergeFound ((k, v) :: rest)) := by
        refine List.map_congr_left fun kv hkv => (mergeFound_cons_of_ne ?_).symm
        rw [same_comm (hdistinct kv hkv).1 hk]
        exact contains_eq_false_iff.mp hcontains kv hkv
      rw [update_of_not_contains hcontains, List.filter_cons_of_pos (by simp [hcontains]),
        List.map_append, hmap, List.map_singleton,
        mergeFound_of_find?_eq_none (find?_eq_none_iff.mpr hnew), List.append_assoc]
      rfl

end Pairs

/-! ### Distinct keys stay distinct -/

namespace Value

open Pairs

/-- A merge of mappings keeps keys distinct when the merges of their values do. -/
theorem distinct_mergePairs {base incoming : Pairs}
    (hvalues : ∀ kv ∈ incoming, ∀ old : Value, old.distinct = true →
      kv.2.distinct = true → (old.merge kv.2).distinct = true)
    (hbase : distinctPairs base = true) (hincoming : distinctPairs incoming = true) :
    distinctPairs (Pairs.merge base incoming) = true := by
  induction incoming generalizing base with
  | nil => exact hbase
  | cons kv rest ih =>
      obtain ⟨k, v⟩ := kv
      obtain ⟨hv, hvalues⟩ := List.forall_mem_cons.mp hvalues
      obtain ⟨hk, hvdistinct, -, hrest⟩ := distinctPairs_cons_iff.mp hincoming
      exact ih hvalues
        (distinct_update hk hvdistinct (fun old hold => hv old hold hvdistinct) hbase) hrest

/-- Merging keeps keys distinct. -/
theorem distinct_merge {v w : Value} (hv : v.distinct = true) (hw : w.distinct = true) :
    (v.merge w).distinct = true := by
  induction w using induct generalizing v with
  | null => exact hv
  | bool b => exact hw
  | number n => exact hw
  | text s => exact hw
  | tagged tag w => exact hw
  | seq items ih =>
      cases v <;> try exact hw
      rename_i items'
      replace hv := distinctItems_iff.mp hv
      replace hw := distinctItems_iff.mp hw
      exact distinctItems_iff.mpr (List.forall_mem_append.mpr ⟨hv, hw⟩)
  | map pairs ih =>
      cases v <;> try exact hw
      rename_i base
      exact distinct_mergePairs (fun kv hkv old hold hkv' => (ih kv hkv).2 hold hkv') hv hw

end Value

namespace Pairs

open Value

theorem distinct_merge {base incoming : Pairs} (hbase : distinctPairs base = true)
    (hincoming : distinctPairs incoming = true) : distinctPairs (merge base incoming) = true :=
  distinct_mergePairs (fun _ _ _ hold hv => Value.distinct_merge hold hv) hbase hincoming

/-- A merge of mappings is the union of their keys. -/
theorem merge_eq_union {base incoming : Pairs} (hbase : distinctPairs base = true)
    (hincoming : distinctPairs incoming = true) : merge base incoming = union base incoming := by
  induction incoming generalizing base with
  | nil =>
      have hmap : base.map (mergeFound []) = base :=
        List.map_id'' (fun _ => mergeFound_of_find?_eq_none rfl) base
      rw [merge, union, hmap, List.filter_nil, List.append_nil]
  | cons kv rest ih =>
      obtain ⟨k, v⟩ := kv
      obtain ⟨hk, hv, -, hrest⟩ := distinctPairs_cons_iff.mp hincoming
      have hupdate : distinctPairs (update k v (fun old => old.merge v) base) = true :=
        distinct_update hk hv (fun old hold => Value.distinct_merge hold hv) hbase
      rw [merge, ih hupdate hrest, union_update hbase hincoming]

theorem find?_append (k : Value) (as bs : Pairs) :
    find? k (as ++ bs) = (find? k as).or (find? k bs) := by
  rw [find?, List.find?_append, Option.map_or]
  rfl

theorem find?_map_mergeFound {k : Value} {base : Pairs} (hk : k.distinct = true)
    (hbase : ∀ kv ∈ base, kv.1.distinct = true) (incoming : Pairs) :
    find? k (base.map (mergeFound incoming)) =
      (find? k base).map fun v => v.merge ((find? k incoming).getD .null) := by
  induction base with
  | nil => rfl
  | cons kv rest ih =>
      obtain ⟨hkv, hrest⟩ := List.forall_mem_cons.mp hbase
      rw [List.map_cons, find?_cons, find?_cons, ih hrest]
      cases h : k.same kv.1 with
      | true => simp [mergeFound, h, find?_congr hk hkv h]
      | false => simp [mergeFound, h]

/-- A key that a mapping lacks finds the same among the pairs whose keys it lacks. -/
theorem find?_filter_new {k : Value} {base incoming : Pairs} (hk : k.distinct = true)
    (hincoming : ∀ kv ∈ incoming, kv.1.distinct = true) (h : contains k base = false) :
    find? k (incoming.filter fun kv => !contains kv.1 base) = find? k incoming := by
  induction incoming with
  | nil => rfl
  | cons kv rest ih =>
      obtain ⟨hkv, hrest⟩ := List.forall_mem_cons.mp hincoming
      cases hnew : contains kv.1 base with
      | false => rw [List.filter_cons_of_pos (by simp [hnew]), find?_cons, find?_cons, ih hrest]
      | true =>
          have hne : ¬ k.same kv.1 = true := fun heq => by
            rw [contains_congr hk hkv heq, hnew] at h
            cases h
          rw [List.filter_cons_of_neg (by simp [hnew]), find?_cons, if_neg hne, ih hrest]

/-- What a merge holds for a key is the merge of what the mappings hold for it. -/
theorem find?_merge {k : Value} {base incoming : Pairs} (hk : k.distinct = true)
    (hbase : distinctPairs base = true) (hincoming : distinctPairs incoming = true) :
    find? k (merge base incoming) =
      Option.merge Value.merge (find? k base) (find? k incoming) := by
  have hbaseKeys : ∀ kv ∈ base, kv.1.distinct = true :=
    fun kv hkv => ((distinctPairs_iff.mp hbase).1 kv hkv).1
  have hincomingKeys : ∀ kv ∈ incoming, kv.1.distinct = true :=
    fun kv hkv => ((distinctPairs_iff.mp hincoming).1 kv hkv).1
  rw [merge_eq_union hbase hincoming, union, find?_append,
    find?_map_mergeFound hk hbaseKeys]
  cases hfound : find? k base with
  | none =>
      rw [find?_filter_new hk hincomingKeys (find?_eq_none_iff.mp hfound)]
      simp
  | some v => cases find? k incoming <;> simp

/-- The keys of a merge are those of the base and behind them the new ones. -/
theorem keys_merge {base incoming : Pairs} (hbase : distinctPairs base = true)
    (hincoming : distinctPairs incoming = true) :
    (merge base incoming).map Prod.fst = base.map Prod.fst ++
      (incoming.map Prod.fst).filter fun k => !(base.map Prod.fst).any k.same := by
  rw [merge_eq_union hbase hincoming, union, List.map_append, List.map_map, List.filter_map]
  congr 1
  congr 1
  apply List.filter_congr
  intro kv _
  simp [contains, List.any_map, Function.comp_def]

end Pairs

end Yaml

end Galley
