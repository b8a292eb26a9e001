import Galley.Proofs.MergePaths

/-!
Grouping of merges.

Merging is not associative: between two mappings, or two sequences, a value of another
kind replaces the first of them, and grouped the other way it is replaced itself
(`Interrupts`). Where that happens at no path, the grouping does not matter
(`Value.merge_assoc`). A null and an empty document never count, and merging documents
may stop and go on at any place of the list (`merge_grouping`).
-/

namespace Galley

namespace Yaml

namespace Value

open Pairs

/-- Between two mappings, or two sequences, stands a value of another kind that is
not null. -/
inductive Interrupts : Value → Value → Value → Prop where
  | map {as cs : Pairs} {b : Value} : b ≠ .null → (∀ bs, b ≠ .map bs) →
      Interrupts (.map as) b (.map cs)
  | seq {as cs : List Value} {b : Value} : b ≠ .null → (∀ bs, b ≠ .seq bs) →
      Interrupts (.seq as) b (.seq cs)

/-- At no path of keys the second value interrupts the first and the third. -/
def Compatible (a b c : Value) : Prop :=
  ∀ path x y z, (∀ k ∈ path, k.distinct = true) → valueAt? path a = some x →
    valueAt? path b = some y → valueAt? path c = some z → ¬ Interrupts x y z

theorem Compatible.front {a b c : Value} (h : Compatible a b c) : ¬ Interrupts a b c :=
  h [] a b c (by simp) rfl rfl rfl

theorem Compatible.tail {k : Value} {as bs cs : Pairs} {a b c : Value}
    (h : Compatible (.map as) (.map bs) (.map cs)) (hk : k.distinct = true)
    (ha : find? k as = some a) (hb : find? k bs = some b) (hc : find? k cs = some c) :
    Compatible a b c := by
  intro path x y z hpath hx hy hz
  refine h (k :: path) x y z (List.forall_mem_cons.mpr ⟨hk, hpath⟩) ?_ ?_ ?_
  · rw [valueAt?, ha]
    exact hx
  · rw [valueAt?, hb]
    exact hy
  · rw [valueAt?, hc]
    exact hz

/-- Mappings are compatible when their values of common keys are. -/
theorem Compatible.map {as bs cs : Pairs}
    (h : ∀ k a b c, k.distinct = true → find? k as = some a → find? k bs = some b →
      find? k cs = some c → Compatible a b c) :
    Compatible (.map as) (.map bs) (.map cs) := by
  intro path x y z hpath hx hy hz
  cases path with
  | nil =>
      cases hy
      intro hinterrupts
      cases hinterrupts with
      | map _ hne => exact hne bs rfl
      | seq => cases hx
  | cons k path =>
      obtain ⟨hk, hpath⟩ := List.forall_mem_cons.mp hpath
      rw [valueAt?] at hx hy hz
      obtain ⟨a, ha, hx⟩ := Option.bind_eq_some_iff.mp hx
      obtain ⟨b, hb, hy⟩ := Option.bind_eq_some_iff.mp hy
      obtain ⟨c, hc, hz⟩ := Option.bind_eq_some_iff.mp hz
      exact h k a b c hk ha hb hc path x y z hpath hx hy hz

/-- A null interrupts nothing. -/
theorem Compatible.null (a c : Value) : Compatible a .null c := by
  intro path x y z _ _ hy _ hinterrupts
  cases path with
  | nil =>
      cases hy
      cases hinterrupts with
      | map hne => exact hne rfl
      | seq hne => exact hne rfl
  | cons k path => cases hy

/-! ### Values that replace others -/

/-- A value that is not null replaces what it is merged into, unless both are mappings
or both are sequences. -/
theorem merge_eq_right {a b : Value} (hnull : b ≠ .null)
    (hmap : ∀ as bs, a = .map as → b ≠ .map bs) (hseq : ∀ as bs, a = .seq as → b ≠ .seq bs) :
    a.merge b = b := by
  cases b with
  | null => exact absurd rfl hnull
  | map bs =>
      cases a with
      | map as => exact absurd rfl (hmap as bs rfl)
      | _ => rfl
  | seq bs =>
      cases a with
      | seq as => exact absurd rfl (hseq as bs rfl)
      | _ => rfl
  | _ => rfl

theorem merge_ne_null {b c : Value} (hb : b ≠ .null) : b.merge c ≠ .null := by
  cases c with
  | null => exact hb
  | map cs => cases b <;> exact Value.noConfusion
  | seq cs => cases b <;> exact Value.noConfusion
  | _ => exact Value.noConfusion

/-- A merge is a mapping only when one of the values is. -/
theorem eq_map_of_merge_eq_map {b c : Value} {ds : Pairs} (h : b.merge c = .map ds) :
    (∃ bs, b = .map bs) ∨ ∃ cs, c = .map cs := by
  cases c with
  | null => exact .inl ⟨ds, h⟩
  | map cs => exact .inr ⟨cs, rfl⟩
  | seq cs => cases b <;> cases h
  | _ => cases h

/-- A merge is a sequence only when one of the values is. -/
theorem eq_seq_of_merge_eq_seq {b c : Value} {ds : List Value} (h : b.merge c = .seq ds) :
    (∃ bs, b = .seq bs) ∨ ∃ cs, c = .seq cs := by
  cases c with
  | null => exact .inl ⟨ds, h⟩
  | seq cs => exact .inr ⟨cs, rfl⟩
  | map cs => cases b <;> cases h
  | _ => cases h

/-- A value that replaces the first one does so in every grouping, unless it
interrupts the first and the third. -/
theorem merge_assoc_of_replaced {a b c : Value}
    (hmap : ∀ as bs, a = .map as → b ≠ .map bs) (hseq : ∀ as bs, a = .seq as → b ≠ .seq bs)
    (h : ¬ Interrupts a b c) : (a.merge b).merge c = a.merge (b.merge c) := by
  by_cases hnull : b = .null
  · rw [hnull, merge_null, null_merge]
  · rw [merge_eq_right hnull hmap hseq]
    refine (merge_eq_right (merge_ne_null hnull) ?_ ?_).symm
    · rintro as ds rfl hds
      rcases eq_map_of_merge_eq_map hds with ⟨bs, hb⟩ | ⟨cs, rfl⟩
      · exact hmap as bs rfl hb
      · exact h (.map hnull fun bs => hmap as bs rfl)
    · rintro as ds rfl hds
      rcases eq_seq_of_merge_eq_seq hds with ⟨bs, hb⟩ | ⟨cs, rfl⟩
      · exact hseq as bs rfl hb
      · exact h (.seq hnull fun bs => hseq as bs rfl)

end Value

namespace Pairs

open Value

/-! ### Mappings -/

/-- A merge of mappings holds the keys of both. -/
theorem contains_merge (k : Value) (as bs : Pairs) :
    contains k (merge as bs) = (contains k as || contains k bs) := by
  induction bs generalizing as with
  | nil => simp [merge]
  | cons kv bs ih => rw [merge, ih, contains_update, contains_cons, Bool.or_assoc]

/-- Merges of mappings may be grouped when those of the values of a common key may. -/
theorem merge_assoc {as bs cs : Pairs} (ha : distinctPairs as = true)
    (hb : distinctPairs bs = true) (hc : distinctPairs cs = true)
    (hvalues : ∀ kv ∈ as, ∀ b c, find? kv.1 bs = some b → find? kv.1 cs = some c →
      (kv.2.merge b).merge c = kv.2.merge (b.merge c)) :
    merge (merge as bs) cs = merge as (merge bs cs) := by
  have hab : distinctPairs (merge as bs) = true := distinct_merge ha hb
  have hbc : distinctPairs (merge bs cs) = true := distinct_merge hb hc
  -- Both groupings list the keys of `as`, then the new ones of `bs`, then those of `cs` that are
  -- new to both. The three facts are about these three parts.
  have hfirst : (as.map (mergeFound bs)).map (mergeFound cs) =
      as.map (mergeFound (merge bs cs)) := by
    rw [List.map_map]
    apply List.map_congr_left
    intro kv hkv
    have hk : kv.1.distinct = true := ((distinctPairs_iff.mp ha).1 kv hkv).1
    simp only [Function.comp_apply, mergeFound, find?_merge hk hb hc]
    cases hfb : find? kv.1 bs with
    | none => simp
    | some b =>
        cases hfc : find? kv.1 cs with
        | none => simp
        | some c => simp [hvalues kv hkv b c hfb hfc]
  have hsecond : (bs.filter fun kv => !contains kv.1 as).map (mergeFound cs) =
      (bs.map (mergeFound cs)).filter fun kv => !contains kv.1 as := by
    rw [List.filter_map]
    rfl
  have hthird : cs.filter (fun kv => !contains kv.1 (merge as bs)) =
      (cs.filter fun kv => !contains kv.1 bs).filter fun kv => !contains kv.1 as := by
    rw [List.filter_filter]
    apply List.filter_congr
    intro kv _
    rw [contains_merge, Bool.not_or]
  calc merge (merge as bs) cs
      = (merge as bs).map (mergeFound cs) ++
          cs.filter fun kv => !contains kv.1 (merge as bs) := merge_eq_union hab hc
    _ = as.map (mergeFound (merge bs cs)) ++
          (bs.map (mergeFound cs)).filter (fun kv => !contains kv.1 as) ++
            (cs.filter fun kv => !contains kv.1 bs).filter (fun kv => !contains kv.1 as) := by
        rw [hthird, merge_eq_union ha hb, union, List.map_append, hfirst, hsecond]
    _ = as.map (mergeFound (merge bs cs)) ++
          (merge bs cs).filter fun kv => !contains kv.1 as := by
        rw [List.append_assoc, ← List.filter_append, merge_eq_union hb hc]
        rfl
    _ = merge as (merge bs cs) := (merge_eq_union ha hbc).symm

end Pairs

namespace Value

open Pairs

/-- Merges may be grouped where no value interrupts. -/
theorem merge_assoc {a b c : Value} (ha : a.distinct = true) (hb : b.distinct = true)
    (hc : c.distinct = true) (h : Compatible a b c) :
    (a.merge b).merge c = a.merge (b.merge c) := by
  -- Only three mappings are merged part by part, and the induction goes down into their values.
  induction a using induct generalizing b c with
  | map as ih =>
      cases b with
      | map bs =>
          cases c with
          | map cs =>
              refine congrArg Value.map (Pairs.merge_assoc ha hb hc ?_)
              intro kv hkv b c hfb hfc
              obtain ⟨hk, hv⟩ := (distinctPairs_iff.mp ha).1 kv hkv
              exact (ih kv hkv).2 hv (distinct_of_find? hb hfb) (distinct_of_find? hc hfc)
                (h.tail hk (find?_of_mem ha hkv) hfb hfc)
          | _ => rfl
      | _ => exact merge_assoc_of_replaced (by simp) (by simp) h.front
  | seq as =>
      cases b with
      | seq bs =>
          cases c with
          | seq cs => simp
          | _ => rfl
      | _ => exact merge_assoc_of_replaced (by simp) (by simp) h.front
  | _ => exact merge_assoc_of_replaced (by simp) (by simp) h.front

end Value

/-- A value between two mappings replaces the first of them only when it is merged first. -/
example (as cs : Pairs) (s : String) :
    ((Value.map as).merge (.text s)).merge (.map cs) = .map cs ∧
      (Value.map as).merge ((Value.text s).merge (.map cs)) = .map (Pairs.merge as cs) :=
  ⟨rfl, rfl⟩

namespace Pairs

/-! ### Keys that do not repeat -/

/-- No key is equal to an earlier one. -/
def NoRepeat (pairs : Pairs) : Prop :=
  pairs.Pairwise fun a b => b.1.same a.1 = false

theorem noRepeat_of_distinct {pairs : Pairs} (h : Value.distinctPairs pairs = true) :
    NoRepeat pairs := by
  obtain ⟨hdistinct, hkeys⟩ := Value.distinctPairs_iff.mp h
  refine hkeys.imp_of_mem fun {a b} ha hb hab => ?_
  rw [Value.same_comm (hdistinct b hb).1 (hdistinct a ha).1, hab]

theorem mem_update {k v : Value} {f : Value → Value} {pairs : Pairs} {kv : Value × Value}
    (h : kv ∈ update k v f pairs) : kv.1 = k ∨ ∃ kv' ∈ pairs, kv.1 = kv'.1 := by
  induction pairs with
  | nil => exact .inl (congrArg Prod.fst (List.mem_singleton.mp h))
  | cons head rest ih =>
      rw [update] at h
      split at h
      · rcases List.mem_cons.mp h with rfl | h
        · exact .inr ⟨head, List.mem_cons_self, rfl⟩
        · exact .inr ⟨kv, List.mem_cons_of_mem _ h, rfl⟩
      · rcases List.mem_cons.mp h with rfl | h
        · exact .inr ⟨kv, List.mem_cons_self, rfl⟩
        · rcases ih h with hk | ⟨kv', hkv', heq⟩
          · exact .inl hk
          · exact .inr ⟨kv', List.mem_cons_of_mem _ hkv', heq⟩

theorem NoRepeat.update {k v : Value} {f : Value → Value} {pairs : Pairs}
    (h : NoRepeat pairs) : NoRepeat (update k v f pairs) := by
  induction pairs with
  | nil => exact List.pairwise_singleton _ _
  | cons head rest ih =>
      obtain ⟨hhead, hrest⟩ := List.pairwise_cons.mp h
      rw [Pairs.update]
      split
      · exact List.pairwise_cons.mpr ⟨hhead, hrest⟩
      · rename_i hk
        refine List.pairwise_cons.mpr ⟨?_, ih hrest⟩
        intro kv hkv
        rcases mem_update hkv with heq | ⟨kv', hkv', heq⟩
        · rw [heq]
          simpa using hk
        · rw [heq]
          exact hhead kv' hkv'

theorem NoRepeat.merge {base : Pairs} (h : NoRepeat base) (incoming : Pairs) :
    NoRepeat (merge base incoming) := by
  induction incoming generalizing base with
  | nil => exact h
  | cons kv rest ih => exact ih h.update

/-- Pairs whose keys do not repeat are appended one by one. -/
theorem merge_of_noRepeat {base incoming : Pairs} (h : NoRepeat (base ++ incoming)) :
    merge base incoming = base ++ incoming := by
  induction incoming generalizing base with
  | nil => exact (List.append_nil base).symm
  | cons kv rest ih =>
      obtain ⟨k, v⟩ := kv
      have hnew : contains k base = false := contains_eq_false_iff.mpr fun kv hkv =>
        (List.pairwise_append.mp h).2.2 kv hkv (k, v) List.mem_cons_self
      rw [merge, update_of_not_contains hnew, ih (by rwa [List.append_assoc]), List.append_assoc]
      rfl

end Pairs

end Yaml

namespace Document

open Yaml Yaml.Value

/-! ### Documents -/

/-- Keys do not repeat in a merge, whatever the documents. -/
theorem noRepeat_mergeAll (documents : List Document) :
    Pairs.NoRepeat (mergeAll documents).root := by
  induction documents using List.reverseRecOn with
  | nil => exact .nil
  | append_singleton documents d ih =>
      rw [mergeAll_concat, root_merge]
      exact ih.merge d.root

/-- The empty document counts nowhere in front of keys that do not repeat. -/
theorem empty_merge {d : Document} (h : Pairs.NoRepeat d.root) : empty.merge d = d := by
  obtain ⟨root⟩ := d
  exact congrArg Document.mk ((root_merge empty ⟨root⟩).trans (Pairs.merge_of_noRepeat h))

/-- Merging documents may stop and go on at any place of the list. -/
theorem mergeAll_append (front back : List Document) :
    mergeAll (front ++ back) = mergeAll (mergeAll front :: back) := by
  rw [mergeAll, mergeAll, List.foldl_append, List.foldl_cons,
    empty_merge (noRepeat_mergeAll front)]
  rfl

/-- The grouping of merges does not matter where no value interrupts. A null changes
nothing on either side, the empty document nothing at any place of a list, and the front
of a list of documents may be replaced by its merge, whatever the values. -/
theorem merge_grouping :
    (∀ a b c : Value, a.distinct = true → b.distinct = true → c.distinct = true →
      Compatible a b c → (a.merge b).merge c = a.merge (b.merge c)) ∧
    (∀ v : Value, v.merge .null = v ∧ Value.null.merge v = v) ∧
    (∀ d : Document, d.value.distinct = true → empty.merge d = d ∧ d.merge empty = d) ∧
    (∀ front back : List Document,
      mergeAll (front ++ empty :: back) = mergeAll (front ++ back)) ∧
    ∀ front back : List Document,
      mergeAll (front ++ back) = mergeAll (mergeAll front :: back) := by
  refine ⟨?_, ?_, ?_, ?_, mergeAll_append⟩
  · intro a b c ha hb hc h
    exact merge_assoc ha hb hc h
  · intro v
    exact ⟨merge_null v, null_merge v⟩
  · intro d hd
    exact ⟨empty_merge (Pairs.noRepeat_of_distinct hd), rfl⟩
  · intro front back
    simp only [mergeAll, List.foldl_append, List.foldl_cons]
    rfl

/-- Mappings on both sides of a null, with lists below a common key of theirs. -/
theorem merge_grouping_around_null :
    let a : Value := .map [(.text "k", .map [(.text "x", .seq [.bool true])])]
    let b : Value := .map [(.text "k", .null), (.text "l", .bool true)]
    let c : Value := .map [(.text "l", .null), (.text "k", .map [(.text "x", .seq [.null])])]
    Compatible a b c ∧ (a.merge b).merge c = a.merge (b.merge c) := by
  intro a b c
  have h : Compatible a b c := by
    apply Compatible.map
    intro k x y z hk hx hy hz
    obtain ⟨kv, hkv, hsame, rfl⟩ := Pairs.mem_of_find? hx
    rw [List.mem_singleton.mp hkv] at hsame ⊢
    obtain rfl : k = .text "k" := text_same_iff.mp (same_symm hk rfl hsame)
    cases hy
    exact .null _ z
  exact ⟨h, merge_grouping.1 a b c (by decide) (by decide) (by decide) h⟩

end Document

end Galley
