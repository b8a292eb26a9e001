import Galley.Proofs.Merge
import Mathlib.Data.List.Induction

/-!
The merge of documents at a path of keys.

The value at a path of a merge is the merge of the values there, when only mappings and
nulls stand on the way (`Value.valueAt?_merge`); other values on the way would be
replaced as a whole. Over a list of documents this makes the value at a path the left
fold of the values found there, and the keys of a mapping the union of the keys found
there, in order of first appearance (`mergeAll_at_path`).
-/

namespace Galley

namespace Yaml

namespace Value

open Pairs

/-! ### Paths of keys -/

def valueAt? : List Value → Value → Option Value
  | [], v => some v
  | k :: path, .map pairs => (Pairs.find? k pairs).bind (valueAt? path)
  | _ :: _, _ => none

/-- The keys of the mapping at a path; none when there is no mapping. -/
def keysAt (path : List Value) (v : Value) : List Value :=
  match valueAt? path v with
  | some (.map pairs) => pairs.map Prod.fst
  | _ => []

def MapOrNull (v : Value) : Prop :=
  v = .null ∨ ∃ pairs, v = .map pairs

/-- No part of the path, the whole path apart, ends at a value that is neither a
mapping nor null. -/
def ClearTo (path : List Value) (v : Value) : Prop :=
  ∀ part u, part <+: path → part ≠ path → valueAt? part v = some u → MapOrNull u

theorem ClearTo.nil (v : Value) : ClearTo [] v := by
  rintro part u hpart hne -
  exact absurd (List.prefix_nil.mp hpart) hne

theorem ClearTo.null (path : List Value) : ClearTo path .null := by
  rintro part u - - hu
  cases part with
  | nil => exact .inl (Option.some.inj hu).symm
  | cons k part => cases hu

theorem ClearTo.map {k : Value} {path : List Value} {pairs : Pairs}
    (h : ∀ v, find? k pairs = some v → ClearTo path v) : ClearTo (k :: path) (.map pairs) := by
  rintro part u hpart hne hu
  cases part with
  | nil => exact .inr ⟨pairs, (Option.some.inj hu).symm⟩
  | cons j part =>
      obtain ⟨rfl, htail⟩ := List.cons_prefix_cons.mp hpart
      obtain ⟨v, hv, hu⟩ := Option.bind_eq_some_iff.mp hu
      exact h v hv part u htail (fun heq => hne (heq ▸ rfl)) hu

theorem MapOrNull.merge {v w : Value} (hv : MapOrNull v) (hw : MapOrNull w) :
    MapOrNull (v.merge w) := by
  rcases hw with rfl | ⟨bs, rfl⟩
  · exact hv
  · rcases hv with rfl | ⟨as, rfl⟩
    · exact .inr ⟨bs, rfl⟩
    · exact .inr ⟨_, rfl⟩

theorem ClearTo.front {k : Value} {path : List Value} {v : Value}
    (h : ClearTo (k :: path) v) : MapOrNull v :=
  h [] v List.nil_prefix (by simp) rfl

theorem ClearTo.tail {k : Value} {path : List Value} {pairs : Pairs} {v : Value}
    (h : ClearTo (k :: path) (.map pairs)) (hv : find? k pairs = some v) : ClearTo path v := by
  intro part u hpart hne hu
  refine h (k :: part) u (List.cons_prefix_cons.mpr ⟨rfl, hpart⟩) (by simpa using hne) ?_
  rw [valueAt?, hv]
  exact hu

theorem ClearTo.of_prefix {part path : List Value} {v : Value} (h : ClearTo path v)
    (hpart : part <+: path) : ClearTo part v := by
  intro front u hfront hne hu
  refine h front u (hfront.trans hpart) (fun heq => hne ?_) hu
  exact hfront.eq_of_length_le (heq ▸ hpart.length_le)

/-- The value at a path of a merge is the merge of the values there. -/
theorem valueAt?_merge {path : List Value} {v w : Value}
    (hpath : ∀ k ∈ path, k.distinct = true) (hv : v.distinct = true) (hw : w.distinct = true)
    (hclearV : ClearTo path v) (hclearW : ClearTo path w) :
    valueAt? path (v.merge w) = Option.merge merge (valueAt? path v) (valueAt? path w) := by
  induction path generalizing v w with
  | nil => rfl
  | cons k path ih =>
      obtain ⟨hk, hpath⟩ := List.forall_mem_cons.mp hpath
      rcases hclearW.front with rfl | ⟨bs, rfl⟩
      · simp [valueAt?]
      · rcases hclearV.front with rfl | ⟨as, rfl⟩
        · simp [valueAt?]
        · rw [map_merge_map, valueAt?, valueAt?, valueAt?, find?_merge hk hv hw]
          cases ha : find? k as with
          | none => simp
          | some a =>
              cases hb : find? k bs with
              | none => simp
              | some b =>
                  exact ih hpath (distinct_of_find? hv ha) (distinct_of_find? hw hb)
                    (hclearV.tail ha) (hclearW.tail hb)

/-- A merge stays clear where both values are. -/
theorem ClearTo.merge {path : List Value} {v w : Value}
    (hpath : ∀ k ∈ path, k.distinct = true) (hv : v.distinct = true) (hw : w.distinct = true)
    (hclearV : ClearTo path v) (hclearW : ClearTo path w) : ClearTo path (v.merge w) := by
  intro part u hpart hne hu
  rw [valueAt?_merge (fun k hk => hpath k (hpart.subset hk)) hv hw (hclearV.of_prefix hpart)
    (hclearW.of_prefix hpart), Option.merge_eq_some_iff] at hu
  rcases hu with ⟨hu, -⟩ | ⟨-, hu⟩ | ⟨a, b, ha, hb, rfl⟩
  · exact hclearV part u hpart hne hu
  · exact hclearW part u hpart hne hu
  · exact (hclearV part a hpart hne ha).merge (hclearW part b hpart hne hb)

theorem distinct_of_valueAt? {path : List Value} {v u : Value} (hv : v.distinct = true)
    (h : valueAt? path v = some u) : u.distinct = true := by
  induction path generalizing v with
  | nil => exact Option.some.inj h ▸ hv
  | cons k path ih =>
      cases v <;> try cases h
      rename_i pairs
      obtain ⟨w, hw, hu⟩ := Option.bind_eq_some_iff.mp h
      exact ih (distinct_of_find? hv hw) hu

/-- The keys of a merge at a path are those of the first value and behind them the
new ones of the second. -/
theorem keysAt_merge {path : List Value} {key v w : Value}
    (hpath : ∀ k ∈ path, k.distinct = true) (hv : v.distinct = true) (hw : w.distinct = true)
    (hclearV : ClearTo (path ++ [key]) v) (hclearW : ClearTo (path ++ [key]) w) :
    keysAt path (v.merge w) = keysAt path v ++
      (keysAt path w).filter fun k => !(keysAt path v).any k.same := by
  have hpart : path <+: path ++ [key] := List.prefix_append _ _
  have hne : path ≠ path ++ [key] := by simp
  rw [keysAt, keysAt, keysAt,
    valueAt?_merge hpath hv hw (hclearV.of_prefix hpart) (hclearW.of_prefix hpart)]
  cases ha : valueAt? path v with
  | none => simp
  | some a =>
      cases hb : valueAt? path w with
      | none => simp
      | some b =>
          rcases hclearW path b hpart hne hb with rfl | ⟨bs, rfl⟩
          · simp
          · rcases hclearV path a hpart hne ha with rfl | ⟨as, rfl⟩
            · simp
            · exact keys_merge (distinct_of_valueAt? hv ha) (distinct_of_valueAt? hw hb)

/-! ### Keys in order of first appearance -/

/-- What is equal to a value is not equal to one of those that differ from another. -/
theorem any_filter_not_same {x y : Value} (h : y.same x = false) (xs : List Value) :
    (xs.filter fun b => decide (b.same x = false)).any y.same = xs.any y.same := by
  rw [List.any_filter]
  congr 1
  funext b
  cases hyb : y.same b with
  | false => exact Bool.and_false _
  | true =>
      have hbx : b.same x = false := by
        by_contra hbx
        rw [same_trans hyb (by simpa using hbx)] at h
        cases h
      simp [hbx]

/-- A value is among those that appear first when it is among all. -/
theorem any_eraseDupsBy (y : Value) (xs : List Value) :
    (xs.eraseDupsBy same).any y.same = xs.any y.same := by
  match xs with
  | [] => rfl
  | x :: xs =>
      have ih := any_eraseDupsBy y (xs.filter fun b => decide (b.same x = false))
      rw [List.eraseDupsBy_cons, List.any_cons, List.any_cons, ih]
      cases h : y.same x with
      | true => rfl
      | false => rw [any_filter_not_same h]
termination_by xs.length
decreasing_by exact Nat.lt_succ_of_le (List.length_filter_le _ _)

/-- What appears first in two lists: what does in the one, and in the other of what the
one lacks. -/
theorem eraseDupsBy_append (xs ys : List Value) :
    (xs ++ ys).eraseDupsBy same =
      xs.eraseDupsBy same ++ (ys.filter fun y => !xs.any y.same).eraseDupsBy same := by
  match xs with
  | [] => simp
  | x :: xs =>
      have ih := eraseDupsBy_append (xs.filter fun b => decide (b.same x = false))
        (ys.filter fun b => decide (b.same x = false))
      rw [List.cons_append, List.eraseDupsBy_cons, List.eraseDupsBy_cons, List.filter_append, ih,
        List.cons_append, List.filter_filter]
      congr 3
      apply List.filter_congr
      intro y _
      cases h : y.same x with
      | true => simp [h]
      | false =>
          rw [any_filter_not_same h, List.any_cons, h]
          simp
termination_by xs.length
decreasing_by exact Nat.lt_succ_of_le (List.length_filter_le _ _)

theorem eraseDupsBy_of_pairwise {xs : List Value}
    (h : xs.Pairwise fun a b => b.same a = false) : xs.eraseDupsBy same = xs := by
  induction xs with
  | nil => rfl
  | cons x xs ih =>
      obtain ⟨hx, hxs⟩ := List.pairwise_cons.mp h
      rw [List.eraseDupsBy_cons, List.filter_eq_self.mpr (by simpa using hx), ih hxs]

/-- The keys at a path of a value with distinct keys are distinct. -/
theorem pairwise_keysAt (path : List Value) {v : Value} (hv : v.distinct = true) :
    (keysAt path v).Pairwise fun a b => b.same a = false := by
  rw [keysAt]
  split
  · rename_i pairs h
    obtain ⟨hdistinct, hpairs⟩ := distinctPairs_iff.mp (distinct_of_valueAt? hv h)
    rw [List.pairwise_map]
    refine hpairs.imp_of_mem fun {a b} ha hb hab => ?_
    rw [same_comm (hdistinct b hb).1 (hdistinct a ha).1, hab]
  · exact .nil

end Value

end Yaml

namespace Document

open Yaml Yaml.Value

/-! ### Merging documents -/

def value (d : Document) : Yaml.Value :=
  .map d.root

theorem root_merge (base incoming : Document) :
    (base.merge incoming).root = Pairs.merge base.root incoming.root := by
  obtain ⟨as⟩ := base
  obtain ⟨bs⟩ := incoming
  rw [merge]
  induction bs generalizing as with
  | nil => rfl
  | cons kv bs ih => exact ih _

/-- Merging documents is merging the mappings at their roots. -/
theorem value_merge (base incoming : Document) :
    (base.merge incoming).value = base.value.merge incoming.value :=
  congrArg Value.map (root_merge base incoming)

theorem mergeAll_concat (documents : List Document) (d : Document) :
    mergeAll (documents ++ [d]) = (mergeAll documents).merge d := by
  simp [mergeAll]

def mergeValues : List Yaml.Value → Option Yaml.Value
  | [] => none
  | v :: rest => some (rest.foldl Value.merge v)

theorem mergeValues_concat (values : List Yaml.Value) (v : Yaml.Value) :
    mergeValues (values ++ [v]) = Option.merge Value.merge (mergeValues values) (some v) := by
  cases values <;> simp [mergeValues]

theorem isSome_mergeValues {values : List Yaml.Value} :
    (mergeValues values).isSome = true ↔ ∃ v, v ∈ values := by
  cases values <;> simp [mergeValues]

section Paths

variable {documents : List Document} {path : List Yaml.Value} {key : Yaml.Value}

theorem distinct_mergeAll (hdocs : ∀ d ∈ documents, d.value.distinct = true) :
    (mergeAll documents).value.distinct = true := by
  induction documents using List.reverseRecOn with
  | nil => rfl
  | append_singleton documents d ih =>
      obtain ⟨hdocs, hd⟩ := List.forall_mem_append.mp hdocs
      rw [mergeAll_concat, value_merge]
      exact distinct_merge (ih hdocs) (hd d List.mem_cons_self)

theorem clearTo_mergeAll (hdocs : ∀ d ∈ documents, d.value.distinct = true)
    (hpath : ∀ k ∈ path, k.distinct = true) (hclear : ∀ d ∈ documents, d.value.ClearTo path) :
    (mergeAll documents).value.ClearTo path := by
  induction documents using List.reverseRecOn with
  | nil =>
      cases path with
      | nil => exact .nil _
      | cons k path => exact .map fun v hv => by cases hv
  | append_singleton documents d ih =>
      obtain ⟨hdocs, hd⟩ := List.forall_mem_append.mp hdocs
      obtain ⟨hclear, hcleard⟩ := List.forall_mem_append.mp hclear
      rw [mergeAll_concat, value_merge]
      exact (ih hdocs hclear).merge hpath (distinct_mergeAll hdocs) (hd d List.mem_cons_self)
        (hcleard d List.mem_cons_self)

theorem valueAt?_mergeAll (hne : path ≠ []) (hdocs : ∀ d ∈ documents, d.value.distinct = true)
    (hpath : ∀ k ∈ path, k.distinct = true) (hclear : ∀ d ∈ documents, d.value.ClearTo path) :
    valueAt? path (mergeAll documents).value =
      mergeValues (documents.filterMap fun d => valueAt? path d.value) := by
  induction documents using List.reverseRecOn with
  | nil =>
      obtain ⟨k, path, rfl⟩ := List.exists_cons_of_ne_nil hne
      rfl
  | append_singleton documents d ih =>
      obtain ⟨hdocs, hd⟩ := List.forall_mem_append.mp hdocs
      obtain ⟨hclear, hcleard⟩ := List.forall_mem_append.mp hclear
      rw [mergeAll_concat, value_merge, valueAt?_merge hpath (distinct_mergeAll hdocs)
        (hd d List.mem_cons_self) (clearTo_mergeAll hdocs hpath hclear)
        (hcleard d List.mem_cons_self), ih hdocs hclear, List.filterMap_append]
      cases h : valueAt? path d.value with
      | none => simp [h]
      | some v => simp [h, mergeValues_concat]

theorem keysAt_mergeAll (hdocs : ∀ d ∈ documents, d.value.distinct = true)
    (hpath : ∀ k ∈ path ++ [key], k.distinct = true)
    (hclear : ∀ d ∈ documents, d.value.ClearTo (path ++ [key])) :
    keysAt path (mergeAll documents).value =
      (documents.flatMap fun d => keysAt path d.value).eraseDupsBy Value.same := by
  have hfront : ∀ k ∈ path, k.distinct = true := fun k hk => hpath k (List.mem_append_left _ hk)
  induction documents using List.reverseRecOn with
  | nil => cases path <;> rfl
  | append_singleton documents d ih =>
      obtain ⟨hdocs, hd⟩ := List.forall_mem_append.mp hdocs
      obtain ⟨hclear, hcleard⟩ := List.forall_mem_append.mp hclear
      have hkeys := pairwise_keysAt path (hd d List.mem_cons_self)
      rw [mergeAll_concat, value_merge, keysAt_merge hfront (distinct_mergeAll hdocs)
        (hd d List.mem_cons_self) (clearTo_mergeAll hdocs hpath hclear)
        (hcleard d List.mem_cons_self), ih hdocs hclear, List.flatMap_append,
        List.flatMap_singleton, eraseDupsBy_append, eraseDupsBy_of_pairwise (hkeys.filter _)]
      simp only [any_eraseDupsBy]

end Paths

/-- The merge of documents by paths. At a path with only mappings and nulls on the way,
the merge holds a value exactly when a document does, and it is the merge of the values
found there from first to last; the keys next to the last one are those of the documents,
each once, in order of first appearance. And merging two documents is merging the
mappings at their roots. -/
theorem mergeAll_at_path :
    (∀ (documents : List Document) (path : List Yaml.Value) (key : Yaml.Value),
      (∀ d ∈ documents, d.value.distinct = true) →
      (∀ k ∈ path ++ [key], k.distinct = true) →
      (∀ d ∈ documents, d.value.ClearTo (path ++ [key])) →
      ((valueAt? (path ++ [key]) (mergeAll documents).value).isSome = true ↔
        ∃ d ∈ documents, (valueAt? (path ++ [key]) d.value).isSome = true) ∧
      valueAt? (path ++ [key]) (mergeAll documents).value =
        mergeValues (documents.filterMap fun d => valueAt? (path ++ [key]) d.value) ∧
      keysAt path (mergeAll documents).value =
        (documents.flatMap fun d => keysAt path d.value).eraseDupsBy Value.same) ∧
    ∀ base incoming : Document,
      (base.merge incoming).value = base.value.merge incoming.value := by
  refine ⟨?_, value_merge⟩
  intro documents path key hdocs hpath hclear
  have hne : path ++ [key] ≠ [] := by simp
  have hvalue := valueAt?_mergeAll hne hdocs hpath hclear
  refine ⟨?_, hvalue, keysAt_mergeAll hdocs hpath hclear⟩
  rw [hvalue, isSome_mergeValues]
  constructor
  · rintro ⟨v, hv⟩
    obtain ⟨d, hd, hv⟩ := List.mem_filterMap.mp hv
    exact ⟨d, hd, Option.isSome_iff_exists.mpr ⟨v, hv⟩⟩
  · rintro ⟨d, hd, hsome⟩
    obtain ⟨v, hv⟩ := Option.isSome_iff_exists.mp hsome
    exact ⟨v, List.mem_filterMap.mpr ⟨d, hd, hv⟩⟩

/-- Lists below a nested key, with a null on the way in the first document. -/
theorem mergeAll_at_nested_key :
    let documents : List Document :=
      [⟨[(.text "a", .null)]⟩,
        ⟨[(.text "a", .map [(.text "x", .seq [.bool true]), (.text "y", .null)])]⟩,
        ⟨[(.text "b", .null),
          (.text "a", .map [(.text "z", .null), (.text "x", .seq [.bool false])])]⟩]
    (∀ d ∈ documents, d.value.distinct = true) ∧
      (∀ d ∈ documents, d.value.ClearTo [.text "a", .text "x"]) ∧
      valueAt? [.text "a", .text "x"] (mergeAll documents).value =
        some (.seq [.bool true, .bool false]) ∧
      keysAt [.text "a"] (mergeAll documents).value = [.text "x", .text "y", .text "z"] := by
  intro documents
  have hdocs : ∀ d ∈ documents, d.value.distinct = true := by decide
  have hclear : ∀ d ∈ documents, d.value.ClearTo [.text "a", .text "x"] := by
    simp only [documents, List.forall_mem_cons]
    refine ⟨.map fun v hv => ?_, .map fun v hv => ?_, .map fun v hv => ?_, by simp⟩
    · cases hv
      exact .null _
    · cases hv
      exact .map fun w _ => .nil w
    · cases hv
      exact .map fun w _ => .nil w
  have h := mergeAll_at_path.1 documents [.text "a"] (.text "x") hdocs (by decide) hclear
  exact ⟨hdocs, hclear, h.2.1, h.2.2⟩

end Document

end Galley
