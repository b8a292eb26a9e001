import Galley.Proofs.MergePaths
import Galley.Proofs.Reordering
import Galley.Proofs.ResolverWrites

/-!
The order of documents.

What a merge holds for a text key is the merge of what the documents hold for it, from
first to last (`Document.find?_mergeAll`), so that only the documents with the key count.
The stock resolvers read documents by their keys (`Resolver.readsByKey_of_isStock`) and do
not see in which order the keys stand. So the order of documents counts between those
that share a key only (`resolve_of_reordered_documents`).
-/

namespace Galley

namespace Yaml

theorem Value.same_text_iff {v : Value} {s : String} : v.same (.text s) = true ↔ v = .text s := by
  cases v <;> simp [Value.same]

namespace Pairs

/-! ### Text keys in a merge -/

/-- The values of the pairs with a text key; a mapping that was read holds one at most. -/
def valuesOf (key : String) (pairs : Pairs) : List Value :=
  (pairs.filter fun kv => (Value.text key).same kv.1).map Prod.snd

theorem valuesOf_eq_nil {key : String} {pairs : Pairs}
    (h : contains (.text key) pairs = false) : valuesOf key pairs = [] := by
  have hfilter : pairs.filter (fun kv => (Value.text key).same kv.1) = [] := by
    rw [List.filter_eq_nil_iff]
    intro kv hkv
    simpa using contains_eq_false_iff.mp h kv hkv
  rw [valuesOf, hfilter]
  rfl

/-- Changing the value of a text key. -/
theorem find?_update_text (key : String) (v : Value) (f : Value → Value) (pairs : Pairs) :
    find? (.text key) (update (.text key) v f pairs) =
      some (((find? (.text key) pairs).map f).getD v) := by
  induction pairs with
  | nil => simp [update, find?_cons, Value.same_refl]
  | cons kv rest ih =>
      rw [update, find?_cons]
      by_cases h : (Value.text key).same kv.1 = true
      · rw [if_pos h, if_pos h, find?_cons, if_pos h]
        rfl
      · rw [if_neg h, if_neg h, find?_cons, if_neg h, ih]

/-- Changing the value of another key. -/
theorem find?_update_of_ne {key : String} {k : Value} (hk : k ≠ .text key) (v : Value)
    (f : Value → Value) (pairs : Pairs) :
    find? (.text key) (update k v f pairs) = find? (.text key) pairs := by
  have hnot : ∀ w : Value, k.same w = true → ¬ (Value.text key).same w = true := by
    intro w hkw hw
    rw [Value.text_same_iff.mp hw, Value.same_text_iff] at hkw
    exact hk hkw
  induction pairs with
  | nil => rw [update, find?_cons, if_neg (hnot k (Value.same_refl k))]
  | cons kv rest ih =>
      rw [update]
      by_cases h : k.same kv.1 = true
      · rw [if_pos h, find?_cons, find?_cons, if_neg (hnot kv.1 h), if_neg (hnot kv.1 h)]
      · rw [if_neg h, find?_cons, find?_cons, ih]

end Pairs

end Yaml

namespace Document

open Yaml

/-! ### Text keys in a merge of documents -/

/-- Both documents have one text key. -/
def SharesKey (d e : Document) : Prop :=
  ∃ key : String, d.contains key = true ∧ e.contains key = true

/-- Merging the values in a list and then more of them is merging all. -/
theorem mergeValues_toList_append (values more : List Value) :
    mergeValues ((mergeValues values).toList ++ more) = mergeValues (values ++ more) := by
  cases values with
  | nil => rfl
  | cons v rest => simp [mergeValues]

theorem find?_merge_pairs (key : String) (base incoming : Pairs) :
    Pairs.find? (.text key) (Pairs.merge base incoming) =
      mergeValues ((Pairs.find? (.text key) base).toList ++ Pairs.valuesOf key incoming) := by
  induction incoming generalizing base with
  | nil =>
      rw [Pairs.merge, Pairs.valuesOf, List.filter_nil, List.map_nil, List.append_nil]
      cases Pairs.find? (.text key) base <;> rfl
  | cons kv rest ih =>
      obtain ⟨k, v⟩ := kv
      rw [Pairs.merge, ih]
      by_cases hk : k = .text key
      · have hvalues : Pairs.valuesOf key ((k, v) :: rest) = v :: Pairs.valuesOf key rest := by
          simp [Pairs.valuesOf, hk, Value.same_refl]
        rw [hvalues, hk, Pairs.find?_update_text]
        cases Pairs.find? (.text key) base with
        | none => rfl
        | some old => simp [mergeValues]
      · have hvalues : Pairs.valuesOf key ((k, v) :: rest) = Pairs.valuesOf key rest := by
          have hne : ¬ (Value.text key).same k = true := fun h => hk (Value.text_same_iff.mp h)
          simp [Pairs.valuesOf, hne]
        rw [hvalues, Pairs.find?_update_of_ne hk]

/-- What a merge holds for a text key is the merge of what the documents hold for it. -/
theorem find?_mergeAll (key : String) (documents : List Document) :
    (mergeAll documents).find? key =
      mergeValues (documents.flatMap fun d => Pairs.valuesOf key d.root) := by
  induction documents using List.reverseRecOn with
  | nil => rfl
  | append_singleton documents d ih =>
      rw [find?, Pairs.findText?] at ih ⊢
      rw [mergeAll_concat, root_merge, find?_merge_pairs, ih, mergeValues_toList_append,
        List.flatMap_append, List.flatMap_singleton]

/-- Only the documents with a key count for what their merge holds for it. -/
theorem find?_mergeAll_filter (key : String) (documents : List Document) :
    (mergeAll documents).find? key =
      (mergeAll (documents.filter fun d => d.contains key)).find? key := by
  have hvalues : documents.flatMap (fun d => Pairs.valuesOf key d.root) =
      (documents.filter fun d => d.contains key).flatMap fun d => Pairs.valuesOf key d.root := by
    induction documents with
    | nil => rfl
    | cons d rest ih =>
        rw [List.flatMap_cons, ih]
        by_cases hd : d.contains key = true
        · rw [List.filter_cons_of_pos hd, List.flatMap_cons]
        · have hnil : Pairs.valuesOf key d.root = [] :=
            Pairs.valuesOf_eq_nil (by simpa [contains] using hd)
          rw [List.filter_cons_of_neg hd, hnil, List.nil_append]
  rw [find?_mergeAll, find?_mergeAll, hvalues]

/-- Reordered documents merge to the same under every text key. -/
theorem find?_mergeAll_reordered {documents documents' : List Document}
    (h : Reordered SharesKey documents documents') (key : String) :
    (mergeAll documents').find? key = (mergeAll documents).find? key := by
  have hfilter := @Reordered.filter_eq _ _ _ _ (fun d => d.contains key) h (by
    intro d e hd he
    exact ⟨key, hd, he⟩)
  rw [find?_mergeAll_filter, hfilter, ← find?_mergeAll_filter]

end Document

/-! ### Reading by keys -/

namespace Resolver

variable [CallerTypes]

/-- A resolver does the same on documents that hold the same under every text key. -/
def ReadsByKey (r : Resolver) : Prop :=
  ∀ d e : Document, (∀ key, d.find? key = e.find? key) → r.run d = r.run e

/-- The stock resolvers read documents by their keys. -/
theorem readsByKey_of_isStock {r : Resolver} (h : IsStock r) : r.ReadsByKey := by
  intro d e hsame
  have hsequence : ∀ k key resolver,
      readSequence k d key resolver = readSequence k e key resolver := by
    intro k key resolver
    rw [readSequence, readSequence, hsame key]
  have hsection : ∀ k key resolver,
      readSection k d key resolver = readSection k e key resolver := by
    intro k key resolver
    rw [readSection, readSection, hsame key]
  cases h with
  | collection key item modelKey => simp only [collection, hsequence]
  | project => simp only [project, hsection]
  | serviceApi => simp only [serviceApi, storeServiceApi, readEntities, hsequence]

end Resolver

namespace Registry

section

variable [CallerTypes]

theorem runOn_congr {d e : Document} (hsame : ∀ key, d.find? key = e.find? key)
    {resolvers : Registry} (h : ∀ r ∈ resolvers, r.ReadsByKey) (m : Model) :
    resolvers.runOn d m = resolvers.runOn e m := by
  induction resolvers generalizing m with
  | nil => rfl
  | cons r rest ih =>
      obtain ⟨hr, hrest⟩ := List.forall_mem_cons.mp h
      rw [runOn, runOn, hr d e hsame]
      simp only [ih hrest]

/-- The order of documents counts between those that share a key only. The stock resolvers
read documents by their keys. The merge of documents and the merge of a reordering that
keeps the order of documents which share a key hold the same under every key, so any
resolvers that read by keys come to the same on both: to the same model and the same log,
or to the same fault. -/
theorem resolve_of_reordered_documents :
    (∀ r, Resolver.IsStock r → r.ReadsByKey) ∧
    ∀ documents documents' : List Document,
      Reordered Document.SharesKey documents documents' →
      (∀ key, (Document.mergeAll documents').find? key =
        (Document.mergeAll documents).find? key) ∧
      ∀ resolvers : Registry, (∀ r ∈ resolvers, r.ReadsByKey) →
        resolvers.resolve (Document.mergeAll documents') =
          resolvers.resolve (Document.mergeAll documents) := by
  refine ⟨fun r hr => Resolver.readsByKey_of_isStock hr, ?_⟩
  intro documents documents' horder
  have hsame := Document.find?_mergeAll_reordered horder
  refine ⟨hsame, ?_⟩
  intro resolvers hreads
  exact runOn_congr hsame hreads .empty

end

/-- Two documents with one key, and another document that moves in front of both. -/
theorem resolve_of_reordered_documents_moved_front :
    let a : Document := ⟨[(.text "flags", .seq [.bool true]), (.text "project", .null)]⟩
    let b : Document := ⟨[(.text "names", .seq [.text "x"])]⟩
    let c : Document := ⟨[(.text "flags", .seq [.bool false])]⟩
    let resolvers : Registry := [.collection "flags" .flag, .project, .collection "names" .text]
    Reordered Document.SharesKey [a, c, b] [b, a, c] ∧
      (Document.mergeAll [b, a, c]).keys ≠ (Document.mergeAll [a, c, b]).keys ∧
      resolvers.resolve (Document.mergeAll [b, a, c]) =
        resolvers.resolve (Document.mergeAll [a, c, b]) := by
  intro a b c resolvers
  have horder : Reordered Document.SharesKey [a, c, b] [b, a, c] := by
    have hkeys : ∀ key, b.contains key = true → key = "names" := by
      intro key h
      simpa [b, Document.contains, Yaml.Value.same] using h
    refine ⟨[(b, 2), (a, 0), (c, 1)], ?_, rfl, ?_⟩
    · exact (List.Perm.swap _ _ _).trans ((List.Perm.swap _ _ _).cons _)
    · have hba : ¬ Document.SharesKey b a := by
        rintro ⟨key, hb, ha⟩
        rw [hkeys key hb] at ha
        exact absurd ha (by decide)
      have hbc : ¬ Document.SharesKey b c := by
        rintro ⟨key, hb, hc⟩
        rw [hkeys key hb] at hc
        exact absurd hc (by decide)
      simp [hba, hbc]
  obtain ⟨hstock, hmerges⟩ := resolve_of_reordered_documents
  obtain ⟨-, hresolves⟩ := hmerges _ _ horder
  refine ⟨horder, by decide, hresolves resolvers ?_⟩
  simp only [resolvers, List.forall_mem_cons]
  exact ⟨hstock _ (.collection ..), hstock _ .project, hstock _ (.collection ..), by simp⟩

end Registry

end Galley
