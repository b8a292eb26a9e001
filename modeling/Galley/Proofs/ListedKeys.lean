import Galley.Proofs.MergeGrouping
import Galley.Proofs.ReadKeys
import Galley.Resolver
import Mathlib.Data.List.Pairwise

/-!
Listed keys.

The keys of a document are listed by their texts, and looked up as texts. A key that is a text
under a tag is listed and not found (`Document.mem_keys_iff`). Documents that are read, and
their merges, list every key (`Document.IsListing`). They list each key once and find all
listed keys exactly when no key has a tag, and a merge has a key under a tag when one of its
documents has (`Document.listed_keys_found_iff`).
-/

namespace Galley

namespace Yaml

namespace Value

variable {v w : Value} {s : String}

/-- A value with a text is this text, or has it under a tag. -/
theorem asText?_eq_some_iff :
    v.asText? = some s ↔ v = .text s ∨ ∃ tag w, v = .tagged tag w ∧ w.asText? = some s := by
  cases v <;> simp [asText?]

/-- Equal values have the same text. -/
theorem asText?_of_same (h : v.same w = true) (hv : v.asText? = some s) : w.asText? = some s := by
  induction v using induct generalizing w with
  | tagged tag v ih =>
      obtain ⟨tag', w', rfl, -, hsame⟩ := tagged_same_iff.mp h
      have hinner : w'.asText? = some s := ih hsame hv
      exact hinner
  | text t =>
      rw [text_same_iff.mp h]
      exact hv
  | _ => cases hv

end Value

namespace Pairs

theorem contains_iff_exists {k : Value} {pairs : Pairs} :
    contains k pairs = true ↔ ∃ kv ∈ pairs, k.same kv.1 = true :=
  List.any_eq_true

/-- The keys of a merge are keys of the one mapping or of the other. -/
theorem mem_merge {base incoming : Pairs} {kv : Value × Value} (h : kv ∈ merge base incoming) :
    (∃ kv' ∈ base, kv.1 = kv'.1) ∨ ∃ kv' ∈ incoming, kv.1 = kv'.1 := by
  induction incoming generalizing base with
  | nil => exact .inl ⟨kv, h, rfl⟩
  | cons head rest ih =>
      rcases ih h with ⟨kv', hkv', heq⟩ | ⟨kv', hkv', heq⟩
      · rcases mem_update hkv' with hk | ⟨kv₀, hkv₀, hk⟩
        · exact .inr ⟨head, List.mem_cons_self, heq.trans hk⟩
        · exact .inl ⟨kv₀, hkv₀, heq.trans hk⟩
      · exact .inr ⟨kv', List.mem_cons_of_mem _ hkv', heq⟩

end Pairs

end Yaml

open Yaml

namespace Document

/-! ### Keys of one document -/

/-- A key of a document is a text under a tag. -/
def HasTaggedKey (key : String) (d : Document) : Prop :=
  ∃ kv ∈ d.root, ∃ tag v, kv.1 = .tagged tag v ∧ v.asText? = some key

variable {key : String} {d : Document} {documents : List Document}

/-- A key is present when a value is found under it. -/
theorem contains_iff_find? : d.contains key = true ↔ ∃ v, d.find? key = some v := by
  rw [← Option.ne_none_iff_exists', find?, Pairs.findText?, ne_eq, Pairs.find?_eq_none_iff,
    Bool.not_eq_false, contains]

theorem contains_iff_mem : d.contains key = true ↔ ∃ kv ∈ d.root, kv.1 = .text key := by
  rw [contains, Pairs.contains_iff_exists]
  simp only [Value.text_same_iff]

/-- The listed keys are those that are found and those that have a tag. -/
theorem mem_keys_iff : key ∈ d.keys ↔ d.contains key = true ∨ d.HasTaggedKey key := by
  have hkey (kv : Value × Value) : kv ∈ d.root ∧ kv.1.asText? = some key ↔
      (kv ∈ d.root ∧ kv.1 = .text key) ∨
        kv ∈ d.root ∧ ∃ tag v, kv.1 = .tagged tag v ∧ v.asText? = some key := by
    rw [Value.asText?_eq_some_iff, and_or_left]
  rw [contains_iff_mem, keys, List.mem_filterMap, HasTaggedKey, ← exists_or]
  exact exists_congr hkey

/-- A document as reading accepts it: every key has a text, and keys do not repeat. -/
structure IsListing (d : Document) : Prop where
  texts : ∀ kv ∈ d.root, ∃ key, kv.1.asText? = some key
  noRepeat : Pairs.NoRepeat d.root

/-- What is listed is what there is: each key is listed once, and to be listed, to be present
and to be found is the same. -/
structure ListsFound (d : Document) : Prop where
  nodup : d.keys.Nodup
  length : d.keys.length = d.size
  listed : ∀ key, key ∈ d.keys ↔ d.contains key = true
  found : ∀ key, d.contains key = true ↔ ∃ v, d.find? key = some v

namespace IsListing

/-- All keys are listed. -/
theorem length_keys (h : d.IsListing) : d.keys.length = d.size := by
  rw [keys, List.length_filterMap_eq_countP, size, List.countP_eq_length]
  intro kv hkv
  exact Option.isSome_iff_exists.mpr (h.texts kv hkv)

/-- Where no key has a tag, each key is listed once. -/
theorem nodup_keys (h : d.IsListing) (htags : ∀ key, ¬ d.HasTaggedKey key) : d.keys.Nodup := by
  have htext : ∀ kv ∈ d.root, ∀ key, kv.1.asText? = some key → kv.1 = .text key := by
    intro kv hkv key hkey
    rcases Value.asText?_eq_some_iff.mp hkey with htext | ⟨tag, v, htag, hv⟩
    · exact htext
    · exact absurd ⟨kv, hkv, tag, v, htag, hv⟩ (htags key)
  refine List.pairwise_filterMap.mpr (h.noRepeat.imp_of_mem ?_)
  rintro a b ha hb hab key ha' key' hb' rfl
  rw [htext a ha key ha', htext b hb key hb', Value.same_refl] at hab
  cases hab

/-- A key that is present and is also listed with a tag is listed twice. -/
theorem not_nodup_keys (hcontains : d.contains key = true) (htag : d.HasTaggedKey key) :
    ¬ d.keys.Nodup := by
  obtain ⟨a, ha, htext⟩ := contains_iff_mem.mp hcontains
  obtain ⟨b, hb, tag, v, htagged, hv⟩ := htag
  intro hnodup
  have hne : a ≠ b := by
    rintro rfl
    cases htext.symm.trans htagged
  have : Std.Symm fun a b : Value × Value => ∀ s, a.1.asText? = some s →
      ∀ t, b.1.asText? = some t → s ≠ t :=
    ⟨fun a b hab s hs t ht => (hab t ht s hs).symm⟩
  have hdiffer := (List.pairwise_filterMap.mp hnodup).forall ha hb hne
  exact hdiffer key (congrArg Value.asText? htext) key ((congrArg Value.asText? htagged).trans hv)
    rfl

theorem listsFound_iff (h : d.IsListing) : d.ListsFound ↔ ∀ key, ¬ d.HasTaggedKey key := by
  constructor
  · intro hfound key htag
    have hcontains : d.contains key = true := (hfound.listed key).mp (mem_keys_iff.mpr (.inr htag))
    exact not_nodup_keys hcontains htag hfound.nodup
  · intro htags
    refine ⟨h.nodup_keys htags, h.length_keys, ?_, fun key => contains_iff_find?⟩
    intro key
    rw [mem_keys_iff, or_iff_left (htags key)]

end IsListing

/-! ### Documents that are read, and merges -/

theorem texts_of_ofValue {v : Yaml.Value} (h : ofValue v = .ok d) :
    ∀ kv ∈ d.root, ∃ key, kv.1.asText? = some key := by
  cases v with
  | null =>
      cases h
      exact nofun
  | map root =>
      rw [ofValue] at h
      split at h
      · cases h
      · rename_i hnone
        cases h
        intro kv hkv
        simpa [Option.ne_none_iff_exists'] using List.find?_eq_none.mp hnone kv hkv
  | _ => cases h

/-- A document that is read lists all keys. -/
theorem isListing_of_ofText {text : String} (h : ofText text = .ok d) : d.IsListing := by
  refine ⟨?_, Pairs.noRepeat_of_distinct (distinct_of_ofText h)⟩
  rw [ofText] at h
  split at h
  · cases h
  · exact texts_of_ofValue h

/-- The keys of a merge are keys of its documents. -/
theorem mem_root_mergeAll {kv : Yaml.Value × Yaml.Value} (h : kv ∈ (mergeAll documents).root) :
    ∃ d ∈ documents, ∃ kv' ∈ d.root, kv.1 = kv'.1 := by
  induction documents using List.reverseRecOn generalizing kv with
  | nil => cases h
  | append_singleton documents d ih =>
      rw [mergeAll_concat, root_merge] at h
      rcases Pairs.mem_merge h with ⟨kv', hkv', heq⟩ | ⟨kv', hkv', heq⟩
      · obtain ⟨d', hd', kv₀, hkv₀, heq'⟩ := ih hkv'
        exact ⟨d', List.mem_append_left _ hd', kv₀, hkv₀, heq.trans heq'⟩
      · exact ⟨d, List.mem_concat_self, kv', hkv', heq⟩

/-- A key of a document is present in a merge. -/
theorem contains_root_mergeAll (k : Yaml.Value) (hd : d ∈ documents)
    (h : Pairs.contains k d.root = true) : Pairs.contains k (mergeAll documents).root = true := by
  induction documents using List.reverseRecOn with
  | nil => cases hd
  | append_singleton documents d' ih =>
      rw [mergeAll_concat, root_merge, Pairs.contains_merge, Bool.or_eq_true]
      rcases List.mem_append.mp hd with hd | hd
      · exact .inl (ih hd)
      · rw [← List.mem_singleton.mp hd]
        exact .inr h

/-- A merge lists all keys when its documents do. -/
theorem isListing_mergeAll (h : ∀ d ∈ documents, d.IsListing) : (mergeAll documents).IsListing := by
  refine ⟨?_, noRepeat_mergeAll documents⟩
  intro kv hkv
  obtain ⟨d, hd, kv', hkv', heq⟩ := mem_root_mergeAll hkv
  rw [heq]
  exact (h d hd).texts kv' hkv'

/-- A merge has a key under a tag when one of its documents has. -/
theorem hasTaggedKey_mergeAll_iff :
    (mergeAll documents).HasTaggedKey key ↔ ∃ d ∈ documents, d.HasTaggedKey key := by
  constructor
  · rintro ⟨kv, hkv, tag, v, htag, hv⟩
    obtain ⟨d, hd, kv', hkv', heq⟩ := mem_root_mergeAll hkv
    exact ⟨d, hd, kv', hkv', tag, v, heq.symm.trans htag, hv⟩
  · rintro ⟨d, hd, kv, hkv, tag, v, htag, hv⟩
    have hpresent : Pairs.contains kv.1 d.root = true :=
      Pairs.contains_iff_exists.mpr ⟨kv, hkv, Value.same_refl _⟩
    obtain ⟨kv', hkv', hsame⟩ :=
      Pairs.contains_iff_exists.mp (contains_root_mergeAll kv.1 hd hpresent)
    rw [htag] at hsame
    obtain ⟨tag', w, htag', -, hvw⟩ := Value.tagged_same_iff.mp hsame
    exact ⟨kv', hkv', tag', w, htag', Value.asText?_of_same hvw hv⟩

/-- When listed keys are found. A document that is read lists each key once and finds all that
it lists exactly when no key has a tag, and a merge of such documents does when none of them
has a key under a tag. In any case all keys are listed, the listed ones are those that are
present and those under a tag, and to be present is to be found. -/
theorem listed_keys_found_iff (documents : List Document)
    (h : ∀ d ∈ documents, ∃ text, ofText text = .ok d) :
    (∀ d ∈ documents, d.ListsFound ↔ ∀ key, ¬ d.HasTaggedKey key) ∧
    ((mergeAll documents).ListsFound ↔ ∀ d ∈ documents, ∀ key, ¬ d.HasTaggedKey key) ∧
    ∀ d ∈ mergeAll documents :: documents,
      d.keys.length = d.size ∧
      ∀ key, (key ∈ d.keys ↔ d.contains key = true ∨ d.HasTaggedKey key) ∧
        (d.contains key = true ↔ ∃ v, d.find? key = some v) := by
  have hlisting : ∀ d ∈ documents, d.IsListing := by
    intro d hd
    obtain ⟨text, htext⟩ := h d hd
    exact isListing_of_ofText htext
  have hmerged : (mergeAll documents).IsListing := isListing_mergeAll hlisting
  refine ⟨fun d hd => (hlisting d hd).listsFound_iff, ?_, ?_⟩
  · rw [hmerged.listsFound_iff]
    simp only [hasTaggedKey_mergeAll_iff, not_exists, not_and]
    exact forall_comm.trans (forall_congr' fun d => forall_comm)
  · intro d hd
    have hall : d.IsListing := List.forall_mem_cons.mpr ⟨hmerged, hlisting⟩ d hd
    exact ⟨hall.length_keys, fun key => ⟨mem_keys_iff, contains_iff_find?⟩⟩

/-- A merge of two documents without tags lists what it finds. -/
theorem listed_keys_found_iff_two_documents :
    ∃ d e : Document, ofText "services: [x]\n" = .ok d ∧
      ofText "mode: y\nservices: [z]\n" = .ok e ∧
      (mergeAll [d, e]).keys = ["services", "mode"] ∧ (mergeAll [d, e]).ListsFound := by
  let d : Document := ⟨[(.text "services", .seq [.text "x"])]⟩
  let e : Document := ⟨[(.text "mode", .text "y"), (.text "services", .seq [.text "z"])]⟩
  have hd : ofText "services: [x]\n" = .ok d := rfl
  have he : ofText "mode: y\nservices: [z]\n" = .ok e := rfl
  have htexts : ∀ d' ∈ [d, e], ∃ text, ofText text = .ok d' := by
    simp only [List.forall_mem_cons]
    exact ⟨⟨_, hd⟩, ⟨_, he⟩, nofun⟩
  obtain ⟨-, hmerged, -⟩ := listed_keys_found_iff [d, e] htexts
  refine ⟨d, e, hd, he, rfl, hmerged.mpr ?_⟩
  rintro d' hd' key ⟨kv, hkv, tag, v, heq, -⟩
  have hplain : ∀ d' ∈ [d, e], ∀ kv ∈ d'.root, ∃ s, kv.1 = .text s := by
    simp only [List.forall_mem_cons, d, e]
    exact ⟨⟨⟨_, rfl⟩, nofun⟩, ⟨⟨_, rfl⟩, ⟨_, rfl⟩, nofun⟩, nofun⟩
  obtain ⟨s, hs⟩ := hplain d' hd' kv hkv
  cases hs.symm.trans heq

/-- A section under a tag: it is listed and not found, and a collection stores nothing of it.
Beside the same section without a tag it is listed twice. -/
theorem tagged_key_listed_not_found :
    (∃ d, ofText "!t services: [x]\n" = .ok d ∧ d.keys = ["services"] ∧
      d.contains "services" = false ∧ d.find? "services" = none ∧ ¬ d.ListsFound ∧
      ∃ m, ((Resolver.collection "services" .json).run d .empty).outcome = .ok m ∧
        m.value? "services" = some (.list [])) ∧
    ∃ d, ofText "services: [x]\n!t services: [y]\n" = .ok d ∧
      d.keys = ["services", "services"] := by
  let d : Document := ⟨[(.tagged "t" (.text "services"), .seq [.text "x"])]⟩
  refine ⟨⟨d, rfl, rfl, rfl, rfl, ?_, _, rfl, rfl⟩, _, rfl, rfl⟩
  intro hfound
  have hcontains : d.contains "services" = true :=
    (hfound.listed "services").mp List.mem_cons_self
  cases hcontains

end Document

end Galley
