import Galley.Build
import Galley.Proofs.MergePaths
import Galley.Proofs.Outcomes

/-!
Documents that were read have distinct keys.

The keys of a mapping are compared while it is built, so that whatever value a recording
stands for holds no two equal keys in one mapping (`distinct_build`). Hence every document
of a file has distinct keys (`Files.distinct_of_loader`).
-/

namespace Galley

namespace Yaml

open Value

variable {schema : Schema} {r : Recording}

/-- The scalars of a schema hold no mapping with two equal keys. -/
def Schema.DistinctScalars (schema : Schema) : Prop :=
  ∀ tag text style v, schema.scalar tag text style = some v → v.distinct = true

theorem distinct_scalarValue (hscalars : schema.DistinctScalars) {tag : Option String}
    {tagged : Bool} {text : String} {style : ScalarStyle} {m : Mark} {v : Value}
    (h : scalarValue schema tag tagged text style m = .ok v) : v.distinct = true := by
  rw [scalarValue] at h
  split at h
  · rename_i hv
    cases h
    exact hscalars _ _ _ _ hv
  · cases h

/-- A new key in front of the pairs that were read before it, in reverse. -/
theorem distinctPairs_reverse_cons {k v : Value} {acc : Pairs} (hk : k.distinct = true)
    (hv : v.distinct = true) (hnew : Pairs.contains k acc = false)
    (hacc : distinctPairs acc.reverse = true) :
    distinctPairs ((k, v) :: acc).reverse = true := by
  obtain ⟨hparts, hkeys⟩ := distinctPairs_iff.mp hacc
  rw [List.reverse_cons, distinctPairs_iff]
  refine ⟨List.forall_mem_append.mpr ⟨hparts, by simp [hk, hv]⟩, ?_⟩
  rw [List.pairwise_append]
  refine ⟨hkeys, List.pairwise_singleton _ _, ?_⟩
  intro a ha b hb
  obtain rfl := List.mem_singleton.mp hb
  have hne : k.same a.1 = false :=
    Pairs.contains_eq_false_iff.mp hnew a (List.mem_reverse.mp ha)
  rw [same_comm (hparts a ha).1 hk]
  exact hne

/-- What is built from a recording has distinct keys: a value, items behind items with
distinct keys, and pairs behind pairs with distinct keys. -/
structure BuildsDistinct (schema : Schema) (r : Recording) (fuel : Nat) : Prop where
  value : ∀ {depth tagged p v q}, buildValue schema r fuel depth tagged p = .ok (v, q) →
    v.distinct = true
  items : ∀ {depth acc p items q}, buildItems schema r fuel depth acc p = .ok (items, q) →
    (∀ v ∈ acc, v.distinct = true) → ∀ v ∈ items, v.distinct = true
  pairs : ∀ {depth start acc p pairs q}, buildPairs schema r fuel depth start acc p =
    .ok (pairs, q) → distinctPairs acc.reverse = true → distinctPairs pairs = true

theorem BuildsDistinct.buildItems {fuel : Nat} (ih : BuildsDistinct schema r fuel) {depth : Nat}
    {acc items : List Value} {p q : Place}
    (h : buildItems schema r (fuel + 1) depth acc p = .ok (items, q))
    (hacc : ∀ v ∈ acc, v.distinct = true) : ∀ v ∈ items, v.distinct = true := by
  rw [Yaml.buildItems, bind_eq_ok_iff] at h
  obtain ⟨step, -, h⟩ := h
  split at h
  · cases h
    intro v hv
    exact hacc v (List.mem_reverse.mp hv)
  · obtain ⟨⟨v, place⟩, hv, h⟩ := bind_eq_ok_iff.mp h
    exact ih.items h (List.forall_mem_cons.mpr ⟨ih.value hv, hacc⟩)

theorem BuildsDistinct.buildPairs {fuel : Nat} (ih : BuildsDistinct schema r fuel) {depth : Nat}
    {start : Mark} {acc pairs : Pairs} {p q : Place}
    (h : buildPairs schema r (fuel + 1) depth start acc p = .ok (pairs, q))
    (hacc : distinctPairs acc.reverse = true) : distinctPairs pairs = true := by
  rw [Yaml.buildPairs, bind_eq_ok_iff] at h
  obtain ⟨step, -, h⟩ := h
  split at h
  · cases h
    exact hacc
  · obtain ⟨⟨k, place⟩, hk, h⟩ := bind_eq_ok_iff.mp h
    dsimp only at h
    split at h
    · cases h
    · rename_i hnew
      obtain ⟨⟨v, place'⟩, hv, h⟩ := bind_eq_ok_iff.mp h
      exact ih.pairs h (distinctPairs_reverse_cons (ih.value hk) (ih.value hv)
        (by simpa using hnew) hacc)

theorem BuildsDistinct.buildValue (hscalars : schema.DistinctScalars) {fuel : Nat}
    (ih : BuildsDistinct schema r fuel) {depth : Nat} {tagged : Bool} {p q : Place} {v : Value}
    (h : buildValue schema r (fuel + 1) depth tagged p = .ok (v, q)) : v.distinct = true := by
  rw [Yaml.buildValue, bind_eq_ok_iff] at h
  obtain ⟨⟨step, m⟩, -, h⟩ := h
  -- A shown tag is read first, and the value behind it is then built without it.
  have htagged : ∀ {t : String} {place : Place},
      (Yaml.buildValue schema r fuel depth true place >>= fun built =>
        .ok (Value.tagged t built.1, built.2)) = .ok (v, q) → v.distinct = true := by
    intro t place hbuilt
    obtain ⟨⟨inner, place'⟩, hinner, heq⟩ := bind_eq_ok_iff.mp hbuilt
    cases heq
    have hdistinct : inner.distinct = true := ih.value hinner
    exact hdistinct
  cases step with
  | «alias» id =>
      dsimp only at h
      split at h
      · cases h
      · split at h
        · cases h
        · obtain ⟨⟨inner, place⟩, hinner, h⟩ := bind_eq_ok_iff.mp h
          cases h
          exact ih.value hinner
  | scalar tag text style =>
      dsimp only at h
      split at h
      · exact htagged h
      · obtain ⟨w, hw, h⟩ := bind_eq_ok_iff.mp h
        cases h
        exact distinct_scalarValue hscalars hw
  | seqStart tag =>
      dsimp only at h
      split at h
      · exact htagged h
      · split at h
        · cases h
        · obtain ⟨⟨items, place⟩, hitems, h⟩ := bind_eq_ok_iff.mp h
          cases h
          exact distinctItems_iff.mpr (ih.items hitems (by simp))
  | mapStart tag =>
      dsimp only at h
      split at h
      · exact htagged h
      · split at h
        · cases h
        · obtain ⟨⟨pairs, place⟩, hpairs, h⟩ := bind_eq_ok_iff.mp h
          cases h
          exact ih.pairs hpairs rfl
  | seqEnd => cases h
  | mapEnd => cases h

/-- What is built from a recording has distinct keys, with any fuel. -/
theorem distinct_build (hscalars : schema.DistinctScalars) (r : Recording) (fuel : Nat) :
    BuildsDistinct schema r fuel := by
  induction fuel with
  | zero =>
      constructor
      · intro depth tagged p v q h
        cases h
      · intro depth acc p items q h
        cases h
      · intro depth start acc p pairs q h
        cases h
  | succ fuel ih => exact ⟨ih.buildValue hscalars, ih.buildItems, ih.buildPairs⟩

/-! ### Scalars of the core schema -/

theorem distinct_of_plain? {s : List Char} {v : Value} (h : Scalar.plain? s = some v) :
    v.distinct = true := by
  rw [Scalar.plain?] at h
  split at h
  · cases h
    rfl
  · split at h
    · cases h
      rfl
    · cases h
      rfl
    · cases h
    · dsimp only at h
      split at h
      · cases h
        rfl
      · cases h
        rfl

theorem distinct_of_core? {tag : String} {s : List Char} {v : Value}
    (h : Scalar.core? tag s = some v) : v.distinct = true := by
  rw [Scalar.core?] at h
  split at h
  · obtain ⟨b, -, rfl⟩ := Option.map_eq_some_iff.mp h
    rfl
  · split at h
    · split at h
      · cases h
        rfl
      · cases h
    · split at h
      · obtain ⟨x, -, rfl⟩ := Option.map_eq_some_iff.mp h
        rfl
      · split at h
        · split at h
          · cases h
            rfl
          · cases h
        · cases h
          rfl

theorem distinctScalars_core : Schema.core.DistinctScalars := by
  intro tag text style v h
  cases tag with
  | some t => exact distinct_of_core? h
  | none =>
      rw [Schema.core] at h
      dsimp only at h
      split at h
      · exact distinct_of_plain? h
      · cases h
        rfl

/-! ### Documents -/

theorem Recording.distinct_of_value? {r : Recording} {v : Option Value}
    (h : r.value? .core = .ok v) : (v.getD .null).distinct = true := by
  rw [value?] at h
  split at h
  · split at h
    · cases h
    · cases h
      rfl
  · obtain ⟨built, hbuilt, rfl⟩ := map_eq_ok_iff.mp h
    exact (distinct_build distinctScalars_core r _).value hbuilt

/-- A document that is read has the value that was built from its recording, whatever is looked
at afterwards. -/
theorem value?_of_readDocument {schema : Schema} {text : String} {v : Option Value}
    (h : readDocument schema text = .ok v) :
    (Recording.ofText text.toList).1.value? schema = .ok v := by
  rw [readDocument] at h
  obtain ⟨w, hw, h⟩ := bind_eq_ok_iff.mp h
  have hsame : w = v := by
    split at h
    · cases h
    · split at h
      · exact Except.ok.inj h
      · split at h
        · split at h
          · exact Except.ok.inj h
          · cases h
        · cases h
  exact hsame ▸ hw

/-- A value that was read from a text has distinct keys. -/
theorem distinct_of_readValue {text : String} {v : Value} (h : readValue text = .ok v) :
    v.distinct = true := by
  obtain ⟨w, hw, rfl⟩ := map_eq_ok_iff.mp h
  exact Recording.distinct_of_value? (value?_of_readDocument hw)

end Yaml

namespace Document

theorem distinct_of_ofText {text : String} {d : Document} (h : ofText text = .ok d) :
    d.value.distinct = true := by
  rw [ofText] at h
  split at h
  · cases h
  · rename_i v hv
    have hdistinct := Yaml.distinct_of_readValue hv
    cases v with
    | null =>
        cases h
        rfl
    | map root =>
        rw [ofValue] at h
        split at h
        · cases h
        · cases h
          exact hdistinct
    | _ => cases h

end Document

namespace Files

/-- The document of a file has distinct keys. -/
theorem distinct_of_loader {fs : Files} {path : FilePath} {d : Document}
    (h : (fs.loader path).outcome = .ok d) : d.value.distinct = true := by
  rw [loader] at h
  split at h
  · cases h
  · cases h
  · split at h
    · cases h
    · rename_i hd
      cases h
      exact Document.distinct_of_ofText hd

end Files

end Galley
