import Galley.Yaml.Value
import Mathlib.Data.List.Forall2

/-!
Equality of values, and mappings with distinct keys.

`Value.distinct` says that no mapping in a value holds two equal keys, as every
mapping that was read does. Equality is reflexive and transitive
(`same_refl`, `same_trans`), and symmetric on values with distinct keys
(`same_symm`): there a mapping that has all pairs of another one of the same size
has no further pair. So a key finds the same pair as any key equal to it
(`find?_congr`).
-/

namespace Galley

/-! ### Numbers -/

namespace Binary64

theorem not_isNaN_of_isZero {x : Binary64} (h : x.isZero = true) : x.isNaN = false := by
  simp only [isZero, Bool.and_eq_true, beq_iff_eq] at h
  simp [isNaN, h.1]

theorem same_iff {x y : Binary64} : x.same y = true ↔
    x = y ∨ (x.isZero = true ∧ y.isZero = true) ∨ (x.isNaN = true ∧ y.isNaN = true) := by
  obtain ⟨x⟩ := x
  obtain ⟨y⟩ := y
  simp [same, or_assoc]

theorem same_symm {x y : Binary64} (h : x.same y = true) : y.same x = true := by
  rw [same_iff] at h ⊢
  rcases h with h | h | h
  · exact .inl h.symm
  · exact .inr (.inl h.symm)
  · exact .inr (.inr h.symm)

theorem same_trans {x y z : Binary64} (hxy : x.same y = true) (hyz : y.same z = true) :
    x.same z = true := by
  rw [same_iff] at hxy hyz ⊢
  rcases hxy with rfl | ⟨hx, hy⟩ | ⟨hx, hy⟩
  · exact hyz
  · rcases hyz with rfl | ⟨-, hz⟩ | ⟨hy', -⟩
    · exact .inr (.inl ⟨hx, hy⟩)
    · exact .inr (.inl ⟨hx, hz⟩)
    · simp [not_isNaN_of_isZero hy] at hy'
  · rcases hyz with rfl | ⟨hy', -⟩ | ⟨-, hz⟩
    · exact .inr (.inr ⟨hx, hy⟩)
    · simp [not_isNaN_of_isZero hy'] at hy
    · exact .inr (.inr ⟨hx, hz⟩)

end Binary64

namespace Number

theorem same_refl (m : Number) : m.same m = true := by
  cases m with
  | whole n => exact beq_self_eq_true n
  | binary x => exact Binary64.same_iff.mpr (.inl rfl)

theorem same_symm {m n : Number} (h : m.same n = true) : n.same m = true := by
  cases m <;> cases n
  · exact beq_iff_eq.mpr (beq_iff_eq.mp h).symm
  · cases h
  · cases h
  · exact Binary64.same_symm h

theorem same_trans {l m n : Number} (hlm : l.same m = true) (hmn : m.same n = true) :
    l.same n = true := by
  cases m with
  | whole b =>
      cases l with
      | whole a => exact beq_iff_eq.mp hlm ▸ hmn
      | binary x => cases hlm
  | binary y =>
      cases l with
      | whole a => cases hlm
      | binary x =>
          cases n with
          | whole c => cases hmn
          | binary z => exact Binary64.same_trans hlm hmn

end Number

namespace Yaml

namespace Value

/-! ### Induction over values -/

/-- Induction over values: a sequence from its items, and a mapping from its keys
and values. -/
theorem induct {P : Value → Prop} (null : P .null) (bool : ∀ b, P (.bool b))
    (number : ∀ n, P (.number n)) (text : ∀ s, P (.text s))
    (seq : ∀ items, (∀ v ∈ items, P v) → P (.seq items))
    (map : ∀ pairs : Pairs, (∀ kv ∈ pairs, P kv.1 ∧ P kv.2) → P (.map pairs))
    (tagged : ∀ tag v, P v → P (.tagged tag v)) (v : Value) : P v :=
  @Value.rec P (fun items => ∀ v ∈ items, P v) (fun pairs => ∀ kv ∈ pairs, P kv.1 ∧ P kv.2)
    (fun kv => P kv.1 ∧ P kv.2) null bool number text seq map tagged
    (fun _ h => absurd h List.not_mem_nil)
    (fun _ _ head rest => List.forall_mem_cons.mpr ⟨head, rest⟩)
    (fun _ h => absurd h List.not_mem_nil)
    (fun _ _ head rest => List.forall_mem_cons.mpr ⟨head, rest⟩)
    (fun _ _ key value => ⟨key, value⟩) v

/-! ### Equality of values -/

theorem samePairs_iff {as bs : Pairs} : samePairs as bs = true ↔
    ∀ a ∈ as, ∃ b ∈ bs, a.1.same b.1 = true ∧ a.2.same b.2 = true := by
  induction as with
  | nil => simp [samePairs]
  | cons a as ih =>
      obtain ⟨k, v⟩ := a
      simp [samePairs, ih]

theorem sameItems_iff {as bs : List Value} :
    sameItems as bs = true ↔ List.Forall₂ (fun a b => same a b = true) as bs := by
  induction as generalizing bs with
  | nil => cases bs <;> simp [sameItems]
  | cons a as ih => cases bs <;> simp [sameItems, ih]

section Inversion

variable {w : Value}

theorem null_same_iff : null.same w = true ↔ w = .null := by
  cases w with
  | null => exact iff_of_true rfl rfl
  | _ => exact iff_of_false Bool.false_ne_true nofun

theorem bool_same_iff {b : Bool} : (bool b).same w = true ↔ w = .bool b := by
  cases w with
  | bool c =>
      have hsame : (bool b).same (bool c) = true ↔ b = c := beq_iff_eq
      rw [hsame, bool.injEq, eq_comm]
  | _ => exact iff_of_false Bool.false_ne_true nofun

theorem text_same_iff {s : String} : (text s).same w = true ↔ w = .text s := by
  cases w with
  | text t =>
      have hsame : (text s).same (text t) = true ↔ s = t := beq_iff_eq
      rw [hsame, text.injEq, eq_comm]
  | _ => exact iff_of_false Bool.false_ne_true nofun

theorem number_same_iff {m : Number} :
    (number m).same w = true ↔ ∃ n, w = .number n ∧ m.same n = true := by
  cases w with
  | number n =>
      have hsame : (number m).same (number n) = m.same n := rfl
      simp [hsame]
  | _ => exact iff_of_false Bool.false_ne_true nofun

theorem seq_same_iff {as : List Value} : (seq as).same w = true ↔
    ∃ bs, w = .seq bs ∧ List.Forall₂ (fun a b => same a b = true) as bs := by
  cases w with
  | seq bs =>
      have hsame : (seq as).same (seq bs) = sameItems as bs := rfl
      simp [hsame, sameItems_iff]
  | _ => exact iff_of_false Bool.false_ne_true nofun

/-- Two mappings are equal when they are of one size and the second has every pair
of the first. -/
theorem map_same_iff {as : Pairs} : (map as).same w = true ↔
    ∃ bs, w = .map bs ∧ as.length = bs.length ∧
      ∀ a ∈ as, ∃ b ∈ bs, a.1.same b.1 = true ∧ a.2.same b.2 = true := by
  cases w with
  | map bs =>
      have hsame : (map as).same (map bs) = (as.length == bs.length && samePairs as bs) := rfl
      simp [hsame, samePairs_iff]
  | _ => exact iff_of_false Bool.false_ne_true nofun

theorem tagged_same_iff {tag : String} {v : Value} : (tagged tag v).same w = true ↔
    ∃ tag' v', w = .tagged tag' v' ∧ bareTag tag = bareTag tag' ∧ v.same v' = true := by
  cases w with
  | tagged tag' v' =>
      have hsame : (tagged tag v).same (tagged tag' v') =
        (bareTag tag == bareTag tag' && v.same v') := rfl
      simp [hsame]
  | _ => exact iff_of_false Bool.false_ne_true nofun

end Inversion

theorem same_refl (v : Value) : v.same v = true := by
  induction v using induct with
  | null => exact null_same_iff.mpr rfl
  | bool b => exact bool_same_iff.mpr rfl
  | number n => exact number_same_iff.mpr ⟨n, rfl, n.same_refl⟩
  | text s => exact text_same_iff.mpr rfl
  | seq items ih => exact seq_same_iff.mpr ⟨items, rfl, List.forall₂_same.mpr ih⟩
  | map pairs ih => exact map_same_iff.mpr ⟨pairs, rfl, rfl, fun kv hkv => ⟨kv, hkv, ih kv hkv⟩⟩
  | tagged tag v ih => exact tagged_same_iff.mpr ⟨tag, v, rfl, rfl, ih⟩

theorem same_trans {u v w : Value} (huv : u.same v = true) (hvw : v.same w = true) :
    u.same w = true := by
  induction u using induct generalizing v w with
  | null => rwa [null_same_iff.mp huv] at hvw
  | bool b => rwa [bool_same_iff.mp huv] at hvw
  | text s => rwa [text_same_iff.mp huv] at hvw
  | number l =>
      obtain ⟨m, rfl, hlm⟩ := number_same_iff.mp huv
      obtain ⟨n, rfl, hmn⟩ := number_same_iff.mp hvw
      exact number_same_iff.mpr ⟨n, rfl, Number.same_trans hlm hmn⟩
  | seq as ih =>
      obtain ⟨bs, rfl, hab⟩ := seq_same_iff.mp huv
      obtain ⟨cs, rfl, hbc⟩ := seq_same_iff.mp hvw
      refine seq_same_iff.mpr ⟨cs, rfl, ?_⟩
      clear huv hvw
      induction hab generalizing cs with
      | nil => exact hbc
      | cons hab _ ihrest =>
          obtain ⟨iha, ih⟩ := List.forall_mem_cons.mp ih
          cases hbc with
          | cons hbc hrest => exact .cons (iha hab hbc) (ihrest ih _ hrest)
  | map as ih =>
      obtain ⟨bs, rfl, hlength, hab⟩ := map_same_iff.mp huv
      obtain ⟨cs, rfl, hlength', hbc⟩ := map_same_iff.mp hvw
      refine map_same_iff.mpr ⟨cs, rfl, hlength.trans hlength', ?_⟩
      intro a ha
      obtain ⟨b, hb, hkey, hvalue⟩ := hab a ha
      obtain ⟨c, hc, hkey', hvalue'⟩ := hbc b hb
      exact ⟨c, hc, (ih a ha).1 hkey hkey', (ih a ha).2 hvalue hvalue'⟩
  | tagged tag u ih =>
      obtain ⟨tag', v, rfl, htag, huv⟩ := tagged_same_iff.mp huv
      obtain ⟨tag'', w, rfl, htag', hvw⟩ := tagged_same_iff.mp hvw
      exact tagged_same_iff.mpr ⟨tag'', w, rfl, htag.trans htag', ih huv hvw⟩

/-! ### Distinct keys -/

mutual

def distinct : Value → Bool
  | .seq items => distinctItems items
  | .map pairs => distinctPairs pairs
  | .tagged _ v => distinct v
  | _ => true
termination_by structural v => v

def distinctItems : List Value → Bool
  | [] => true
  | v :: rest => distinct v && distinctItems rest
termination_by structural items => items

def distinctPairs : List (Value × Value) → Bool
  | [] => true
  | (k, v) :: rest =>
    distinct k && distinct v && !Pairs.contains k rest && distinctPairs rest
termination_by structural pairs => pairs

end

theorem distinctItems_iff {items : List Value} :
    distinctItems items = true ↔ ∀ v ∈ items, v.distinct = true := by
  induction items with
  | nil => simp [distinctItems]
  | cons v rest ih => simp [distinctItems, ih]

/-- The parts of distinct keys: those of the first pair, and that its key is new. -/
theorem distinctPairs_cons_iff {k v : Value} {rest : Pairs} :
    distinctPairs ((k, v) :: rest) = true ↔
      k.distinct = true ∧ v.distinct = true ∧ Pairs.contains k rest = false ∧
        distinctPairs rest = true := by
  simp only [distinctPairs, Bool.and_eq_true, Bool.not_eq_true', and_assoc]

theorem distinctPairs_iff {pairs : Pairs} : distinctPairs pairs = true ↔
    (∀ kv ∈ pairs, kv.1.distinct = true ∧ kv.2.distinct = true) ∧
      pairs.Pairwise fun a b => a.1.same b.1 = false := by
  induction pairs with
  | nil => simp [distinctPairs]
  | cons kv rest ih =>
      obtain ⟨k, v⟩ := kv
      have hnew : Pairs.contains k rest = false ↔ ∀ b ∈ rest, k.same b.1 = false := by
        simp [Pairs.contains]
      rw [distinctPairs_cons_iff, hnew, ih, List.forall_mem_cons, List.pairwise_cons]
      constructor
      · rintro ⟨hk, hv, hnew, hrest, hpairs⟩
        exact ⟨⟨⟨hk, hv⟩, hrest⟩, hnew, hpairs⟩
      · rintro ⟨⟨⟨hk, hv⟩, hrest⟩, hnew, hpairs⟩
        exact ⟨hk, hv, hnew, hrest, hpairs⟩

/-- When a list as long as another covers it element by element, no two elements by
the same one, it is covered by it. -/
theorem covered_of_covers {R : Value × Value → Value × Value → Prop} {as bs : Pairs}
    (hlength : as.length = bs.length) (hcovers : ∀ a ∈ as, ∃ b ∈ bs, R a b)
    (honce : as.Pairwise fun a a' => ∀ b ∈ bs, R a b → ¬ R a' b) :
    ∀ b ∈ bs, ∃ a ∈ as, R a b := by
  induction as generalizing bs with
  | nil =>
      rw [List.eq_nil_of_length_eq_zero hlength.symm]
      simp
  | cons a as ih =>
      obtain ⟨ha, honce⟩ := List.pairwise_cons.mp honce
      obtain ⟨⟨b, hb, hab⟩, hcovers⟩ := List.forall_mem_cons.mp hcovers
      -- Without `a` and the `b` that covers it, both lists are again equally long.
      obtain ⟨front, back, rfl⟩ := List.append_of_mem hb
      have hsub : ∀ c ∈ front ++ back, c ∈ front ++ b :: back := by
        intro c hc
        rcases List.mem_append.mp hc with hc | hc
        · exact List.mem_append_left _ hc
        · exact List.mem_append_right _ (List.mem_cons_of_mem _ hc)
      have hrest : ∀ c ∈ front ++ back, ∃ a' ∈ as, R a' c := ih
        (by simp only [List.length_cons, List.length_append] at hlength ⊢; omega)
        (fun a' ha' => by
          obtain ⟨c, hc, hac⟩ := hcovers a' ha'
          have hne : c ≠ b := fun heq => ha a' ha' b hb hab (heq ▸ hac)
          refine ⟨c, ?_, hac⟩
          simpa [hne] using hc)
        (honce.imp fun h c hc => h c (hsub c hc))
      intro c hc
      by_cases hcb : c = b
      · exact ⟨a, List.mem_cons_self, hcb ▸ hab⟩
      · obtain ⟨a', ha', hac⟩ := hrest c (by simpa [hcb] using hc)
        exact ⟨a', List.mem_cons_of_mem _ ha', hac⟩

theorem same_symm {v w : Value} (hv : v.distinct = true) (hw : w.distinct = true)
    (h : v.same w = true) : w.same v = true := by
  induction v using induct generalizing w with
  | null => exact null_same_iff.mp h ▸ same_refl _
  | bool b => exact bool_same_iff.mp h ▸ same_refl _
  | text s => exact text_same_iff.mp h ▸ same_refl _
  | number m =>
      obtain ⟨n, rfl, hmn⟩ := number_same_iff.mp h
      exact number_same_iff.mpr ⟨m, rfl, Number.same_symm hmn⟩
  | seq as ih =>
      obtain ⟨bs, rfl, hab⟩ := seq_same_iff.mp h
      refine seq_same_iff.mpr ⟨as, rfl, ?_⟩
      replace hv := distinctItems_iff.mp hv
      replace hw := distinctItems_iff.mp hw
      clear h
      induction hab with
      | nil => exact .nil
      | cons hab _ ihrest =>
          obtain ⟨iha, ih⟩ := List.forall_mem_cons.mp ih
          obtain ⟨hva, hv⟩ := List.forall_mem_cons.mp hv
          obtain ⟨hwb, hw⟩ := List.forall_mem_cons.mp hw
          exact .cons (iha hva hwb hab) (ihrest ih hv hw)
  | map as ih =>
      obtain ⟨bs, rfl, hlength, hab⟩ := map_same_iff.mp h
      obtain ⟨hv, hkeys⟩ := distinctPairs_iff.mp hv
      obtain ⟨hw, -⟩ := distinctPairs_iff.mp hw
      -- Two pairs that one pair of the other mapping is equal to have equal keys.
      have honce : as.Pairwise fun a a' => ∀ b ∈ bs,
          (a.1.same b.1 = true ∧ a.2.same b.2 = true) →
            ¬ (a'.1.same b.1 = true ∧ a'.2.same b.2 = true) := by
        refine hkeys.imp_of_mem fun {a a'} _ ha' hne b hb hab hab' => ?_
        have hback := (ih a' ha').1 (hv a' ha').1 (hw b hb).1 hab'.1
        exact Bool.false_ne_true (hne.symm.trans (same_trans hab.1 hback))
      refine map_same_iff.mpr ⟨as, rfl, hlength.symm, ?_⟩
      intro b hb
      obtain ⟨a, ha, hkey, hvalue⟩ := covered_of_covers hlength hab honce b hb
      exact ⟨a, ha, (ih a ha).1 (hv a ha).1 (hw b hb).1 hkey,
        (ih a ha).2 (hv a ha).2 (hw b hb).2 hvalue⟩
  | tagged tag v ih =>
      obtain ⟨tag', w, rfl, htag, hvw⟩ := tagged_same_iff.mp h
      exact tagged_same_iff.mpr ⟨tag, v, rfl, htag.symm, ih hv hw hvw⟩

theorem same_comm {v w : Value} (hv : v.distinct = true) (hw : w.distinct = true) :
    v.same w = w.same v :=
  Bool.eq_iff_iff.mpr ⟨same_symm hv hw, same_symm hw hv⟩

/-- Equal values are equal to the same values. -/
theorem same_congr {u v : Value} (hu : u.distinct = true) (hv : v.distinct = true)
    (h : u.same v = true) (w : Value) : u.same w = v.same w :=
  Bool.eq_iff_iff.mpr ⟨same_trans (same_symm hu hv h), same_trans h⟩

end Value

/-! ### Pairs of a key -/

namespace Pairs

open Value

theorem contains_eq_false_iff {k : Value} {pairs : Pairs} :
    contains k pairs = false ↔ ∀ kv ∈ pairs, k.same kv.1 = false := by
  simp [contains]

@[simp] theorem contains_nil (k : Value) : contains k [] = false := rfl

@[simp] theorem contains_cons (k : Value) (kv : Value × Value) (pairs : Pairs) :
    contains k (kv :: pairs) = (k.same kv.1 || contains k pairs) := rfl

@[simp] theorem find?_nil (k : Value) : find? k [] = none := rfl

theorem find?_cons (k : Value) (kv : Value × Value) (pairs : Pairs) :
    find? k (kv :: pairs) = if k.same kv.1 then some kv.2 else find? k pairs := by
  rw [find?, List.find?_cons]
  cases k.same kv.1 <;> rfl

theorem find?_eq_none_iff {k : Value} {pairs : Pairs} :
    find? k pairs = none ↔ contains k pairs = false := by
  simp [find?, contains]

theorem mem_of_find? {k v : Value} {pairs : Pairs} (h : find? k pairs = some v) :
    ∃ kv ∈ pairs, k.same kv.1 = true ∧ kv.2 = v := by
  obtain ⟨kv, hkv, hv⟩ := Option.map_eq_some_iff.mp h
  have hkey := List.find?_some hkv
  exact ⟨kv, List.mem_of_find?_eq_some hkv, hkey, hv⟩

/-- What is found in a mapping has distinct keys when the mapping does. -/
theorem distinct_of_find? {k v : Value} {pairs : Pairs} (hpairs : distinctPairs pairs = true)
    (h : find? k pairs = some v) : v.distinct = true := by
  obtain ⟨kv, hkv, -, rfl⟩ := mem_of_find? h
  exact ((distinctPairs_iff.mp hpairs).1 kv hkv).2

/-- Equal keys find the same value. -/
theorem find?_congr {j k : Value} (hj : j.distinct = true) (hk : k.distinct = true)
    (h : j.same k = true) (pairs : Pairs) : find? j pairs = find? k pairs := by
  simp only [find?, same_congr hj hk h]

/-- A pair is what its key finds. -/
theorem find?_of_mem {kv : Value × Value} {pairs : Pairs} (hpairs : distinctPairs pairs = true)
    (hkv : kv ∈ pairs) : find? kv.1 pairs = some kv.2 := by
  obtain ⟨hdistinct, hkeys⟩ := distinctPairs_iff.mp hpairs
  induction pairs with
  | nil => cases hkv
  | cons head rest ih =>
      obtain ⟨hhead, hkeys⟩ := List.pairwise_cons.mp hkeys
      obtain ⟨hheadDistinct, hdistinct⟩ := List.forall_mem_cons.mp hdistinct
      rcases List.mem_cons.mp hkv with rfl | hkv
      · rw [find?_cons, if_pos (same_refl _)]
      · have hne : kv.1.same head.1 = false := by
          rw [same_comm (hdistinct kv hkv).1 hheadDistinct.1]
          exact hhead kv hkv
        rw [find?_cons, if_neg (by simp [hne])]
        exact ih (distinctPairs_iff.mpr ⟨hdistinct, hkeys⟩) hkv hdistinct hkeys

/-- Equal keys are present together. -/
theorem contains_congr {j k : Value} (hj : j.distinct = true) (hk : k.distinct = true)
    (h : j.same k = true) (pairs : Pairs) : contains j pairs = contains k pairs := by
  simp only [contains, same_congr hj hk h]

end Pairs

end Yaml

end Galley
