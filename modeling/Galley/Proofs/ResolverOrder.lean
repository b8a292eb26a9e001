import Galley.Proofs.Reordering
import Galley.Proofs.ResolverWrites

/-!
The order of resolvers.

A list of resolvers that follow plans succeeds when each of them does (`resolves_iff`), and
its model holds under each key what the last resolver that writes the key stores there. So
the order counts between resolvers that write a common key only, and the log tells of as
many replaced entries as there are more writes than keys (`resolve_decided_by_writes`).
-/

namespace Galley.Registry

section

variable [CallerTypes] {d : Document} {resolvers resolvers' : Registry} {plan : Resolver → Plan}

/-- Both plans store an entry under one key. -/
def CommonKey (plan : Resolver → Plan) (r r' : Resolver) : Prop :=
  ∃ key, key ∈ (plan r).keys ∧ key ∈ (plan r').keys

/-- The entries that resolvers store, from the first write to the last. -/
def writesOf (plan : Resolver → Plan) (resolvers : Registry) : List (String × Entry) :=
  resolvers.flatMap fun r => (plan r).writes

theorem writesOf_cons (r : Resolver) (rest : Registry) :
    writesOf plan (r :: rest) = (plan r).writes ++ writesOf plan rest :=
  List.flatMap_cons

/-! ### Success -/

theorem planOf_eq_ok (h : ∀ r ∈ resolvers, ∃ writes, plan r = .ok writes) :
    planOf plan resolvers = .ok (writesOf plan resolvers) := by
  induction resolvers with
  | nil => rfl
  | cons r rest ih =>
      obtain ⟨⟨writes, hr⟩, hrest⟩ := List.forall_mem_cons.mp h
      rw [planOf, ih hrest, writesOf_cons, hr]
      rfl

theorem ok_of_planOf {all : List (String × Entry)} (h : planOf plan resolvers = .ok all) :
    ∀ r ∈ resolvers, ∃ writes, plan r = .ok writes := by
  induction resolvers generalizing all with
  | nil => simp
  | cons r rest ih =>
      rw [planOf] at h
      cases hr : plan r with
      | error fault =>
          rw [hr] at h
          cases h
      | ok writes =>
          cases hrest : planOf plan rest with
          | error fault =>
              rw [hr, hrest] at h
              cases h
          | ok writes' => exact List.forall_mem_cons.mpr ⟨⟨writes, hr⟩, ih hrest⟩

theorem puts_resolve (h : ∀ r ∈ resolvers, r.Follows d (plan r)) :
    (resolvers.resolve d).Puts .empty (planOf plan resolvers) :=
  puts_runOn h .empty

/-- Resolvers succeed when their plans do. -/
theorem resolves_iff (h : ∀ r ∈ resolvers, r.Follows d (plan r)) :
    (∃ m, (resolvers.resolve d).outcome = .ok m) ↔
      ∀ r ∈ resolvers, ∃ writes, plan r = .ok writes := by
  rw [(puts_resolve h).outcome]
  constructor
  · rintro ⟨m, hm⟩
    cases hplan : planOf plan resolvers with
    | error fault =>
        rw [hplan] at hm
        cases hm
    | ok all => exact ok_of_planOf hplan
  · intro hok
    rw [planOf_eq_ok hok]
    exact ⟨_, rfl⟩

/-- The model of resolvers is what their writes make of the empty one. -/
theorem eq_putAll_of_resolve (h : ∀ r ∈ resolvers, r.Follows d (plan r)) {m : Model}
    (hm : (resolvers.resolve d).outcome = .ok m) :
    planOf plan resolvers = .ok (writesOf plan resolvers) ∧
      m = (Model.empty.putAll (writesOf plan resolvers)).value := by
  have hplan := planOf_eq_ok ((resolves_iff h).mp ⟨m, hm⟩)
  rw [(puts_resolve h).outcome, hplan] at hm
  exact ⟨hplan, (Except.ok.inj hm).symm⟩

/-! ### The last write -/

/-- A later resolver comes first when the last write is looked for. -/
theorem find?_writesOf_cons (r : Resolver) (rest : Registry) (key : String) :
    Fields.find? key (writesOf plan (r :: rest)).reverse =
      (Fields.find? key (writesOf plan rest).reverse).or
        (Fields.find? key (plan r).writes.reverse) := by
  rw [writesOf_cons, List.reverse_append, Fields.find?_append]

/-- Only the resolvers that write a key count for what is found under it. -/
theorem find?_writesOf_filter (resolvers : Registry) (key : String) :
    Fields.find? key (writesOf plan resolvers).reverse =
      Fields.find? key
        (writesOf plan (resolvers.filter fun r => decide (key ∈ (plan r).keys))).reverse := by
  induction resolvers with
  | nil => rfl
  | cons r rest ih =>
      rw [find?_writesOf_cons, ih]
      by_cases hr : key ∈ (plan r).keys
      · rw [List.filter_cons_of_pos (by simpa using hr), find?_writesOf_cons]
      · have hnone : Fields.find? key (plan r).writes.reverse = none :=
          Fields.find?_reverse_eq_none_iff.mpr hr
        rw [List.filter_cons_of_neg (by simpa using hr), hnone, Option.or_none]

/-- The last write under a key is one of the last resolver that writes the key. -/
theorem find?_writesOf_last {front back : Registry} {r : Resolver} {key : String}
    (hr : key ∈ (plan r).keys) (hback : ∀ r' ∈ back, key ∉ (plan r').keys) :
    Fields.find? key (writesOf plan (front ++ r :: back)).reverse =
      Fields.find? key (plan r).writes.reverse := by
  have hnone : Fields.find? key (writesOf plan back).reverse = none := by
    have hfilter : back.filter (fun r' => decide (key ∈ (plan r').keys)) = [] := by
      rw [List.filter_eq_nil_iff]
      intro r' hr'
      simpa using hback r' hr'
    rw [find?_writesOf_filter, hfilter]
    rfl
  obtain ⟨e, he⟩ : ∃ e, Fields.find? key (plan r).writes.reverse = some e := by
    rw [← Option.ne_none_iff_exists', ne_eq, Fields.find?_reverse_eq_none_iff, not_not]
    exact hr
  induction front with
  | nil => rw [List.nil_append, find?_writesOf_cons, hnone, Option.none_or]
  | cons r' front ih => rw [List.cons_append, find?_writesOf_cons, ih, he, Option.some_or]

/-! ### The model -/

section Model

variable {m : Model}

theorem sorted_of_resolve (h : ∀ r ∈ resolvers, r.Follows d (plan r))
    (hm : (resolvers.resolve d).outcome = .ok m) : Fields.Sorted m.entries := by
  obtain ⟨-, rfl⟩ := eq_putAll_of_resolve h hm
  exact Model.sorted_putAll Fields.sorted_nil

/-- An entry of the model is the last one that was written under its key. -/
theorem entry?_of_resolve (h : ∀ r ∈ resolvers, r.Follows d (plan r))
    (hm : (resolvers.resolve d).outcome = .ok m) (key : String) :
    m.entry? key = Fields.find? key (writesOf plan resolvers).reverse := by
  obtain ⟨-, rfl⟩ := eq_putAll_of_resolve h hm
  rw [Model.entry?_putAll]
  exact Option.or_none

/-- The keys of the model are those that a resolver writes. -/
theorem mem_keys_of_resolve (h : ∀ r ∈ resolvers, r.Follows d (plan r))
    (hm : (resolvers.resolve d).outcome = .ok m) (key : String) :
    key ∈ m.keys ↔ ∃ r ∈ resolvers, key ∈ (plan r).keys := by
  have hentry := entry?_of_resolve h hm key
  have hkeys : key ∈ Fields.keys (writesOf plan resolvers) ↔
      ∃ r ∈ resolvers, key ∈ (plan r).keys := by
    simp only [Fields.keys, writesOf, Plan.keys, List.map_flatMap, List.mem_flatMap]
  rw [← hkeys, ← not_iff_not, ← Fields.find?_reverse_eq_none_iff, ← hentry]
  exact Fields.find?_eq_none_iff.symm

/-- As often as a resolver writes, it adds an entry or is told to replace one. -/
theorem overwrites_of_resolve (h : ∀ r ∈ resolvers, r.Follows d (plan r))
    (hm : (resolvers.resolve d).outcome = .ok m) :
    (Model.overwrites (resolvers.resolve d).lines ++ m.keys).Perm
      (Fields.keys (writesOf plan resolvers)) := by
  obtain ⟨hplan, rfl⟩ := eq_putAll_of_resolve h hm
  rw [(puts_resolve h).overwrites _ hplan]
  have hperm := @Model.overwrites_putAll_perm _ (writesOf plan resolvers) .empty Fields.sorted_nil
  rwa [show Model.empty.keys = [] from rfl, List.append_nil] at hperm

/-- A resolver alone has the entries of its own writes. -/
theorem entry?_of_resolve_alone {r : Resolver} (h : r.Follows d (plan r))
    (hm : (resolve [r] d).outcome = .ok m) (key : String) :
    m.entry? key = Fields.find? key (plan r).writes.reverse := by
  have halone : ∀ r' ∈ [r], r'.Follows d (plan r') := List.forall_mem_singleton.mpr h
  rw [entry?_of_resolve halone hm key, find?_writesOf_cons]
  exact Option.none_or

end Model

/-! ### Reordering -/

section Reordering

variable {m : Model}

theorem follows_reordered (horder : Reordered (CommonKey plan) resolvers resolvers')
    (h : ∀ r ∈ resolvers, r.Follows d (plan r)) : ∀ r ∈ resolvers', r.Follows d (plan r) :=
  fun r hr => h r (horder.mem_iff.mp hr)

/-- The last writes are the same when resolvers that write a common key keep their order. -/
theorem find?_writesOf_reordered (horder : Reordered (CommonKey plan) resolvers resolvers')
    (key : String) : Fields.find? key (writesOf plan resolvers').reverse =
      Fields.find? key (writesOf plan resolvers).reverse := by
  have hfilter := @Reordered.filter_eq _ _ _ _ (fun r => decide (key ∈ (plan r).keys)) horder
    (by
      intro r r' hr hr'
      exact ⟨key, by simpa using hr, by simpa using hr'⟩)
  rw [find?_writesOf_filter, hfilter, ← find?_writesOf_filter]

/-- A reordering makes the same model. -/
theorem resolve_reordered (horder : Reordered (CommonKey plan) resolvers resolvers')
    (h : ∀ r ∈ resolvers, r.Follows d (plan r)) :
    (resolvers'.resolve d).outcome = .ok m ↔ (resolvers.resolve d).outcome = .ok m := by
  have h' := follows_reordered horder h
  have hsucceeds : (∃ m, (resolvers'.resolve d).outcome = .ok m) ↔
      ∃ m, (resolvers.resolve d).outcome = .ok m := by
    rw [resolves_iff h, resolves_iff h']
    simp only [horder.mem_iff]
  -- Entries are sorted, so models in which the same is found under each key are the same.
  have hsame : ∀ n n', (resolvers.resolve d).outcome = .ok n →
      (resolvers'.resolve d).outcome = .ok n' → n' = n := by
    intro n n' hn hn'
    have hentries : n'.entries = n.entries := by
      refine Fields.eq_of_find?_eq (sorted_of_resolve h' hn') (sorted_of_resolve h hn) ?_
      intro key
      have hfound := entry?_of_resolve h hn key
      have hfound' := entry?_of_resolve h' hn' key
      rw [Model.entry?] at hfound hfound'
      rw [hfound, hfound', find?_writesOf_reordered horder]
    cases n
    cases n'
    exact congrArg Model.mk hentries
  constructor
  · intro hm
    obtain ⟨n, hn⟩ := hsucceeds.mp ⟨m, hm⟩
    rw [hn, hsame n m hn hm]
  · intro hm
    obtain ⟨n', hn'⟩ := hsucceeds.mpr ⟨m, hm⟩
    rw [hn', hsame m n' hm hn']

end Reordering

/-- What resolvers write decides about their model. The stock resolvers write what the
document alone tells, and for any list of resolvers that do: it succeeds exactly when each
resolver alone does; the keys of its model, each there once, are those that a resolver
writes; the entry of a key is that of the last resolver in order which writes it; and it
tells of as many replaced entries as there are more writes than keys. A reordering that
keeps the order of resolvers with a common key succeeds for the same documents and makes
the same model. -/
theorem resolve_decided_by_writes (d : Document) :
    (∀ r, Resolver.IsStock r → ∃ plan, r.Follows d plan) ∧
    ∀ (resolvers : Registry) (plan : Resolver → Plan),
      (∀ r ∈ resolvers, r.Follows d (plan r)) →
      ((∃ m, (resolvers.resolve d).outcome = .ok m) ↔
        ∀ r ∈ resolvers, ∃ m, (resolve [r] d).outcome = .ok m) ∧
      (∀ m, (resolvers.resolve d).outcome = .ok m →
        m.keys.Nodup ∧
        (∀ key, key ∈ m.keys ↔ ∃ r ∈ resolvers, key ∈ (plan r).keys) ∧
        (∀ front r back key, resolvers = front ++ r :: back → key ∈ (plan r).keys →
          (∀ r' ∈ back, key ∉ (plan r').keys) →
          ∃ own e, (resolve [r] d).outcome = .ok own ∧ own.entry? key = some e ∧
            m.entry? key = some e) ∧
        (Model.overwrites (resolvers.resolve d).lines).length + m.size =
          (resolvers.flatMap fun r => (plan r).keys).length) ∧
      ∀ resolvers' : Registry, Reordered (CommonKey plan) resolvers resolvers' →
        ∀ m, (resolvers'.resolve d).outcome = .ok m ↔ (resolvers.resolve d).outcome = .ok m := by
  refine ⟨fun r hr => Resolver.follows_of_isStock hr d, ?_⟩
  intro resolvers plan h
  have halone : ∀ r ∈ resolvers, ((∃ m, (resolve [r] d).outcome = .ok m) ↔
      ∃ writes, plan r = .ok writes) := by
    intro r hr
    rw [resolves_iff (List.forall_mem_singleton.mpr (h r hr)), List.forall_mem_singleton]
  have hsucceeds : (∃ m, (resolvers.resolve d).outcome = .ok m) ↔
      ∀ r ∈ resolvers, ∃ m, (resolve [r] d).outcome = .ok m := by
    rw [resolves_iff h]
    exact forall₂_congr fun r hr => (halone r hr).symm
  refine ⟨hsucceeds, ?_, ?_⟩
  · intro m hm
    refine ⟨Fields.nodup_keys (sorted_of_resolve h hm), mem_keys_of_resolve h hm, ?_, ?_⟩
    · rintro front r back key rfl hkey hback
      have hr : r ∈ front ++ r :: back := by simp
      obtain ⟨own, hown⟩ := hsucceeds.mp ⟨m, hm⟩ r hr
      obtain ⟨e, he⟩ : ∃ e, m.entry? key = some e := by
        have hin : key ∈ m.keys := (mem_keys_of_resolve h hm key).mpr ⟨r, hr, hkey⟩
        exact Option.isSome_iff_exists.mp (Fields.contains_iff.mpr hin)
      refine ⟨own, e, hown, ?_, he⟩
      rw [entry?_of_resolve_alone (h r hr) hown, ← he, entry?_of_resolve h hm,
        find?_writesOf_last hkey hback]
    · have hcount := (overwrites_of_resolve h hm).length_eq
      rw [List.length_append] at hcount
      have hkeys : m.keys.length = m.size := List.length_map ..
      have hwrites : Fields.keys (writesOf plan resolvers) =
          resolvers.flatMap fun r => (plan r).keys := List.map_flatMap
      rw [← hkeys, hcount, hwrites]
  · intro resolvers' horder m
    exact resolve_reordered horder h

end

/-- A collection and the service API store one key, and a collection that stores another
one moves from the end to the front. -/
theorem resolve_decided_by_writes_shared_key :
    let d : Document := ⟨[(.text "services", .null), (.text "flags", .seq [.bool true])]⟩
    let services : Resolver := .collection "services" .json
    let flags : Resolver := .collection "flags" .flag
    ∃ m, (resolve [services, .serviceApi, flags] d).outcome = .ok m ∧
      (resolve [flags, services, .serviceApi] d).outcome = .ok m ∧
      (∃ own e, (resolve [.serviceApi] d).outcome = .ok own ∧
        own.entry? "services" = some e ∧ m.entry? "services" = some e) ∧
      (Model.overwrites (resolve [services, .serviceApi, flags] d).lines).length + m.size = 6 := by
  intro d services flags
  let plan : Resolver → Plan := fun r =>
    if r.name = "service-api" then Resolver.serviceApiPlan d
    else if r.name = "collection:flags" then Resolver.collectionPlan "flags" .flag none d
    else Resolver.collectionPlan "services" .json none d
  have hfollows : ∀ r ∈ [services, .serviceApi, flags], r.Follows d (plan r) := by
    simp only [List.forall_mem_cons]
    refine ⟨?_, ?_, ?_, by simp⟩
    · exact Resolver.follows_collection "services" .json none d
    · exact Resolver.follows_serviceApi d
    · exact Resolver.follows_collection "flags" .flag none d
  have hflags : (plan flags).keys = ["flags"] := rfl
  have hservices : (plan services).keys = ["services"] := rfl
  have hserviceApi : (plan .serviceApi).keys =
      ["datasources", "services", "rest_resources", "data_accesses"] := rfl
  have horder : Reordered (CommonKey plan) [services, .serviceApi, flags]
      [flags, services, .serviceApi] := by
    refine ⟨[(flags, 2), (services, 0), (.serviceApi, 1)], ?_, rfl, ?_⟩
    · exact (List.Perm.swap _ _ _).trans ((List.Perm.swap _ _ _).cons _)
    · simp [CommonKey, hflags, hservices, hserviceApi]
  obtain ⟨-, hall⟩ := resolve_decided_by_writes d
  obtain ⟨hsucceeds, hmodel, hreordered⟩ := hall _ plan hfollows
  obtain ⟨m, hm⟩ : ∃ m, (resolve [services, .serviceApi, flags] d).outcome = .ok m := by
    apply hsucceeds.mpr
    simp only [List.forall_mem_cons]
    exact ⟨⟨_, rfl⟩, ⟨_, rfl⟩, ⟨_, rfl⟩, by simp⟩
  obtain ⟨-, -, hlast, hcount⟩ := hmodel m hm
  refine ⟨m, hm, (hreordered _ horder m).mpr hm, ?_, ?_⟩
  · refine hlast [services] .serviceApi [flags] "services" rfl ?_ ?_
    · rw [hserviceApi]
      decide
    · simp [hflags]
  · rw [hcount]
    simp [hflags, hservices, hserviceApi]

end Galley.Registry
