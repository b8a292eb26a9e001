import Galley.Proofs.FileOrder
import Galley.Proofs.StoredLists

/-!
What documents declare under a key.

Documents that hold nothing, a null or a sequence under a key are merged to one sequence with
the items of all of them, from first to last (`Document.find?_mergeAll_of_listsAt`). So what
is read of the merge are the declared items, each once and in this order, and reading fails
exactly when an item cannot be read (`readSequence_mergeAll_eq_ok_iff`). In particular the
entities of a model are those that the documents declare, and a name leads to the one that is
declared first (`Resolver.declared_resolved_in_order`).
-/

namespace Galley

namespace Yaml

namespace Value

theorem NullOrSeq.merge {v w : Value} (hv : v.NullOrSeq) (hw : w.NullOrSeq) :
    (v.merge w).NullOrSeq ∧ (v.merge w).items = v.items ++ w.items := by
  rcases hw with rfl | ⟨bs, rfl⟩
  · exact ⟨hv, (List.append_nil _).symm⟩
  · rcases hv with rfl | ⟨as, rfl⟩
    · exact ⟨.inr ⟨bs, rfl⟩, rfl⟩
    · exact ⟨.inr ⟨as ++ bs, rfl⟩, rfl⟩

end Value

/-- A mapping with distinct keys holds one value of a key at most. -/
theorem Pairs.valuesOf_eq_toList_find? {pairs : Pairs} (h : Value.distinctPairs pairs = true)
    (key : String) : valuesOf key pairs = (findText? key pairs).toList := by
  induction pairs with
  | nil => rfl
  | cons kv rest ih =>
      obtain ⟨k, v⟩ := kv
      obtain ⟨-, -, hnew, hrest⟩ := Value.distinctPairs_cons_iff.mp h
      rw [findText?, find?_cons]
      by_cases hk : (Value.text key).same k = true
      · rw [Value.text_same_iff.mp hk] at hnew ⊢
        have hcons : valuesOf key ((.text key, v) :: rest) = v :: valuesOf key rest := by
          simp [valuesOf, Value.same_refl]
        rw [if_pos (Value.same_refl _), hcons, valuesOf_eq_nil hnew]
        rfl
      · have hcons : valuesOf key ((k, v) :: rest) = valuesOf key rest := by
          simp [valuesOf, hk]
        rw [if_neg hk, hcons, ih hrest, findText?]

end Yaml

open Yaml Yaml.Value

namespace Document

/-! ### Sequences in a merge -/

/-- A document holds nothing, null or a sequence under a key. Where keys are distinct, this is
said of what is found under the key (`listsAt_iff`). -/
def ListsAt (key : String) (d : Document) : Prop :=
  ∀ v ∈ Pairs.valuesOf key d.root, v.NullOrSeq

/-- The items that a document declares under a key: those of the sequence that is found there
(`itemsAt_eq`). -/
def itemsAt (key : String) (d : Document) : List Yaml.Value :=
  (Pairs.valuesOf key d.root).flatMap items

theorem listsAt_iff {key : String} {d : Document} (h : d.value.distinct = true) :
    d.ListsAt key ↔ ∀ v, d.find? key = some v → v.NullOrSeq := by
  rw [ListsAt, Pairs.valuesOf_eq_toList_find? h]
  simp [find?]

theorem itemsAt_eq {key : String} {d : Document} (h : d.value.distinct = true) :
    d.itemsAt key = (d.find? key).elim [] items := by
  rw [itemsAt, Pairs.valuesOf_eq_toList_find? h, find?]
  cases Pairs.findText? key d.root with
  | none => rfl
  | some v => exact List.append_nil _

/-- Values that are null or sequences are merged to one with the items of all. -/
theorem items_mergeValues {values : List Yaml.Value} (h : ∀ v ∈ values, v.NullOrSeq) :
    (∀ v, mergeValues values = some v → v.NullOrSeq) ∧
      (mergeValues values).elim [] items = values.flatMap items := by
  induction values using List.reverseRecOn with
  | nil => exact ⟨by simp [mergeValues], rfl⟩
  | append_singleton values w ih =>
      obtain ⟨hvalues, hw⟩ := List.forall_mem_append.mp h
      obtain ⟨hkind, hitems⟩ := ih hvalues
      have hw := hw w List.mem_cons_self
      rw [mergeValues_concat, List.flatMap_append, ← hitems, List.flatMap_singleton]
      cases hmerge : mergeValues values with
      | none =>
          refine ⟨fun v hv => ?_, rfl⟩
          cases hv
          exact hw
      | some v =>
          obtain ⟨hmerged, heq⟩ := (hkind v hmerge).merge hw
          refine ⟨fun u hu => ?_, heq⟩
          cases hu
          exact hmerged

/-- Where documents hold nothing, null or sequences, their merge does, and it has the items of
all of them. -/
theorem find?_mergeAll_of_listsAt {key : String} {documents : List Document}
    (h : ∀ d ∈ documents, d.ListsAt key) :
    (∀ v, (mergeAll documents).find? key = some v → v.NullOrSeq) ∧
      ((mergeAll documents).find? key).elim [] items = documents.flatMap (itemsAt key) := by
  have hvalues : ∀ v ∈ documents.flatMap fun d => Pairs.valuesOf key d.root, v.NullOrSeq := by
    intro v hv
    obtain ⟨d, hd, hv⟩ := List.mem_flatMap.mp hv
    exact h d hd v hv
  have hitems : (documents.flatMap fun d => Pairs.valuesOf key d.root).flatMap items =
      documents.flatMap (itemsAt key) := List.flatMap_assoc
  rw [find?_mergeAll, ← hitems]
  exact items_mergeValues hvalues

end Document

/-! ### Reading declared items -/

section Reading

variable {α β : Type} {R : α → β → Prop}

/-- What is related to a concatenation is a concatenation. -/
theorem forall₂_flatMap_iff {γ : Type} {f : γ → List α} {xs : List γ} {ys : List β} :
    List.Forall₂ R (xs.flatMap f) ys ↔
      ∃ lists, List.Forall₂ (fun x l => List.Forall₂ R (f x) l) xs lists ∧ ys = lists.flatten := by
  induction xs generalizing ys with
  | nil => simp
  | cons x xs ih =>
      rw [List.flatMap_cons]
      constructor
      · intro h
        have hfront := List.forall₂_take (f x).length h
        have hback := List.forall₂_drop (f x).length h
        rw [List.take_left] at hfront
        rw [List.drop_left] at hback
        obtain ⟨lists, hlists, heq⟩ := ih.mp hback
        refine ⟨_ :: lists, .cons hfront hlists, ?_⟩
        rw [List.flatten_cons, ← heq, List.take_append_drop]
      · rintro ⟨_, hlists, rfl⟩
        cases hlists with
        | cons hx hxs => exact List.rel_append hx (ih.mpr ⟨_, hxs, rfl⟩)

end Reading

/-! ### Names -/

namespace Entity

variable {k : EntityKind} {name : String} {e : Entity k}

/-- Whether an item is read as an entity of a name. -/
def declares (k : EntityKind) (name : String) (v : Yaml.Value) : Bool :=
  match ofValue k v with
  | .ok e => e.name == name
  | .error _ => false

/-- The entity of a name that is declared first: the earliest one of the earliest document
that declares one. -/
def FirstDeclared (documents : List Document) (name : String) (e : Entity k) : Prop :=
  ∃ before d after front v back, documents = before ++ d :: after ∧
    d.itemsAt k.key = front ++ v :: back ∧ ofValue k v = .ok e ∧ e.name = name ∧
    (∀ d' ∈ before, ∀ u ∈ d'.itemsAt k.key, declares k name u = false) ∧
    ∀ u ∈ front, declares k name u = false

theorem declares_iff {v : Yaml.Value} (h : ofValue k v = .ok e) :
    declares k name v = true ↔ e.name = name := by
  rw [declares, h]
  exact beq_iff_eq

/-- The first entity of a name is read from the first item that declares one. -/
theorem find?_declares {items : List Yaml.Value} {es : Entities k}
    (h : List.Forall₂ (fun v e => ofValue k v = .ok e) items es) :
    es.named? name = some e ↔
      ∃ v, items.find? (declares k name) = some v ∧ ofValue k v = .ok e := by
  induction h with
  | nil => simp [Entities.named?]
  | @cons v e' items es hv _ ih =>
      rw [Entities.named?, List.find?_cons, List.find?_cons]
      by_cases hname : e'.name = name
      · have hdeclares : declares k name v = true := (declares_iff hv).mpr hname
        simp [hname, hdeclares, hv]
      · have hdeclares : declares k name v = false :=
          Bool.eq_false_iff.mpr fun hd => hname ((declares_iff hv).mp hd)
        have hne : (e'.name == name) = false := beq_eq_false_iff_ne.mpr hname
        rw [hne, hdeclares]
        exact ih

theorem named?_eq_none_iff {items : List Yaml.Value} {es : Entities k}
    (h : List.Forall₂ (fun v e => ofValue k v = .ok e) items es) :
    es.named? name = none ↔ ∀ v ∈ items, declares k name v = false := by
  induction h with
  | nil => simp [Entities.named?]
  | @cons v e' items es hv _ ih =>
      rw [Entities.named?, List.find?_cons, List.forall_mem_cons, ← ih]
      have hiff : declares k name v = false ↔ e'.name ≠ name := by
        rw [← Bool.not_eq_true, declares_iff hv]
      by_cases hname : e'.name = name
      · simp [hname, hiff]
      · have hne : (e'.name == name) = false := beq_eq_false_iff_ne.mpr hname
        simp [hne, hiff, hname, Entities.named?]

/-- Among the entities of documents, a name leads to the one that is declared first. -/
theorem named?_eq_some_iff {documents : List Document} {es : Entities k}
    (h : List.Forall₂ (fun v e => ofValue k v = .ok e) (documents.flatMap (·.itemsAt k.key)) es) :
    es.named? name = some e ↔ FirstDeclared documents name e := by
  rw [find?_declares h]
  constructor
  · rintro ⟨v, hfind, hv⟩
    rw [List.flatMap_def, List.find?_flatten_eq_some_iff] at hfind
    obtain ⟨hname, lists, front, back, lists', hlists, hbefore, hfront⟩ := hfind
    obtain ⟨before, rest, rfl, rfl, hrest⟩ := List.map_eq_append_iff.mp hlists
    obtain ⟨d, after, rfl, hd, -⟩ := List.map_eq_cons_iff.mp hrest
    -- What is in front of the item, here or in earlier documents, was passed over by the search.
    refine ⟨before, d, after, front, v, back, rfl, hd, hv, (declares_iff hv).mp hname, ?_, ?_⟩
    · intro d' hd' u hu
      simpa using hbefore _ (List.mem_map_of_mem hd') u hu
    · intro u hu
      simpa using hfront u hu
  · rintro ⟨before, d, after, front, v, back, rfl, hd, hv, hname, hbefore, hfront⟩
    refine ⟨v, ?_, hv⟩
    rw [List.flatMap_def, List.find?_flatten_eq_some_iff]
    refine ⟨(declares_iff hv).mpr hname, before.map (·.itemsAt k.key), front, back,
      after.map (·.itemsAt k.key), ?_, ?_, ?_⟩
    · rw [List.map_append, List.map_cons, hd]
    · intro items hitems u hu
      obtain ⟨d', hd', rfl⟩ := List.mem_map.mp hitems
      simpa using hbefore d' hd' u hu
    · intro u hu
      simpa using hfront u hu

end Entity

section

variable [CallerTypes]

/-! ### Merges and models -/

/-- The values of a kind that a document declares under a key: its items, each of them read. -/
def Document.Declares (key : String) (item : Kind) (d : Document) (xs : List item.Carrier) : Prop :=
  List.Forall₂ (fun v x => item.read v = .ok x) (d.itemsAt key) xs

/-- What is read of a merge is what the documents declare, from first to last. -/
theorem readSequence_mergeAll_eq_ok_iff {item : Kind} {key : String} {documents : List Document}
    (h : ∀ d ∈ documents, d.ListsAt key) (resolver : String) {xs : List item.Carrier} :
    readSequence item (Document.mergeAll documents) key resolver = .ok xs ↔
      ∃ lists, List.Forall₂ (fun d l => d.Declares key item l) documents lists ∧
        xs = lists.flatten := by
  obtain ⟨hkind, hitems⟩ := Document.find?_mergeAll_of_listsAt h
  rw [readSequence_eq_ok_iff, hitems, and_iff_right hkind]
  exact forall₂_flatMap_iff

/-- A merge is read when every item of every document is. -/
theorem readSequence_mergeAll_succeeds_iff {item : Kind} {key : String}
    {documents : List Document} (h : ∀ d ∈ documents, d.ListsAt key) (resolver : String) :
    (∃ xs, readSequence item (Document.mergeAll documents) key resolver = .ok xs) ↔
      ∀ d ∈ documents, ∀ v ∈ d.itemsAt key, ∃ x, item.read v = .ok x := by
  simp only [readSequence_mergeAll_eq_ok_iff h]
  constructor
  · rintro ⟨xs, lists, hlists, -⟩ d hd
    exact exists_forall₂_iff.mp (exists_forall₂_iff.mp ⟨lists, hlists⟩ d hd)
  · intro hitems
    obtain ⟨lists, hlists⟩ :=
      exists_forall₂_iff.mpr fun d hd => exists_forall₂_iff.mpr (hitems d hd)
    exact ⟨_, lists, hlists, rfl⟩

/-- What a model holds of the entities that documents declare. -/
structure Model.HoldsDeclared (documents : List Document) (k : EntityKind) (m : Model) : Prop where
  /-- The list of the kind is made of those of the documents, and so are its names. -/
  listed : ∃ lists, List.Forall₂ (fun d es => d.Declares k.key (.entity k) es) documents lists ∧
    m.entities k = lists.flatten ∧ (m.entities k).names = lists.flatMap Entities.names
  /-- A name leads to the entity that is declared first. -/
  first : ∀ name e, (m.entities k).named? name = some e ↔ Entity.FirstDeclared documents name e
  /-- A name leads to nothing when no item declares it. -/
  absent : ∀ name, (m.entities k).named? name = none ↔
    ∀ d ∈ documents, ∀ v ∈ d.itemsAt k.key, Entity.declares k name v = false

theorem Model.holdsDeclared_of_read {documents : List Document} {k : EntityKind} {m : Model}
    (h : ∀ d ∈ documents, d.ListsAt k.key)
    (hread : Resolver.readEntities k (Document.mergeAll documents) = .ok (m.entities k)) :
    m.HoldsDeclared documents k := by
  obtain ⟨lists, hlists, hflat⟩ := (readSequence_mergeAll_eq_ok_iff h "service-api").mp hread
  have hitems : List.Forall₂ (fun v e => Entity.ofValue k v = .ok e)
      (documents.flatMap (·.itemsAt k.key)) (m.entities k) :=
    forall₂_flatMap_iff.mpr ⟨lists, hlists, hflat⟩
  constructor
  · refine ⟨lists, hlists, hflat, ?_⟩
    rw [hflat]
    exact List.map_flatten.trans List.flatMap_def.symm
  · intro name e
    exact Entity.named?_eq_some_iff hitems
  · intro name
    rw [Entity.named?_eq_none_iff hitems]
    simp only [List.mem_flatMap]
    constructor
    · intro hnone d hd v hv
      exact hnone v ⟨d, hd, hv⟩
    · rintro hnone v ⟨d, hd, hv⟩
      exact hnone d hd v hv

namespace Kind

/-- Every value of a kind has a plain form. -/
def Writable (k : Kind) : Prop :=
  ∀ x, ∃ j, k.toJson x = .ok j

theorem Writable.list {item : Kind} (h : item.Writable) : (Kind.list item).Writable := by
  intro (xs : List item.Carrier)
  obtain ⟨js, hjs⟩ := exists_forall₂_iff.mpr fun x (_ : x ∈ xs) => h x
  refine ⟨.list js, bind_eq_ok_iff.mpr ⟨js, ?_, rfl⟩⟩
  exact mapM_eq_ok_iff.mpr hjs

end Kind

namespace Resolver

/-- What documents declare is resolved once, in their order. Where documents hold nothing, a
null or a sequence, a collection of any kind of values with plain forms succeeds on their
merge when every item of every document is read, and stores the values of all of them from
first to last. The resolver of a service API succeeds when the entities of every kind are
read, which are read in the same way; its model lists the entities that were declared, a name
leads to the entity that is declared first, and so do the references to services and
datasources. -/
theorem declared_resolved_in_order (documents : List Document) :
    (∀ (key : String) (item : Kind) (modelKey : Option String) (m : Model),
      (∀ d ∈ documents, d.ListsAt key) → item.Writable →
      ((∃ m', ((collection key item modelKey).run (Document.mergeAll documents) m).outcome =
          .ok m') ↔
        ∀ d ∈ documents, ∀ v ∈ d.itemsAt key, ∃ x, item.read v = .ok x) ∧
      ∀ m', ((collection key item modelKey).run (Document.mergeAll documents) m).outcome =
          .ok m' →
        ∃ lists, List.Forall₂ (fun d xs => d.Declares key item xs) documents lists ∧
          m'.get? (.list item) (modelKey.getD key) = some lists.flatten) ∧
    (∀ k : EntityKind, (∀ d ∈ documents, d.ListsAt k.key) →
      ((∃ es, readEntities k (Document.mergeAll documents) = .ok es) ↔
        ∀ d ∈ documents, ∀ v ∈ d.itemsAt k.key, ∃ e, Entity.ofValue k v = .ok e)) ∧
    ∀ m : Model,
      ((∃ m', (serviceApi.run (Document.mergeAll documents) m).outcome = .ok m') ↔
        ∀ k, ∃ es, readEntities k (Document.mergeAll documents) = .ok es) ∧
      ∀ m', (serviceApi.run (Document.mergeAll documents) m).outcome = .ok m' →
        (∀ k : EntityKind, (∀ d ∈ documents, d.ListsAt k.key) → m'.HoldsDeclared documents k) ∧
        ((∀ d ∈ documents, d.ListsAt EntityKind.service.key) →
          ∀ (r : Entity .restResource) (e : Entity .service),
            r.serviceIn (m'.entities .service) = some e ↔
              ∃ name, r.attribute? "service" = some name ∧ e.FirstDeclared documents name) ∧
        ((∀ d ∈ documents, d.ListsAt EntityKind.datasource.key) →
          ∀ (a : Entity .dataAccess) (e : Entity .datasource),
            a.datasourceIn (m'.entities .datasource) = some e ↔
              ∃ name, a.attribute? "datasource" = some name ∧ e.FirstDeclared documents name) := by
  refine ⟨?_, ?_, ?_⟩
  · intro key item modelKey m hlists hwritable
    constructor
    · rw [← readSequence_mergeAll_succeeds_iff hlists ("collection:" ++ key)]
      constructor
      · rintro ⟨m', hm'⟩
        obtain ⟨xs, -, hxs, -⟩ := outcome_collection_eq_ok_iff.mp hm'
        exact ⟨xs, hxs⟩
      · rintro ⟨xs, hxs⟩
        obtain ⟨j, hj⟩ := hwritable.list xs
        exact ⟨_, outcome_collection_eq_ok_iff.mpr ⟨xs, j, hxs, hj, rfl⟩⟩
    · intro m' hm'
      obtain ⟨xs, j, hxs, -, hget, -⟩ := stored_of_collection hm'
      obtain ⟨lists, hdeclares, rfl⟩ := (readSequence_mergeAll_eq_ok_iff hlists _).mp hxs
      exact ⟨lists, hdeclares, hget⟩
  · intro k hlists
    exact @readSequence_mergeAll_succeeds_iff _ (.entity k) _ _ hlists "service-api"
  · intro m
    refine ⟨serviceApi_succeeds_iff, ?_⟩
    intro m' hm'
    have hholds : ∀ k : EntityKind, (∀ d ∈ documents, d.ListsAt k.key) →
        m'.HoldsDeclared documents k := by
      intro k hlists
      obtain ⟨es, hread, hes, -⟩ := stored_of_serviceApi hm' k
      exact Model.holdsDeclared_of_read hlists (hes ▸ hread)
    refine ⟨hholds, ?_, ?_⟩
    · intro hlists r e
      rw [Entity.serviceIn, Option.bind_eq_some_iff]
      simp only [(hholds .service hlists).first]
    · intro hlists a e
      rw [Entity.datasourceIn, Option.bind_eq_some_iff]
      simp only [(hholds .datasource hlists).first]

end Resolver

end

namespace Resolver

/-- A service that two documents declare, among others with null for the section or without it:
the earlier declaration is found, and a resource refers to it. The ports are values of a type of
the caller, which are read of whole numbers. -/
theorem declared_resolved_in_order_repeated_name :
    let _types : CallerTypes :=
      { Code := Unit
        Carrier := fun _ => Nat
        read := fun _ v => (Kind.readWhole "u16" (Number.fitsUnsigned 16) v).map Int.toNat
        toJson := fun _ n => .ok (Json.whole n) }
    let port : Kind := .custom ()
    let item (name version : String) : Yaml.Value :=
      .map [(.text "name", .text name), (.text "version", .text version)]
    let documents : List Document :=
      [⟨[]⟩, ⟨[(.text "services", .seq [item "Users" "1", item "Orders" "2"])]⟩,
        ⟨[(.text "services", .null)]⟩,
        ⟨[(.text "ports", .seq [.number (.whole 80), .number (.whole 443)])]⟩,
        ⟨[(.text "services", .seq [item "Orders" "3"])]⟩,
        ⟨[(.text "ports", .seq [.number (.whole 8080)])]⟩]
    (∀ d ∈ documents, d.ListsAt "services") ∧ (∀ d ∈ documents, d.ListsAt "ports") ∧
      port.Writable ∧
      (∃ m lists, ((collection "ports" port).run (Document.mergeAll documents) .empty).outcome =
          .ok m ∧
        List.Forall₂ (fun d xs => d.Declares "ports" port xs) documents lists ∧
        m.get? (.list port) "ports" = some lists.flatten) ∧
      ∃ m, (serviceApi.run (Document.mergeAll documents) .empty).outcome = .ok m ∧
        m.HoldsDeclared documents .service ∧
        (Entity.mk "order" [("service", "Orders")] [] : Entity .restResource).serviceIn
          (m.entities .service) = some ⟨"Orders", [("version", "2")], []⟩ := by
  intro _types port item documents
  have hnull : Yaml.Value.null.NullOrSeq := .inl rfl
  have hseq (items) : (Yaml.Value.seq items).NullOrSeq := .inr ⟨items, rfl⟩
  have hservices : ∀ d ∈ documents, d.ListsAt "services" := by
    simp [documents, Document.ListsAt, Pairs.valuesOf, Value.same, hnull, hseq]
  have hports : ∀ d ∈ documents, d.ListsAt "ports" := by
    simp [documents, Document.ListsAt, Pairs.valuesOf, Value.same, hseq]
  have hwritable : port.Writable := fun n => ⟨_, rfl⟩
  have hitem (name version : String) :
      Entity.ofValue .service (item name version) = .ok ⟨name, [("version", version)], []⟩ := rfl
  have hread : ∀ d ∈ documents, ∀ v ∈ d.itemsAt "services",
      ∃ e, Entity.ofValue .service v = .ok e := by
    simp [documents, Document.itemsAt, Pairs.valuesOf, Value.same, Value.items, hitem]
  obtain ⟨hcollection, hkinds, hapis⟩ := declared_resolved_in_order documents
  obtain ⟨hsucceeds, hstored⟩ := hcollection "ports" port none .empty hports hwritable
  obtain ⟨hapi, hheld⟩ := hapis .empty
  refine ⟨hservices, hports, hwritable, ?_, ?_⟩
  · have hnumbers : ∀ d ∈ documents, ∀ v ∈ d.itemsAt "ports", ∃ n, port.read v = .ok n := by
      have hfirst : ∃ n, port.read (.number (.whole 80)) = .ok n := ⟨_, rfl⟩
      have hsecond : ∃ n, port.read (.number (.whole 443)) = .ok n := ⟨_, rfl⟩
      have hthird : ∃ n, port.read (.number (.whole 8080)) = .ok n := ⟨_, rfl⟩
      simp [documents, Document.itemsAt, Pairs.valuesOf, Value.same, Value.items, hfirst, hsecond,
        hthird]
    obtain ⟨m, hm⟩ := hsucceeds.mpr hnumbers
    obtain ⟨lists, hdeclares, hget⟩ := hstored m hm
    exact ⟨m, lists, hm, hdeclares, hget⟩
  · obtain ⟨m, hm⟩ := hapi.mpr (by
      intro k
      cases k with
      | service => exact (hkinds .service hservices).mpr hread
      | _ => exact ⟨[], rfl⟩)
    obtain ⟨hholds, hreference, -⟩ := hheld m hm
    refine ⟨m, hm, hholds .service hservices, (hreference hservices _ _).mpr ⟨"Orders", rfl, ?_⟩⟩
    refine ⟨documents.take 1, documents[1], documents.drop 2, [item "Users" "1"],
      item "Orders" "2", [], rfl, rfl, hitem _ _, rfl, ?_, ?_⟩
    · decide
    · decide

end Resolver

end Galley
