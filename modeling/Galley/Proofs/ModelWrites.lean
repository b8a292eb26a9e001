import Galley.Proofs.AllOrNothing

/-!
Models that are made of writes.

A write stores a value of a kind or a plain value, and it fails when the value has no plain form;
then the model and the log stay as they are (`Write.on_of_fault`). Writes one after the other
store what those that succeed store (`writeAll_eq_putAll`), so that an entry of the model is what
the last write of its key stored that succeeded (`entry?_writeAll_eq_some_iff`). Resolvers that
change a model by writes only make one that is made of writes (`Registry.onlyWrites_runOn`).
Hence what is seen of a model by kind and what is seen as plain values agree
(`kinds_and_plain_forms_agree`).
-/

namespace Galley

section

variable [CallerTypes]

namespace Entry

/-- An entry holds a value of a kind when it is the value that was stored, with its kind. -/
theorem get?_eq_some_iff {k : Kind} {v : k.Carrier} {e : Entry} :
    e.get? k = some v ↔ (⟨e.kind, e.value⟩ : Σ k : Kind, k.Carrier) = ⟨k, v⟩ := by
  obtain ⟨kind, value, json⟩ := e
  constructor
  · intro h
    rw [get?] at h
    split at h
    · rename_i hkind
      cases hkind
      cases h
      rfl
    · cases h
  · intro h
    cases h
    exact get?_mk kind value json

end Entry

namespace Model

/-! ### Writes -/

/-- A write to a model, of a value of a kind or of a plain value. -/
inductive Write where
  | value (k : Kind) (key : String) (v : k.Carrier)
  | plain (key : String) (v : Json)

namespace Write

variable {w : Write}

def key : Write → String
  | value _ key _ => key
  | plain key _ => key

def stored : Write → Σ k : Kind, k.Carrier
  | value k _ v => ⟨k, v⟩
  | plain _ v => ⟨.json, v⟩

/-- What a write does to a model in place. -/
def change : Write → Change Unit
  | value k key v => store k key v
  | plain key v => Change.replace (insertJson key v)

/-- A write succeeds when its value has a plain form. -/
def Succeeds (w : Write) : Prop :=
  ∃ j, w.stored.1.toJson w.stored.2 = .ok j

def entry (w : Write) : Except PlainFault Entry :=
  Entry.ofValue w.stored.1 w.stored.2

theorem entry_eq_ok_iff {e : Entry} :
    w.entry = .ok e ↔ ∃ j, w.stored.1.toJson w.stored.2 = .ok j ∧ e = ⟨_, w.stored.2, j⟩ :=
  Entry.ofValue_eq_ok_iff

theorem succeeds_iff : w.Succeeds ↔ ∃ e, w.entry = .ok e := by
  simp only [entry_eq_ok_iff, Succeeds]
  constructor
  · rintro ⟨j, hj⟩
    exact ⟨_, j, hj, rfl⟩
  · rintro ⟨e, j, hj, -⟩
    exact ⟨j, hj⟩

theorem change_eq (w : Write) : w.change =
    (do let e ← Change.ofExcept (w.entry.mapError ModelFault.notPlain)
        Change.replace (put w.key e)) := by
  cases w <;> rfl

/-- A write that succeeds puts its entry. -/
theorem on_of_plain {e : Entry} (h : w.entry = .ok e) (m : Model) :
    w.change.on m = m.put w.key e >>= fun m' => pure (.ok (), m') := by
  rw [change_eq, h]
  rfl

/-- A write that fails leaves the model, and the log, as they are. -/
theorem on_of_fault {f : PlainFault} (h : w.entry = .error f) (m : Model) :
    w.change.on m = pure (.error (.notPlain f), m) := by
  rw [change_eq, h]
  rfl

/-- A write ends well when it succeeds, and otherwise in a fault that leaves the model and the
log as they are. -/
theorem outcome_change (w : Write) (m : Model) : (w.change.outcome m = .ok () ↔ w.Succeeds) ∧
    (¬ w.Succeeds → ∃ f, w.change.on m = pure (.error (.notPlain f), m)) := by
  rw [succeeds_iff, Change.outcome]
  cases hw : w.entry with
  | ok e =>
      rw [on_of_plain hw]
      exact ⟨⟨fun _ => ⟨e, rfl⟩, fun _ => rfl⟩, fun hnot => absurd ⟨e, rfl⟩ hnot⟩
  | error f =>
      rw [on_of_fault hw]
      exact ⟨by simp, fun _ => ⟨f, rfl⟩⟩

end Write

/-- Writes from the first to the last, whether they succeed or fail. -/
def writeAll : List Write → Model → Logged Model
  | [], m => pure m
  | w :: ws, m => do
    let done ← w.change.on m
    writeAll ws done.2

/-- The entries that are stored by the writes that succeed. -/
def entriesOf (ws : List Write) : List (String × Entry) :=
  ws.filterMap fun w => w.entry.toOption.map fun e => (w.key, e)

theorem writeAll_append (front back : List Write) (m : Model) :
    writeAll (front ++ back) m = writeAll front m >>= writeAll back := by
  induction front generalizing m with
  | nil => rw [List.nil_append, writeAll, pure_bind]
  | cons w front ih =>
      rw [List.cons_append, writeAll, writeAll, bind_assoc]
      simp only [ih]

/-- Writes store the entries of those that succeed, and tell what these tell. -/
theorem writeAll_eq_putAll (ws : List Write) (m : Model) :
    writeAll ws m = m.putAll (entriesOf ws) := by
  induction ws generalizing m with
  | nil => rfl
  | cons w ws ih =>
      rw [writeAll]
      cases hw : w.entry with
      | error f =>
          have hentries : entriesOf (w :: ws) = entriesOf ws :=
            List.filterMap_cons_none (by rw [hw]; rfl)
          rw [Write.on_of_fault hw, pure_bind, ih, hentries]
      | ok e =>
          have hentries : entriesOf (w :: ws) = (w.key, e) :: entriesOf ws :=
            List.filterMap_cons_some (by rw [hw]; rfl)
          rw [Write.on_of_plain hw, bind_assoc, hentries, putAll]
          simp only [pure_bind, ih]

/-! ### The last write of a key -/

/-- The last write of a key that succeeds. -/
def LastWrite (ws : List Write) (key : String) (w : Write) : Prop :=
  ∃ front back, ws = front ++ w :: back ∧ w.key = key ∧ w.Succeeds ∧
    ∀ w' ∈ back, w'.key = key → ¬ w'.Succeeds

variable {ws ws' : List Write} {w : Write} {key : String} {e : Entry}

/-- One write more is the last one of its key when it succeeds; otherwise the last one is as it
was. -/
theorem lastWrite_concat_iff {w' : Write} : LastWrite (ws ++ [w']) key w ↔
    (w'.key = key ∧ w'.Succeeds ∧ w = w') ∨
      (w'.key = key → ¬ w'.Succeeds) ∧ LastWrite ws key w := by
  constructor
  · rintro ⟨front, back, hws, hkey, hsucceeds, hback⟩
    rcases List.eq_nil_or_concat back with rfl | ⟨back, last, rfl⟩
    · obtain ⟨-, hlast⟩ := List.append_inj' hws rfl
      obtain rfl := List.singleton_inj.mp hlast
      exact .inl ⟨hkey, hsucceeds, rfl⟩
    · rw [List.concat_eq_append] at hws hback
      rw [← List.cons_append, ← List.append_assoc] at hws
      obtain ⟨rfl, hlast⟩ := List.append_inj' hws rfl
      obtain rfl := List.singleton_inj.mp hlast
      rw [List.forall_mem_append, List.forall_mem_singleton] at hback
      exact .inr ⟨hback.2, front, back, rfl, hkey, hsucceeds, hback.1⟩
  · rintro (⟨hkey, hsucceeds, rfl⟩ | ⟨hfails, front, back, rfl, hkey, hsucceeds, hback⟩)
    · exact ⟨ws, [], rfl, hkey, hsucceeds, by simp⟩
    · refine ⟨front, back ++ [w'], by simp, hkey, hsucceeds, ?_⟩
      rw [List.forall_mem_append, List.forall_mem_singleton]
      exact ⟨hback, hfails⟩

/-- What the last write of a key that succeeds has stored is found from the back. -/
theorem find?_entriesOf : Fields.find? key (entriesOf ws).reverse = some e ↔
    ∃ w, LastWrite ws key w ∧ w.entry = .ok e := by
  induction ws using List.reverseRecOn with
  | nil =>
      simp [entriesOf, LastWrite]
  | append_singleton ws w ih =>
      have hconcat : entriesOf (ws ++ [w]) = entriesOf ws ++ entriesOf [w] := List.filterMap_append
      rw [hconcat, List.reverse_append, Fields.find?_append]
      simp only [lastWrite_concat_iff]
      cases hw : w.entry with
      | error f =>
          have hfails : ¬ w.Succeeds := by
            rw [Write.succeeds_iff, hw]
            simp
          have hnone : entriesOf [w] = [] := List.filterMap_cons_none (by rw [hw]; rfl)
          simp [hnone, hfails, ih]
      | ok e' =>
          have hsucceeds : w.Succeeds := Write.succeeds_iff.mpr ⟨e', hw⟩
          have hone : entriesOf [w] = [(w.key, e')] := List.filterMap_cons_some (by rw [hw]; rfl)
          by_cases hkey : w.key = key
          · simp [hone, hsucceeds, hkey, Fields.find?, hw]
          · simp [hone, hkey, Fields.find?, ih]

/-! ### What is seen of a model -/

/-- The keys of a model that is made of writes are sorted. -/
theorem sorted_writeAll (ws : List Write) : Fields.Sorted (writeAll ws .empty).value.entries := by
  rw [writeAll_eq_putAll]
  exact sorted_putAll Fields.sorted_nil

/-- An entry of a model that is made of writes is what the last write of its key that succeeds
has stored. -/
theorem entry?_writeAll_eq_some_iff : entry? key (writeAll ws .empty).value = some e ↔
    ∃ w, LastWrite ws key w ∧ w.entry = .ok e := by
  rw [writeAll_eq_putAll, entry?_putAll, ← find?_entriesOf]
  exact iff_of_eq (congrArg (· = some e) Option.or_none)

/-- An entry keeps a value with its plain form, and the value is that of the last write. -/
theorem plain_of_entry?_writeAll (h : entry? key (writeAll ws .empty).value = some e) :
    e.kind.toJson e.value = .ok e.json ∧
      ∃ w, LastWrite ws key w ∧ w.stored = ⟨e.kind, e.value⟩ := by
  obtain ⟨w, hw, hentry⟩ := entry?_writeAll_eq_some_iff.mp h
  obtain ⟨j, hj, rfl⟩ := Write.entry_eq_ok_iff.mp hentry
  exact ⟨hj, w, hw, rfl⟩

theorem entry?_of_lastWrite (h : LastWrite ws key w) :
    ∃ e, entry? key (writeAll ws .empty).value = some e ∧ w.entry = .ok e := by
  obtain ⟨front, back, rfl, hkey, hsucceeds, hback⟩ := id h
  obtain ⟨e, he⟩ := Write.succeeds_iff.mp hsucceeds
  exact ⟨e, entry?_writeAll_eq_some_iff.mpr ⟨w, h, he⟩, he⟩

/-- A value is found by a kind when the last write of the key that succeeds has stored it as of
this kind. -/
theorem get?_writeAll_eq_some_iff {k : Kind} {v : k.Carrier} :
    get? k key (writeAll ws .empty).value = some v ↔
      ∃ w, LastWrite ws key w ∧ w.stored = ⟨k, v⟩ := by
  rw [get?, Option.bind_eq_some_iff]
  simp only [Entry.get?_eq_some_iff]
  constructor
  · rintro ⟨e, he, hstored⟩
    obtain ⟨-, w, hw, hwstored⟩ := plain_of_entry?_writeAll he
    exact ⟨w, hw, hwstored.trans hstored⟩
  · rintro ⟨w, hw, hstored⟩
    obtain ⟨e, he, hentry⟩ := entry?_of_lastWrite hw
    obtain ⟨j, -, rfl⟩ := Write.entry_eq_ok_iff.mp hentry
    exact ⟨_, he, hstored⟩

/-- The entities of a kind are seen as a list, which the last write under their key stored and
whose plain form is the plain value of the key. Or none are seen: the key is absent, or the last
write under it stored a value of another kind. -/
def EntitiesAgree (ws : List Write) (m : Model) (k : EntityKind) : Prop :=
  (∃ (es : Entities k) (w : Write), LastWrite ws k.key w ∧ w.stored = ⟨.entities k, es⟩ ∧
    m.entities k = es ∧ m.value? k.key = some es.toJson) ∨
  (m.entities k = [] ∧
    (m.contains k.key = false ∨ ∃ w, LastWrite ws k.key w ∧ w.stored.1 ≠ .entities k))

theorem entitiesAgree_writeAll (ws : List Write) (k : EntityKind) :
    EntitiesAgree ws (writeAll ws .empty).value k := by
  cases hentry : entry? k.key (writeAll ws .empty).value with
  | none =>
      refine .inr ⟨?_, .inl ?_⟩
      · rw [entities, get?, hentry]
        rfl
      · rw [contains, Fields.contains]
        exact congrArg Option.isSome hentry
  | some e =>
      obtain ⟨hplain, w, hw, hstored⟩ := plain_of_entry?_writeAll hentry
      by_cases hkind : e.kind = .entities k
      · obtain ⟨kind, es, json⟩ := e
        subst hkind
        have hjson : .ok (Entities.toJson es) = Except.ok json := hplain
        cases hjson
        exact .inl ⟨es, w, hw, hstored, entities_of_entry? hentry, value?_of_entry? hentry⟩
      · refine .inr ⟨?_, .inr ⟨w, hw, ?_⟩⟩
        · rw [entities, get?, hentry, Option.bind_some, Entry.get?, dif_neg hkind]
        · rw [hstored]
          exact hkind

/-! ### Equality -/

theorem sameEntries_eq (ds es : List (String × Entry)) :
    sameEntries ds es =
      Json.sameFields (ds.map fun e => (e.1, e.2.json)) (es.map fun e => (e.1, e.2.json)) := by
  induction ds generalizing es with
  | nil => cases es <;> rfl
  | cons d ds ih =>
      cases es with
      | nil => rfl
      | cons e es =>
          rw [sameEntries, List.map_cons, List.map_cons, Json.sameFields, ih, Entry.same]

theorem sameEntries_iff {ds es : List (String × Entry)} : sameEntries ds es = true ↔
    List.Forall₂ (fun d e => d.1 = e.1 ∧ d.2.same e.2 = true) ds es := by
  induction ds generalizing es with
  | nil => cases es <;> simp [sameEntries]
  | cons d ds ih => cases es <;> simp [sameEntries, ih]

/-- Models are equal when their plain forms are. -/
theorem same_iff_toJson {m n : Model} : m.same n = true ↔ m.toJson.same n.toJson = true := by
  rw [same, sameEntries_eq, toJson, toJson, Json.same, toFields, toFields]

/-- Models with sorted keys are equal when under each key neither has an entry, or both have
equal ones. -/
theorem same_iff_entries {m n : Model} (hm : Fields.Sorted m.entries)
    (hn : Fields.Sorted n.entries) : m.same n = true ↔
      ∀ key, Option.Rel (fun d e => d.same e = true) (m.entry? key) (n.entry? key) := by
  rw [same, sameEntries_iff]
  exact ⟨fun h key => Fields.rel_find? h key, fun h => Fields.forall₂_of_find? hm hn h⟩

end Model

/-! ### Resolvers -/

namespace Attempt

variable {α : Type} {m : Model}

/-- From a model, an attempt that succeeds makes what some writes make of it. -/
def OnlyWrites (x : Attempt Model) (m : Model) : Prop :=
  ∀ m', x.outcome = .ok m' → ∃ ws, m' = (Model.writeAll ws m).value

namespace OnlyWrites

theorem pure (m : Model) : OnlyWrites (Pure.pure m) m := by
  intro m' h
  cases h
  exact ⟨[], rfl⟩

theorem change (w : Model.Write) (m : Model) : OnlyWrites (w.change.attempt m) m := by
  intro m' h
  rw [Change.outcome_attempt] at h
  cases hdone : w.change.outcome m with
  | error f =>
      rw [hdone] at h
      cases h
  | ok u =>
      rw [hdone] at h
      cases h
      exact ⟨[w], rfl⟩

theorem insert (k : Kind) (key : String) (v : k.Carrier) (m : Model) :
    OnlyWrites (m.insert k key v) m :=
  change (.value k key v) m

theorem bind {x : Attempt α} {f : α → Attempt Model}
    (h : ∀ a, x.outcome = .ok a → (f a).OnlyWrites m) : OnlyWrites (x >>= f) m := by
  intro m' hm'
  obtain ⟨a, ha, hf⟩ := outcome_bind_eq_ok_iff.mp hm'
  exact h a ha m' hf

/-- One attempt after another. -/
theorem andThen {x : Attempt Model} {f : Model → Attempt Model} (hx : x.OnlyWrites m)
    (hf : ∀ m, (f m).OnlyWrites m) : OnlyWrites (x >>= f) m := by
  intro m' hm'
  obtain ⟨m₁, hm₁, hm'⟩ := outcome_bind_eq_ok_iff.mp hm'
  obtain ⟨front, rfl⟩ := hx m₁ hm₁
  obtain ⟨back, rfl⟩ := hf _ m' hm'
  exact ⟨front ++ back, by rw [Model.writeAll_append, Logged.value_bind]⟩

end OnlyWrites

end Attempt

namespace Resolver

def OnlyWrites (r : Resolver) (d : Document) : Prop :=
  ∀ m, (r.run d m).OnlyWrites m

theorem onlyWrites_collection (key : String) (item : Kind) (modelKey : Option String)
    (d : Document) : (collection key item modelKey).OnlyWrites d := by
  intro m
  apply Attempt.OnlyWrites.bind
  intro items _
  apply Attempt.OnlyWrites.bind
  intro _ _
  exact .insert (.list item) (modelKey.getD key) items m

theorem onlyWrites_project (d : Document) : project.OnlyWrites d := by
  intro m
  apply Attempt.OnlyWrites.bind
  intro found _
  cases found with
  | none => exact .pure m
  | some p => exact .insert .project Project.key p m

theorem onlyWrites_constant (name key : String) (v : Json) (d : Document) :
    (constant name key v).OnlyWrites d := by
  intro m m' h
  cases h
  exact ⟨[.plain key v], rfl⟩

theorem onlyWrites_serviceApi (d : Document) : serviceApi.OnlyWrites d := by
  intro m m' h
  obtain ⟨lists, -, rfl⟩ := outcome_serviceApi_eq_ok_iff.mp h
  refine ⟨EntityKind.all.map fun k => .value (.entities k) k.key (lists k), ?_⟩
  rw [Model.writeAll_eq_putAll]
  rfl

theorem onlyWrites_of_isStock {r : Resolver} (h : IsStock r) (d : Document) : r.OnlyWrites d := by
  cases h with
  | collection key item modelKey => exact onlyWrites_collection key item modelKey d
  | project => exact onlyWrites_project d
  | serviceApi => exact onlyWrites_serviceApi d

end Resolver

/-- Resolvers that change models by writes only do so one after the other. -/
theorem Registry.onlyWrites_runOn {d : Document} {resolvers : Registry}
    (h : ∀ r ∈ resolvers, r.OnlyWrites d) (m : Model) : (resolvers.runOn d m).OnlyWrites m := by
  induction resolvers generalizing m with
  | nil => exact .pure m
  | cons r rest ih =>
      obtain ⟨hr, hrest⟩ := List.forall_mem_cons.mp h
      apply Attempt.OnlyWrites.bind
      intro _ _
      exact .andThen (hr m) (ih hrest)

namespace Model

/-- What is seen of a model by kind and what is seen as plain values agree. Of every model that
is made of writes, some of which may fail, the keys are sorted, an entry has the plain form of
the very value that was stored, and a value is found by a kind when it is the one that the last
write of its key stored which succeeded. A write that fails leaves the model and the log as they
are. Two such models are equal when their plain forms are, and when their entries are, key by
key. The stock resolvers change models by writes only, and in the model of resolvers that do,
the entities of each kind are the list behind the plain value of their key, or there are none. -/
theorem kinds_and_plain_forms_agree :
    (∀ ws : List Write,
      let m := (writeAll ws .empty).value
      m.keys.Pairwise (· < ·) ∧
      (∀ key e, m.entry? key = some e → e.kind.toJson e.value = .ok e.json ∧
        ∃ w, LastWrite ws key w ∧ w.stored = ⟨e.kind, e.value⟩) ∧
      (∀ key k v, m.get? k key = some v ↔ ∃ w, LastWrite ws key w ∧ w.stored = ⟨k, v⟩) ∧
      (∀ ws' : List Write,
        let n := (writeAll ws' .empty).value
        (m.same n = true ↔ m.toJson.same n.toJson = true) ∧
        (m.same n = true ↔
          ∀ key, Option.Rel (fun d e => d.same e = true) (m.entry? key) (n.entry? key)))) ∧
    (∀ (w : Write) (m : Model), (w.change.outcome m = .ok () ↔ w.Succeeds) ∧
      (¬ w.Succeeds → ∃ f, w.change.on m = pure (.error (.notPlain f), m))) ∧
    (∀ r d, Resolver.IsStock r → r.OnlyWrites d) ∧
    ∀ (resolvers : Registry) d, (∀ r ∈ resolvers, r.OnlyWrites d) →
      ∀ m, (resolvers.resolve d).outcome = .ok m →
        ∃ ws, m = (writeAll ws .empty).value ∧ ∀ k, EntitiesAgree ws m k := by
  refine ⟨fun ws => ⟨sorted_writeAll ws, fun key e => plain_of_entry?_writeAll,
    fun key k v => get?_writeAll_eq_some_iff, fun ws' => ⟨same_iff_toJson,
      same_iff_entries (sorted_writeAll ws) (sorted_writeAll ws')⟩⟩, Write.outcome_change,
    fun r d hr => Resolver.onlyWrites_of_isStock hr d, fun resolvers d hd m hm => ?_⟩
  obtain ⟨ws, rfl⟩ := Registry.onlyWrites_runOn hd .empty m hm
  exact ⟨ws, rfl, entitiesAgree_writeAll ws⟩

end Model

end

namespace Model

/-- Gauges of a caller, of which one without a reading has no plain form, so that the write behind
the first one fails. And a service API behind which the services are stored again, as a plain
value. -/
theorem kinds_and_plain_forms_agree_replaced_list :
    let _types : CallerTypes :=
      { Code := Unit
        Carrier := fun _ => Option Nat
        read := fun _ v => (Kind.readWhole "u8" (Number.fitsUnsigned 8) v).map fun n => some n.toNat
        toJson := fun _ gauge => (gauge.map fun n => Json.whole n).elim
          (.error (.custom "no reading")) .ok }
    let gauge : Kind := .custom ()
    let bad : Write := .value gauge "level" (none : Option Nat)
    let writes : List Write := [.value gauge "level" (some 3 : Option Nat), bad]
    let levels := (writeAll writes .empty).value
    let d : Document := ⟨[(.text "services", .seq [.map [(.text "name", .text "orders")]])]⟩
    let resolvers : Registry := [.serviceApi, .constant "plain" "services" (.list [])]
    (levels.get? gauge "level" = some (some 3 : Option Nat) ∧
      levels.value? "level" = some (Json.whole 3) ∧ ¬ bad.Succeeds ∧
      ∃ f, bad.change.on levels = pure (.error (.notPlain f), levels)) ∧
    ∃ m ws, (resolvers.resolve d).outcome = .ok m ∧ m = (writeAll ws .empty).value ∧
      (∀ k, EntitiesAgree ws m k) ∧ m.value? "services" = some (.list []) ∧
      ∃ w, LastWrite ws "services" w ∧ w.stored = ⟨.json, .list []⟩ := by
  intro _types gauge bad writes levels d resolvers
  obtain ⟨hwrites, hfails, hstock, hresolvers⟩ := kinds_and_plain_forms_agree
  constructor
  · have hbad : ¬ bad.Succeeds := by
      rintro ⟨j, hj⟩
      cases hj
    have hlast : LastWrite writes "level" (.value gauge "level" (some 3 : Option Nat)) :=
      ⟨[], [bad], rfl, rfl, ⟨_, rfl⟩, by simpa using fun _ => hbad⟩
    obtain ⟨-, -, hget, -⟩ := hwrites writes
    exact ⟨(hget "level" gauge _).mpr ⟨_, hlast, rfl⟩, rfl, hbad, (hfails bad levels).2 hbad⟩
  · have hm : (resolvers.resolve d).outcome = .ok _ := rfl
    have honly : ∀ r ∈ resolvers, r.OnlyWrites d := by
      simp only [resolvers, List.forall_mem_cons]
      exact ⟨hstock _ d .serviceApi, Resolver.onlyWrites_constant "plain" "services" (.list []) d,
        by simp⟩
    obtain ⟨ws, hws, hagree⟩ := hresolvers resolvers d honly _ hm
    obtain ⟨-, -, hget, -⟩ := hwrites ws
    refine ⟨_, ws, hm, hws, hagree, rfl, (hget "services" .json (.list [])).mp ?_⟩
    rw [← hws]
    rfl

end Model

end Galley
