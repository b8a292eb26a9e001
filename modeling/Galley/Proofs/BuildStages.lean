import Galley.Proofs.BuildRuns
import Galley.Proofs.MergeGrouping
import Galley.Proofs.Outcomes

/-!
The stages of a build.

A build loads its files, merges the documents and runs the resolvers on the merge. Each
stage is said on its own: documents that files load to (`Loader.LoadsAll`), resolvers
that run one after the other (`Registry.Runs`), and for both the first that fails
(`Loader.FirstFault`, `Registry.FirstFault`). A build is their composition, and of its
files it sees the merge of their documents only (`build_of_stages`): not their paths, and
not how the documents are split over them.
-/

namespace Galley

/-! ### Loading files -/

namespace Loader

/-- The files load to the documents, one by one. -/
def LoadsAll (load : Loader) : List FilePath → List Document → Prop :=
  List.Forall₂ fun path d => (load path).outcome = .ok d

/-- The first file that does not load has the given fault. -/
def FirstFault (load : Loader) (files : List FilePath) (f : ModelFault) : Prop :=
  ∃ front path back, files = front ++ path :: back ∧
    (∀ p ∈ front, ∃ d, (load p).outcome = .ok d) ∧ (load path).outcome = .error f

variable {load : Loader} {front back : List FilePath} {f : ModelFault}

theorem FirstFault.append_right (h : load.FirstFault front f) (back : List FilePath) :
    load.FirstFault (front ++ back) f := by
  obtain ⟨before, path, rest, rfl, hbefore, hpath⟩ := h
  exact ⟨before, path, rest ++ back, by simp, hbefore, hpath⟩

/-- A fault behind files that load is the first one. -/
theorem FirstFault.append_left {documents : List Document} (hfront : load.LoadsAll front documents)
    (h : load.FirstFault back f) : load.FirstFault (front ++ back) f := by
  obtain ⟨before, path, rest, rfl, hbefore, hpath⟩ := h
  refine ⟨front ++ before, path, rest, by simp, ?_, hpath⟩
  have hloads : ∀ p ∈ front, ∃ d, (load p).outcome = .ok d := by
    intro p hp
    induction hfront with
    | nil => cases hp
    | cons hd _ ih =>
        rcases List.mem_cons.mp hp with rfl | hp
        · exact ⟨_, hd⟩
        · exact ih hp
  exact List.forall_mem_append.mpr ⟨hloads, hbefore⟩

/-- Two paths load alike: to the same document, or to faults with the same message. -/
def Alike (load load' : Loader) (p q : FilePath) : Prop :=
  (load p).outcome.mapError ModelFault.message = (load' q).outcome.mapError ModelFault.message

section Alike

variable {load' : Loader} {p q : FilePath} {files files' : List FilePath}

theorem Alike.ok {d : Document} (h : Alike load load' p q) (hp : (load p).outcome = .ok d) :
    (load' q).outcome = .ok d := by
  rw [Alike, hp] at h
  cases hq : (load' q).outcome with
  | ok e => simpa [hq, Except.mapError] using h.symm
  | error g => simp [hq, Except.mapError] at h

theorem Alike.error (h : Alike load load' p q) (hp : (load p).outcome = .error f) :
    ∃ g, (load' q).outcome = .error g ∧ g.message = f.message := by
  rw [Alike, hp] at h
  cases hq : (load' q).outcome with
  | ok e => simp [hq, Except.mapError] at h
  | error g => exact ⟨g, rfl, by simpa [hq, Except.mapError] using h.symm⟩

theorem LoadsAll.of_alike {documents : List Document} (h : load.LoadsAll files documents)
    (halike : List.Forall₂ (Alike load load') files files') :
    load'.LoadsAll files' documents := by
  induction h generalizing files' with
  | nil =>
      cases halike
      exact .nil
  | cons hp _ ih =>
      cases halike with
      | cons hpq hrest => exact .cons (hpq.ok hp) (ih hrest)

theorem FirstFault.of_alike (h : load.FirstFault files f)
    (halike : List.Forall₂ (Alike load load') files files') :
    ∃ g, load'.FirstFault files' g ∧ g.message = f.message := by
  obtain ⟨front, p, back, rfl, hfront, hp⟩ := h
  induction front generalizing files' with
  | nil =>
      cases halike with
      | cons hpq hrest =>
          obtain ⟨g, hg, hmessage⟩ := hpq.error hp
          exact ⟨g, ⟨[], _, _, rfl, by simp, hg⟩, hmessage⟩
  | cons p' front ih =>
      cases halike with
      | cons hpq hrest =>
          obtain ⟨⟨d, hd⟩, hfront⟩ := List.forall_mem_cons.mp hfront
          obtain ⟨g, ⟨front', q', back', rfl, hfront', hq'⟩, hmessage⟩ := ih hrest hfront
          exact ⟨g, ⟨_ :: front', q', back', rfl,
            List.forall_mem_cons.mpr ⟨⟨d, hpq.ok hd⟩, hfront'⟩, hq'⟩, hmessage⟩

end Alike

end Loader

/-! ### Running resolvers -/

namespace Registry

variable [CallerTypes]

/-- The resolvers run on a document one after the other, each with success, and lead
from one model to another. -/
inductive Runs (d : Document) : Registry → Model → Model → Prop where
  | nil (m : Model) : Runs d [] m m
  | cons {r : Resolver} {rest : Registry} {m m' m'' : Model} :
      (r.run d m).outcome = .ok m' → Runs d rest m' m'' → Runs d (r :: rest) m m''

/-- The first resolver that fails on a document has the given fault. -/
def FirstFault (d : Document) (resolvers : Registry) (m : Model) (f : ModelFault) : Prop :=
  ∃ front r back m', resolvers = front ++ r :: back ∧ Runs d front m m' ∧
    (r.run d m').outcome = .error f

variable {d : Document} {resolvers : Registry} {m : Model}

theorem outcome_runOn_eq_ok_iff {m' : Model} :
    (resolvers.runOn d m).outcome = .ok m' ↔ Runs d resolvers m m' := by
  induction resolvers generalizing m with
  | nil =>
      rw [runOn, Attempt.outcome_pure]
      constructor
      · intro h
        cases h
        exact .nil _
      · intro h
        cases h
        rfl
  | cons r rest ih =>
      rw [runOn, Attempt.outcome_write_bind, Attempt.outcome_bind_eq_ok_iff]
      constructor
      · rintro ⟨n, hr, hrest⟩
        exact .cons hr (ih.mp hrest)
      · intro h
        cases h with
        | cons hr hrest => exact ⟨_, hr, ih.mpr hrest⟩

theorem outcome_runOn_eq_error_iff {f : ModelFault} :
    (resolvers.runOn d m).outcome = .error f ↔ FirstFault d resolvers m f := by
  induction resolvers generalizing m with
  | nil =>
      rw [runOn, Attempt.outcome_pure]
      refine iff_of_false (by simp) ?_
      rintro ⟨front, r, back, n, heq, -, -⟩
      exact List.append_ne_nil_of_right_ne_nil front (List.cons_ne_nil r back) heq.symm
  | cons r rest ih =>
      rw [runOn, Attempt.outcome_write_bind, Attempt.outcome_bind_eq_error_iff]
      constructor
      · rintro (hr | ⟨n, hr, hrest⟩)
        · exact ⟨[], r, rest, m, rfl, .nil m, hr⟩
        · obtain ⟨front, r', back, n', rfl, hfront, hr'⟩ := ih.mp hrest
          exact ⟨r :: front, r', back, n', rfl, .cons hr hfront, hr'⟩
      · rintro ⟨front, r', back, n', heq, hfront, hr'⟩
        cases hfront with
        | nil =>
            obtain ⟨rfl, rfl⟩ := List.cons.inj heq
            exact .inl hr'
        | cons hr hfront =>
            obtain ⟨rfl, rfl⟩ := List.cons.inj heq
            exact .inr ⟨_, hr, ih.mpr ⟨_, r', back, n', rfl, hfront, hr'⟩⟩

end Registry

namespace Build

open Document

/-! ### The stages together -/

section Stages

variable {load : Loader} {files front front' : List FilePath} {documents documents' : List Document}

theorem outcome_loadOne (load : Loader) (path : FilePath) :
    (loadOne load path).outcome = (load path).outcome :=
  Attempt.outcome_write_bind _ _ _

theorem outcome_mapM_loadOne_eq_ok_iff :
    (files.mapM (loadOne load)).outcome = .ok documents ↔ load.LoadsAll files documents := by
  simp only [Attempt.outcome_mapM_eq_ok_iff, outcome_loadOne, Loader.LoadsAll]

theorem outcome_mapM_loadOne_eq_error_iff {f : ModelFault} :
    (files.mapM (loadOne load)).outcome = .error f ↔ load.FirstFault files f := by
  simp only [Attempt.outcome_mapM_eq_error_iff, outcome_loadOne, Loader.FirstFault]

/-- Files load, or one of them is the first that does not. -/
theorem loadsAll_or_firstFault (load : Loader) (files : List FilePath) :
    (∃ documents, load.LoadsAll files documents) ∨ ∃ f, load.FirstFault files f := by
  cases h : (files.mapM (loadOne load)).outcome with
  | ok documents => exact .inl ⟨documents, outcome_mapM_loadOne_eq_ok_iff.mp h⟩
  | error f => exact .inr ⟨f, outcome_mapM_loadOne_eq_error_iff.mp h⟩

variable [CallerTypes] {resolvers : Registry}

/-- What a build of files and resolvers comes to. -/
def outcomeOf (load : Loader) (files : List FilePath) (resolvers : Registry) :
    Except ModelFault Model :=
  (run load { files, resolvers }).value.2

theorem outcomeOf_eq (load : Loader) (files : List FilePath) (resolvers : Registry) :
    outcomeOf load files resolvers = (make load files resolvers).outcome := by
  rw [outcomeOf, value_run_of_pending rfl]

/-- A build of files that load resolves the merge of their documents. -/
theorem outcomeOf_of_loadsAll (h : load.LoadsAll files documents) (resolvers : Registry) :
    outcomeOf load files resolvers = (resolvers.resolve (mergeAll documents)).outcome := by
  rw [outcomeOf_eq, make, Attempt.outcome_bind_of_ok (outcome_mapM_loadOne_eq_ok_iff.mpr h),
    Attempt.outcome_write_bind]

/-- A build of files one of which does not load never gets to its resolvers. -/
theorem outcomeOf_of_firstFault {f : ModelFault} (h : load.FirstFault files f)
    (resolvers : Registry) : outcomeOf load files resolvers = .error f := by
  rw [outcomeOf_eq, make, Attempt.outcome_bind_of_error (outcome_mapM_loadOne_eq_error_iff.mpr h)]

theorem outcomeOf_eq_ok_iff {m : Model} :
    outcomeOf load files resolvers = .ok m ↔
      ∃ documents, load.LoadsAll files documents ∧
        resolvers.Runs (mergeAll documents) .empty m := by
  simp only [← Registry.outcome_runOn_eq_ok_iff]
  constructor
  · intro h
    rcases loadsAll_or_firstFault load files with ⟨documents, hload⟩ | ⟨f, hfault⟩
    · exact ⟨documents, hload, (outcomeOf_of_loadsAll hload resolvers).symm.trans h⟩
    · rw [outcomeOf_of_firstFault hfault] at h
      cases h
  · rintro ⟨documents, hload, h⟩
    exact (outcomeOf_of_loadsAll hload resolvers).trans h

theorem outcomeOf_eq_error_iff {f : ModelFault} :
    outcomeOf load files resolvers = .error f ↔
      load.FirstFault files f ∨ ∃ documents, load.LoadsAll files documents ∧
        resolvers.FirstFault (mergeAll documents) .empty f := by
  simp only [← Registry.outcome_runOn_eq_error_iff]
  constructor
  · intro h
    rcases loadsAll_or_firstFault load files with ⟨documents, hload⟩ | ⟨g, hfault⟩
    · exact .inr ⟨documents, hload, (outcomeOf_of_loadsAll hload resolvers).symm.trans h⟩
    · rw [outcomeOf_of_firstFault hfault] at h
      cases h
      exact .inl hfault
  · rintro (hfault | ⟨documents, hload, h⟩)
    · exact outcomeOf_of_firstFault hfault resolvers
    · exact (outcomeOf_of_loadsAll hload resolvers).trans h

/-- Files in front of others count by the merge of their documents. -/
theorem outcomeOf_append_congr (h : load.LoadsAll front documents)
    (h' : load.LoadsAll front' documents') (hmerge : mergeAll documents = mergeAll documents')
    (back : List FilePath) (resolvers : Registry) :
    outcomeOf load (front ++ back) resolvers = outcomeOf load (front' ++ back) resolvers := by
  -- The files behind either all load, and then only merges count, or their fault is told in both.
  rcases loadsAll_or_firstFault load back with ⟨rest, hback⟩ | ⟨f, hfault⟩
  · have hmerges : mergeAll (documents ++ rest) = mergeAll (documents' ++ rest) := by
      rw [mergeAll, mergeAll, List.foldl_append, List.foldl_append]
      exact congrArg (fun d => rest.foldl merge d) hmerge
    rw [outcomeOf_of_loadsAll (List.rel_append h hback), hmerges,
      outcomeOf_of_loadsAll (List.rel_append h' hback)]
  · rw [outcomeOf_of_firstFault (hfault.append_left h),
      outcomeOf_of_firstFault (hfault.append_left h')]

/-- Builds of files that load alike come to the same, up to faults with the same
message. -/
theorem outcomeOf_of_alike {load' : Loader} {files' : List FilePath}
    (h : List.Forall₂ (Loader.Alike load load') files files') (resolvers : Registry) :
    (outcomeOf load files resolvers).mapError ModelFault.message =
      (outcomeOf load' files' resolvers).mapError ModelFault.message := by
  rcases loadsAll_or_firstFault load files with ⟨documents, hload⟩ | ⟨f, hfault⟩
  · rw [outcomeOf_of_loadsAll hload, outcomeOf_of_loadsAll (hload.of_alike h)]
  · obtain ⟨g, hfault', hmessage⟩ := hfault.of_alike h
    rw [outcomeOf_of_firstFault hfault, outcomeOf_of_firstFault hfault']
    exact congrArg Except.error hmessage.symm

/-- A build is the composition of its stages. It succeeds exactly when all files load and
all resolvers run, in order, on the merge of the documents, and otherwise ends in the fault
of the first file that does not load, whatever the resolvers, or else of the first
resolver that fails. So builds of files with the same merge come to the same, wherever the
files are; files at the front may be replaced by one that holds their merge, and a file
without content may stand anywhere. -/
theorem build_of_stages (load : Loader) (resolvers : Registry) :
    (∀ files m, outcomeOf load files resolvers = .ok m ↔
      ∃ documents, load.LoadsAll files documents ∧
        resolvers.Runs (mergeAll documents) .empty m) ∧
    (∀ files documents, load.LoadsAll files documents →
      outcomeOf load files resolvers = (resolvers.resolve (mergeAll documents)).outcome) ∧
    (∀ files f, outcomeOf load files resolvers = .error f ↔
      load.FirstFault files f ∨ ∃ documents, load.LoadsAll files documents ∧
        resolvers.FirstFault (mergeAll documents) .empty f) ∧
    (∀ (load' : Loader) (files files' : List FilePath) (documents documents' : List Document),
      load.LoadsAll files documents → load'.LoadsAll files' documents' →
      mergeAll documents = mergeAll documents' →
      outcomeOf load files resolvers = outcomeOf load' files' resolvers ∧
      ∀ f, outcomeOf load files resolvers = .error f →
        resolvers.FirstFault (mergeAll documents) .empty f) ∧
    (∀ (front back : List FilePath) (path : FilePath) (documents : List Document),
      load.LoadsAll front documents → (load path).outcome = .ok (mergeAll documents) →
      outcomeOf load (front ++ back) resolvers = outcomeOf load (path :: back) resolvers) ∧
    ∀ (front back : List FilePath) (path : FilePath), (load path).outcome = .ok .empty →
      outcomeOf load (front ++ back) resolvers =
        outcomeOf load (front ++ path :: back) resolvers := by
  refine ⟨fun files m => outcomeOf_eq_ok_iff, fun files documents h =>
    outcomeOf_of_loadsAll h resolvers, fun files f => outcomeOf_eq_error_iff, ?_, ?_, ?_⟩
  · intro load' files files' documents documents' h h' hmerge
    refine ⟨?_, ?_⟩
    · rw [outcomeOf_of_loadsAll h, outcomeOf_of_loadsAll h', hmerge]
    · intro f hf
      rw [outcomeOf_of_loadsAll h] at hf
      exact Registry.outcome_runOn_eq_error_iff.mp hf
  · intro front back path documents hfront hpath
    have hsingle : load.LoadsAll [path] [mergeAll documents] := .cons hpath .nil
    have hmerge : mergeAll documents = mergeAll [mergeAll documents] :=
      (empty_merge (noRepeat_mergeAll documents)).symm
    exact outcomeOf_append_congr hfront hsingle hmerge back resolvers
  · intro front back path hpath
    rcases loadsAll_or_firstFault load front with ⟨documents, hfront⟩ | ⟨f, hfault⟩
    · have hmore : load.LoadsAll (front ++ [path]) (documents ++ [empty]) :=
        List.rel_append hfront (.cons hpath .nil)
      have hmerge : mergeAll documents = mergeAll (documents ++ [empty]) :=
        (mergeAll_concat documents empty).symm
      simpa using outcomeOf_append_congr hfront hmore hmerge back resolvers
    · rw [outcomeOf_of_firstFault (hfault.append_right back),
        outcomeOf_of_firstFault (hfault.append_right (path :: back))]

end Stages

/-- Two files in front of one that is missing, and one file that holds the merge of the
two in their place. -/
theorem build_of_stages_joined_files :
    let a : Document := ⟨[(.text "k", .seq [.bool true])]⟩
    let b : Document := ⟨[(.text "l", .null), (.text "k", .seq [.bool false])]⟩
    let load : Loader := fun path =>
      if path = .named "a.yml" then pure a
      else if path = .named "b.yml" then pure b
      else if path = .named "both.yml" then pure (mergeAll [a, b])
      else .fail (.missing path)
    let resolvers : Registry := [.collection "k" .json]
    load.LoadsAll [.named "a.yml", .named "b.yml"] [a, b] ∧
      (load (.named "both.yml")).outcome = .ok (mergeAll [a, b]) ∧
      outcomeOf load ([.named "a.yml", .named "b.yml"] ++ [.named "c.yml"]) resolvers =
        outcomeOf load (.named "both.yml" :: [.named "c.yml"]) resolvers := by
  intro a b load resolvers
  have hfront : load.LoadsAll [.named "a.yml", .named "b.yml"] [a, b] :=
    .cons (by simp [load]) (.cons (by simp [load]) .nil)
  have hboth : (load (.named "both.yml")).outcome = .ok (mergeAll [a, b]) := by simp [load]
  obtain ⟨-, -, -, -, hjoined, -⟩ := build_of_stages load resolvers
  exact ⟨hfront, hboth, hjoined _ [.named "c.yml"] _ _ hfront hboth⟩

end Build

end Galley
