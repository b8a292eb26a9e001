import Galley.Proofs.SessionCalls
import Mathlib.Data.List.Induction

/-!
Runs of calls on a session.

What the build of a load comes to is told by the settings, the resolvers and the files
beside the session's own scratch files, so it is the same after any history
(`Kept.model_act`). The invariant that carries this over a run is `Kept`; the result is
`session_serves`.
-/

namespace Galley.Session

/-! ### Files that load alike -/

section Files

variable {base fs fs' : Files}

/-- Files with the same text load alike. -/
theorem alike_of_readText {p : FilePath} (h : fs.readText p = fs'.readText p) :
    Loader.Alike fs.loader fs'.loader p p := by
  rw [Loader.Alike, Files.loader, Files.loader, h]

/-- Scratch files with the same text load alike, whatever their numbers: messages do not
tell them. -/
theorem alike_scratch {t t' : Scratch} {text : String} (h : fs.readText t.path = .ok text)
    (h' : fs'.readText t'.path = .ok text) :
    Loader.Alike fs.loader fs'.loader t.path t'.path := by
  rw [Loader.Alike, Files.loader, Files.loader, h, h']
  dsimp only
  cases Document.ofText text <;> rfl

/-- Paths outside of the scratch files made since load alike after any two histories. -/
theorem alike_outside {made made' : List Scratch} (h : Files.Since base made fs)
    (h' : Files.Since base made' fs') {paths : List FilePath}
    (hpaths : ∀ p ∈ paths, p.Outside base.serial) :
    List.Forall₂ (Loader.Alike fs.loader fs'.loader) paths paths := by
  rw [List.forall₂_same]
  intro p hp
  apply alike_of_readText
  rw [h.readText_of_outside (hpaths p hp), h'.readText_of_outside (hpaths p hp)]

end Files

section Runs

variable [CallerTypes]

/-! ### What a run keeps -/

/-- What holds of a session and the files after any calls on a session that had no
build: its settings stay, the scratch files made since are the one of its build, and no
other one made since is among the files of the build. -/
structure Kept (first : Session) (base : Files) (s : Session) (fs : Files) : Prop where
  settings : s.settings = first.settings
  resolvers : s.resolvers = first.resolvers
  since : Files.Since base s.scratch.toList fs
  held : ∀ n, base.serial ≤ n →
    ((∃ b, s.build = some b ∧ .scratch n ∈ b.files) ↔ ∃ t, s.scratch = some t ∧ t.serial = n)

/-- The project file is none of the scratch files made since. -/
def ProjectOutside (s : Session) (serial : Nat) : Prop :=
  ∀ project, s.settings.projectFile = some project → project.Outside serial

section Kept

variable {first s : Session} {base fs fs' : Files} {c : Call}

theorem Kept.fresh (first : Session) (base : Files) : Kept first base first.fresh base where
  settings := rfl
  resolvers := rfl
  since := .refl base
  held n _ := by simp [Session.fresh]

/-- What a load takes its files from: the files made since, beside the new one. -/
theorem Kept.since_loads (h : Kept first base s fs) {paths : List FilePath}
    {scratch : Option Scratch} (hloads : Loads s fs c fs' paths scratch) :
    Files.Since base (scratch.toList ++ s.scratch.toList) fs' ∧
      ∀ t ∈ scratch, base.serial ≤ t.serial ∧ ∀ u ∈ s.scratch, u.serial < t.serial := by
  cases hloads with
  | files => exact ⟨h.since, by simp⟩
  | directory => exact ⟨h.since, by simp⟩
  | text hadd =>
      obtain ⟨hsince, hserial, -⟩ := h.since.addScratch? hadd
      refine ⟨hsince, ?_⟩
      rintro t ⟨⟩
      refine ⟨hserial ▸ h.since.serial_le, fun u hu => ?_⟩
      rw [hserial]
      exact h.since.made_lt u (by simpa using hu)

/-- Putting a new scratch file, or none, in the place of the old one. -/
theorem Kept.since_release (h : Kept first base s fs) (hbase : base.Numbered)
    {scratch : Option Scratch} (hsince : Files.Since base (scratch.toList ++ s.scratch.toList) fs')
    (hnew : ∀ t ∈ scratch, ∀ u ∈ s.scratch, u.serial < t.serial) :
    Files.Since base scratch.toList (s.release fs') := by
  rw [release]
  cases hold : s.scratch with
  | none => simpa [hold] using hsince
  | some u =>
      have hu : base.serial ≤ u.serial := h.since.made_le u (by simp [hold])
      have hkept : (scratch.toList ++ s.scratch.toList).filter (fun t => t.serial != u.serial) =
          scratch.toList := by
        rw [List.filter_append, hold]
        have hfirst : scratch.toList.filter (fun t => t.serial != u.serial) = scratch.toList := by
          rw [List.filter_eq_self]
          intro t ht
          simpa using Nat.ne_of_gt (hnew t (by simpa using ht) u hold)
        simp [hfirst]
      exact hkept ▸ hsince.dropScratch hbase hu

theorem Kept.isAlive_iff (h : Kept first base s fs) (hbase : base.Numbered) {t : Scratch}
    (ht : base.serial ≤ t.serial) :
    fs.isAlive t = true ↔ ∃ u, s.scratch = some u ∧ u.serial = t.serial := by
  simp [h.since.isAlive_iff hbase ht]

/-- Of the scratch files made since, a load takes the new one. -/
theorem scratch_mem_loads (hc : c.Outside base.serial)
    {paths : List FilePath} {scratch : Option Scratch}
    (hloads : Loads s fs c fs' paths scratch) {n : Nat} (hn : base.serial ≤ n) :
    .scratch n ∈ paths ↔ ∃ t, scratch = some t ∧ t.serial = n := by
  cases hloads with
  | files =>
      refine iff_of_false (fun hmem => ?_) (by simp)
      exact absurd (hc _ hmem) (Nat.not_lt.mpr hn)
  | directory hfind =>
      refine iff_of_false (fun hmem => ?_) (by simp)
      obtain ⟨g, -, hdiscover⟩ := outcome_find_eq_ok_iff.mp hfind
      obtain ⟨text, htext⟩ := Glob.named_of_mem_discover hdiscover hmem
      cases htext
  | text hadd => simp [Scratch.path, eq_comm]

/-- One call keeps the invariant. -/
theorem Kept.act (h : Kept first base s fs) (hbase : base.Numbered)
    (hproject : first.ProjectOutside base.serial) (hc : c.Outside base.serial) :
    Kept first base (s.act fs c).session (s.act fs c).files := by
  rcases act_cases s fs c with ⟨-, hsession, hfiles⟩ | ⟨f, -, hact⟩ |
    ⟨-, fs', paths, scratch, hloads, hact⟩
  · rw [hsession, hfiles]
    cases c <;> exact ⟨h.settings, h.resolvers, h.since, h.held⟩
  · rw [hact]
    exact h
  · -- The build takes the new scratch file only, since the project file is none of these.
    obtain ⟨hsince, hnew⟩ := h.since_loads hloads
    rw [hact, value_load]
    refine ⟨h.settings, h.resolvers, h.since_release hbase hsince fun t ht => (hnew t ht).2, ?_⟩
    intro n hn
    rw [← scratch_mem_loads hc hloads hn]
    constructor
    · rintro ⟨b, hb, hmem⟩
      cases hb
      rw [files_buildOf] at hmem
      rcases List.mem_append.mp hmem with hpart | hpaths
      · have hp := hproject _ (h.settings ▸ eq_of_mem_projectPart hpart)
        exact absurd hp (Nat.not_lt.mpr hn)
      · exact hpaths
    · intro hmem
      exact ⟨_, rfl, by rw [files_buildOf]; exact List.mem_append_right _ hmem⟩

/-! ### Loading after any history -/

/-- The call is refused for the same reason after any history. -/
theorem Kept.refusal?_eq (h : Kept first base s fs) (hc : c.Outside base.serial) :
    s.refusal? fs c = first.refusal? base c := by
  cases c with
  | loadDirectory directory pattern =>
      have hresolve : fs.resolve directory = base.resolve directory :=
        h.since.resolve_of_outside hc
      simp only [refusal?, find, h.settings, Glob.discover_congr hresolve]
  | loadText text => rw [refusal?, refusal?, h.settings, h.since.hasRoom]
  | _ => rfl

theorem outside_of_mem_projectPart (hproject : first.ProjectOutside base.serial)
    {paths : List FilePath} {p : FilePath} (hp : p ∈ first.projectPart fs paths) :
    p.Outside base.serial :=
  hproject p (eq_of_mem_projectPart hp)

/-- The project file comes in front of a load of the same paths after any history. -/
theorem Kept.projectPart_eq (h : Kept first base s fs)
    (hproject : first.ProjectOutside base.serial) (paths : List FilePath) :
    s.projectPart fs paths = first.projectPart base paths := by
  rw [projectPart, projectPart, h.settings]
  cases hfile : first.settings.projectFile with
  | none => rfl
  | some project =>
      dsimp only
      rw [h.since.isFile_of_outside (hproject project hfile)]

/-- The project file comes in front of a new scratch file as if nothing else was loaded. -/
theorem Kept.projectPart_scratch (h : Kept first base s fs)
    (hproject : first.ProjectOutside base.serial) {made : List Scratch}
    (hsince : Files.Since base made fs') {t : Scratch} (ht : base.serial ≤ t.serial) :
    s.projectPart fs' [t.path] = first.projectPart base [] := by
  rw [projectPart, projectPart, h.settings]
  cases hfile : first.settings.projectFile with
  | none => rfl
  | some project =>
      have houtside := hproject project hfile
      dsimp only
      rw [hsince.isFile_of_outside houtside]
      cases hisFile : base.isFile project with
      | false => rfl
      | true =>
          have hsame : project.same t.path = false := (houtside.mono ht).not_same_scratch
          simp [hsame]

/-- A load takes files that load alike after any history. -/
theorem Kept.alike_loads (h : Kept first base s fs) (hproject : first.ProjectOutside base.serial)
    (hc : c.Outside base.serial) {fs₁ fs₂ : Files} {paths₁ paths₂ : List FilePath}
    {scratch₁ scratch₂ : Option Scratch} (h₁ : Loads s fs c fs₁ paths₁ scratch₁)
    (h₂ : Loads first.fresh base c fs₂ paths₂ scratch₂) :
    List.Forall₂ (Loader.Alike fs₁.loader fs₂.loader) (s.projectPart fs₁ paths₁ ++ paths₁)
      (first.fresh.projectPart fs₂ paths₂ ++ paths₂) := by
  have hfresh : Kept first base first.fresh base := .fresh first base
  obtain ⟨hsince₁, hnew₁⟩ := h.since_loads h₁
  obtain ⟨hsince₂, hnew₂⟩ := hfresh.since_loads h₂
  have hpart (paths : List FilePath) :
      List.Forall₂ (Loader.Alike fs₁.loader fs₂.loader) (first.projectPart base paths)
        (first.projectPart base paths) :=
    alike_outside hsince₁ hsince₂ fun p hp => outside_of_mem_projectPart hproject hp
  cases h₁ with
  | files paths =>
      cases h₂
      rw [h.projectPart_eq hproject, hfresh.projectPart_eq hproject]
      exact List.rel_append (hpart _) (alike_outside hsince₁ hsince₂ hc)
  | directory hfind₁ =>
      cases h₂ with
      | directory hfind₂ =>
          rename_i directory pattern
          have hfind : find fs directory (pattern.getD s.settings.pattern) =
              find base directory (pattern.getD first.fresh.settings.pattern) := by
            have hresolve : fs.resolve directory = base.resolve directory :=
              h.since.resolve_of_outside hc
            simp only [find, h.settings, Glob.discover_congr hresolve]
            rfl
          rw [hfind, hfind₂] at hfind₁
          cases hfind₁
          rw [h.projectPart_eq hproject, hfresh.projectPart_eq hproject]
          refine List.rel_append (hpart _) (alike_outside hsince₁ hsince₂ fun p hp => ?_)
          obtain ⟨g, -, hdiscover⟩ := outcome_find_eq_ok_iff.mp hfind₂
          obtain ⟨text, rfl⟩ := Glob.named_of_mem_discover hdiscover hp
          trivial
  | text hadd₁ =>
      -- The scratch files have different numbers, but the same text.
      cases h₂ with
      | text hadd₂ =>
          rw [h.projectPart_scratch hproject hsince₁ (hnew₁ _ rfl).1,
            hfresh.projectPart_scratch hproject hsince₂ (hnew₂ _ rfl).1]
          obtain ⟨-, -, htext₁⟩ := h.since.addScratch? hadd₁
          obtain ⟨-, -, htext₂⟩ := hfresh.since.addScratch? hadd₂
          exact List.rel_append (hpart []) (.cons (alike_scratch htext₁ htext₂) .nil)

/-- Calls that load something of their own get as far as a build after any history. -/
theorem Kept.builds_eq (h : Kept first base s fs) (hc : c.Outside base.serial) :
    s.builds fs c = first.fresh.builds base c := by
  rw [builds, builds, h.refusal?_eq hc, (Kept.fresh first base).refusal?_eq hc]

/-- The model that a load leaves is told by the outcome of its build, of whose fault only
the message is kept. -/
theorem model_value_load (s : Session) (fs : Files) (paths : List FilePath)
    (scratch : Option Scratch) :
    (s.load fs paths scratch).value.session.model =
      ((Build.outcomeOf fs.loader (s.projectPart fs paths ++ paths) s.resolvers).mapError
        ModelFault.message).mapError fun reason => .order (.afterFailure reason) := by
  rw [value_load]
  dsimp only [model, buildOf]
  cases Build.outcomeOf fs.loader (s.projectPart fs paths ++ paths) s.resolvers <;> rfl

/-- A load leaves the model that it leaves when it is the first call of all. -/
theorem Kept.model_act (h : Kept first base s fs) (hproject : first.ProjectOutside base.serial)
    (hc : c.Outside base.serial) (hbuilds : s.builds fs c = true) :
    (s.act fs c).session.model = (first.fresh.act base c).session.model := by
  have hbuilds' : first.fresh.builds base c = true := h.builds_eq hc ▸ hbuilds
  obtain ⟨fs₁, paths₁, scratch₁, h₁, hact₁⟩ := act_of_builds hbuilds
  obtain ⟨fs₂, paths₂, scratch₂, h₂, hact₂⟩ := act_of_builds hbuilds'
  rw [hact₁, hact₂, model_value_load, model_value_load, h.resolvers,
    Build.outcomeOf_of_alike (h.alike_loads hproject hc h₁ h₂)]
  rfl

end Kept

/-! ### Runs of calls -/

theorem after_concat (s : Session) (fs : Files) (calls : List Call) (c : Call) :
    s.after fs (calls ++ [c]) =
      (((s.after fs calls).1.act (s.after fs calls).2 c).session,
        ((s.after fs calls).1.act (s.after fs calls).2 c).files) := by
  simp only [after, List.foldl_append, List.foldl_cons, List.foldl_nil]

/-- The latest of the calls that get as far as a build. -/
def latest? (first : Session) (base : Files) (calls : List Call) : Option Call :=
  (calls.filter (first.fresh.builds base)).getLast?

/-- The model that a call leaves when it is the first of all; none if there was no call. -/
def leftBy (first : Session) (base : Files) : Option Call → Except ModelFault Model
  | none => .error (.order .noModel)
  | some c => (first.fresh.act base c).session.model

section Calls

variable {first s : Session} {base fs : Files} {calls : List Call} {c : Call}

theorem latest?_concat_of_builds (h : first.fresh.builds base c = true) :
    latest? first base (calls ++ [c]) = some c := by
  simp [latest?, List.filter_append, h]

theorem latest?_concat_of_not_builds (h : first.fresh.builds base c = false) :
    latest? first base (calls ++ [c]) = latest? first base calls := by
  simp [latest?, List.filter_append, h]

theorem kept_after (hbase : base.Numbered) (hproject : first.ProjectOutside base.serial)
    (hcalls : ∀ c ∈ calls, c.Outside base.serial) :
    Kept first base (first.fresh.after base calls).1 (first.fresh.after base calls).2 := by
  induction calls using List.reverseRecOn with
  | nil => exact .fresh first base
  | append_singleton calls c ih =>
      obtain ⟨hfront, hc⟩ := List.forall_mem_append.mp hcalls
      rw [after_concat]
      exact (ih hfront).act hbase hproject (hc c (by simp))

/-- A call without a build keeps the model and the scratch file. -/
theorem act_of_not_builds (h : s.builds fs c = false) :
    (s.act fs c).session.model = s.model ∧ (s.act fs c).session.scratch = s.scratch := by
  rcases act_cases s fs c with ⟨-, hsession, -⟩ | ⟨f, -, hact⟩ | ⟨hbuilds, -⟩
  · rw [hsession]
    cases c <;> exact ⟨rfl, rfl⟩
  · rw [hact]
    exact ⟨rfl, rfl⟩
  · cases h.symm.trans hbuilds

/-- A call with a build has a scratch file afterwards if it loads a text. -/
theorem scratch_act_of_builds (h : s.builds fs c = true) :
    (s.act fs c).session.scratch.isSome = true ↔ ∃ text, c = .loadText text := by
  obtain ⟨fs', paths, scratch, hloads, hact⟩ := act_of_builds h
  rw [hact, value_load]
  cases hloads <;> simp

/-- What holds of a fresh session, is kept by calls without a build, and holds of each call
with a build holds after a run, of the latest of these calls. -/
theorem latest?_induction {P : Session → Option Call → Prop} (hbase : base.Numbered)
    (hproject : first.ProjectOutside base.serial) (hfresh : P first.fresh none)
    (hkeeps : ∀ s fs c latest, s.builds fs c = false → P s latest →
      P (s.act fs c).session latest)
    (hloads : ∀ s fs c, Kept first base s fs → c.Outside base.serial → s.builds fs c = true →
      P (s.act fs c).session (some c))
    (hcalls : ∀ c ∈ calls, c.Outside base.serial) :
    P (first.fresh.after base calls).1 (latest? first base calls) := by
  induction calls using List.reverseRecOn with
  | nil => exact hfresh
  | append_singleton calls c ih =>
      obtain ⟨hfront, hc⟩ := List.forall_mem_append.mp hcalls
      have hkept := kept_after hbase hproject hfront
      have houtside : c.Outside base.serial := hc c (by simp)
      rw [after_concat]
      -- Whether a call gets as far as a build is the same now as on the fresh session.
      cases hbuilds : first.fresh.builds base c with
      | true =>
          rw [latest?_concat_of_builds hbuilds]
          exact hloads _ _ c hkept houtside ((hkept.builds_eq houtside).trans hbuilds)
      | false =>
          rw [latest?_concat_of_not_builds hbuilds]
          exact hkeeps _ _ c _ ((hkept.builds_eq houtside).trans hbuilds) (ih hfront)

/-- The model after a run is the one that the latest load leaves. -/
theorem model_after (hbase : base.Numbered) (hproject : first.ProjectOutside base.serial)
    (hcalls : ∀ c ∈ calls, c.Outside base.serial) :
    (first.fresh.after base calls).1.model = leftBy first base (latest? first base calls) := by
  refine latest?_induction (P := fun s latest => s.model = leftBy first base latest) hbase
    hproject rfl ?_ ?_ hcalls
  · intro s fs c latest hbuilds hmodel
    rw [(act_of_not_builds hbuilds).1, hmodel]
  · intro s fs c hkept hc hbuilds
    exact hkept.model_act hproject hc hbuilds

/-- After a run there is a scratch file if the latest load was that of a text. -/
theorem scratch_after (hbase : base.Numbered) (hproject : first.ProjectOutside base.serial)
    (hcalls : ∀ c ∈ calls, c.Outside base.serial) :
    (first.fresh.after base calls).1.scratch.isSome = true ↔
      ∃ text, latest? first base calls = some (.loadText text) := by
  refine latest?_induction
    (P := fun s latest => s.scratch.isSome = true ↔ ∃ text, latest = some (.loadText text))
    hbase hproject (by simp [fresh]) ?_ ?_ hcalls
  · intro s fs c latest hbuilds hscratch
    rw [(act_of_not_builds hbuilds).2, hscratch]
  · intro s fs c _ _ hbuilds
    rw [scratch_act_of_builds hbuilds]
    simp

end Calls

/-- A session and the files after calls, beside the session on which nothing was called
and the files at that time. -/
structure Serves (first : Session) (base : Files) (calls : List Call) (s : Session)
    (fs : Files) : Prop where
  /-- A call that loads nothing changes at most the selected template. -/
  reads : ∀ c : Call, c.isLoad = false →
    (s.act fs c).session = c.selecting s ∧ (s.act fs c).files = fs
  /-- A call whose pattern, directory or scratch file is refused changes nothing. -/
  refuses : ∀ c f, s.refusal? fs c = some f → s.act fs c = s.refuse fs f ∧ IsRefusal f
  /-- Faults of this kind come from nowhere else, resolvers apart. -/
  refusals : ∀ c : Call, c.isLoad = true → ∀ f, (s.act fs c).outcome = .error (.model f) →
    IsRefusal f → s.refusal? fs c = some f ∨ ∃ d, s.resolvers.FirstFault d .empty f
  /-- Any other load replaces the build and the scratch file, whatever the build comes to. -/
  loads : ∀ c, s.builds fs c = true → ∃ fs' paths scratch, Loads s fs c fs' paths scratch ∧
    (s.act fs c).session = { s with build := some (s.buildOf fs' paths), scratch } ∧
    ((s.act fs c).outcome = .ok () ↔ (s.buildOf fs' paths).isBuilt = true)
  /-- It leaves the model that it leaves when it is the first call of all. -/
  loadsAlike : ∀ c : Call, c.Outside base.serial → s.builds fs c = true →
    (s.act fs c).session.model = (first.fresh.act base c).session.model
  /-- The model is the one that the latest load left. -/
  shows : s.model = leftBy first base (latest? first base calls)
  /-- Nothing but the scratch files of the session was made or removed. -/
  keeps : ∀ p : FilePath, p.Outside base.serial → fs.resolve p = base.resolve p
  /-- Of the scratch files of the session, those that the build was made from are alive. -/
  alive : ∀ t : Scratch, base.serial ≤ t.serial →
    (fs.isAlive t = true ↔ ∃ b, s.build = some b ∧ t.path ∈ b.files)
  /-- There is one while the latest load is that of a text. -/
  aliveIff : (∃ t : Scratch, base.serial ≤ t.serial ∧ fs.isAlive t = true) ↔
    ∃ text, latest? first base calls = some (.loadText text)

/-- The state of a session over a run of calls, none of which is given a path of a scratch
file that the session makes. Calls that only read leave it as it is; so do calls whose
pattern, directory or scratch file is refused, so the model before them is still served.
Every other load puts its build and its scratch file in the place of the old ones, even if
the build fails, and leaves the model, or the fault, that it leaves as the first call on a
fresh session. A scratch file of the session is alive as long as its build was made from
it. -/
theorem session_serves (first : Session) (base : Files) (calls : List Call)
    (hbase : base.Numbered) (hproject : first.ProjectOutside base.serial)
    (hcalls : ∀ c ∈ calls, c.Outside base.serial) :
    Serves first base calls (first.fresh.after base calls).1 (first.fresh.after base calls).2 :=
  have hkept := kept_after hbase hproject hcalls
  { reads := fun _ hc => act_of_not_isLoad hc
    refuses := fun _ _ hf => ⟨act_of_refusal hf, isRefusal_of_refusal? hf⟩
    refusals := fun _ hload _ hf hrefusal => refusal?_of_isRefusal hload hf hrefusal
    loads := fun _ hbuilds => act_of_builds_replaces hbuilds
    loadsAlike := fun _ hc hbuilds => hkept.model_act hproject hc hbuilds
    shows := model_after hbase hproject hcalls
    keeps := fun _ hp => hkept.since.resolve_of_outside hp
    alive := by
      intro t ht
      rw [hkept.isAlive_iff hbase ht]
      exact (hkept.held t.serial ht).symm
    aliveIff := by
      rw [← scratch_after hbase hproject hcalls, Option.isSome_iff_exists]
      constructor
      · rintro ⟨t, ht, halive⟩
        obtain ⟨u, hu, -⟩ := (hkept.isAlive_iff hbase ht).mp halive
        exact ⟨u, hu⟩
      · rintro ⟨u, hu⟩
        have hserial : base.serial ≤ u.serial := hkept.since.made_le u (by simp [hu])
        exact ⟨u, hserial, (hkept.isAlive_iff hbase hserial).mpr ⟨u, hu, rfl⟩⟩ }

end Runs

/-- A text is loaded, another one for which there is no room is refused, a search is refused, and a
template is selected: the first text is still served, and its scratch file is alive. -/
theorem session_serves_refused_search :
    let base : Files := { hasRoom := fun text => text == "k: v" }
    let calls : List Call :=
      [.loadText "k: v", .loadText "k: [v, w]", .loadDirectory (.named "missing") none,
        .selectTemplate (.named "t.hbs")]
    let s := (fresh (new []) |>.after base calls).1
    let fs := (fresh (new []) |>.after base calls).2
    base.Numbered ∧ (new []).ProjectOutside 0 ∧ (∀ c ∈ calls, c.Outside 0) ∧
      Serves (new []) base calls s fs ∧ latest? (new []) base calls = some (.loadText "k: v") ∧
      (new []).refusal? base (.loadText "k: [v, w]") = some .io ∧
      ∃ t : Scratch, 0 ≤ t.serial ∧ fs.isAlive t = true := by
  intro base calls s fs
  have hbase : base.Numbered := by simp [base, Files.Numbered]
  have hproject : (new []).ProjectOutside 0 := by
    rintro project ⟨⟩
    trivial
  have hcalls : ∀ c ∈ calls, c.Outside 0 := by simp [calls, Call.Outside, FilePath.Outside]
  have hserves := session_serves (new []) base calls hbase hproject hcalls
  have hlatest : latest? (new []) base calls = some (.loadText "k: v") := by rfl
  exact ⟨hbase, hproject, hcalls, hserves, hlatest, rfl, hserves.aliveIff.mpr ⟨_, hlatest⟩⟩

end Galley.Session
