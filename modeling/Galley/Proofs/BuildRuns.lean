import Galley.Build

/-!
Runs of calls on a build.

Until a build is run, calls collect files and resolvers and nothing else
(`step_of_pending`). The run settles the build, and a settled build answers every
call from what it settled to and never changes (`step_settle`). Over whole
sequences of calls this is `build_runs_once`: additions are accepted only before the
first run, and the only model that is ever shown is the one that the first run
made.
-/

namespace Galley.Build

/-- A refusal after a failure ends in the message of the failure. -/
theorem suffix_message_afterFailure (reason : String) :
    reason.toList <:+ (ModelFault.order (.afterFailure reason)).message.toList := by
  have h : (ModelFault.order (.afterFailure reason)).message =
      "Build sequence error: " ++ ("model unavailable, build failed: " ++ reason) := rfl
  rw [h, String.toList_append, String.toList_append]
  exact (List.suffix_append _ _).trans (List.suffix_append _ _)

section

variable [CallerTypes]

/-! ### Calls -/

inductive Call where
  | addFile (path : FilePath)
  | addFiles (paths : List FilePath)
  | addResolver (resolver : Resolver)
  | addResolvers (resolvers : Registry)
  | run
  | model

/-- What a call answers: a fault, or the model if it was asked for. -/
abbrev Answer := Except ModelFault (Option Model)

/-- The build after an addition, which stays as it was when the addition is refused. -/
def afterAddition (b : Build) : Except ModelFault Build → Build × Answer
  | .ok b' => (b', .ok none)
  | .error f => (b, .error f)

/-- One call: the build afterwards, and the answer. -/
def step (load : Loader) (b : Build) : Call → Build × Answer
  | .addFile path => b.afterAddition (b.addFile path)
  | .addFiles paths => b.afterAddition (b.addFiles paths)
  | .addResolver resolver => b.afterAddition (b.addResolver resolver)
  | .addResolvers resolvers => b.afterAddition (b.addResolvers resolvers)
  | .run => ((b.run load).value.1, (b.run load).value.2.map some)
  | .model => (b, b.model.map some)

def after (load : Loader) : Build → List Call → Build
  | b, [] => b
  | b, c :: calls => after load (b.step load c).1 calls

/-- The answers to calls, one after the other. -/
def answers (load : Loader) : Build → List Call → List Answer
  | _, [] => []
  | b, c :: calls => (b.step load c).2 :: answers load (b.step load c).1 calls

def Call.files : Call → List FilePath
  | .addFile path => [path]
  | .addFiles paths => paths
  | _ => []

def Call.resolvers : Call → Registry
  | .addResolver resolver => [resolver]
  | .addResolvers resolvers => resolvers
  | _ => []

/-- The build with what a call adds. -/
def collect (b : Build) (c : Call) : Build :=
  { b with files := b.files ++ c.files, resolvers := b.resolvers ++ c.resolvers }

/-- The answer while nothing was run: additions are accepted, and there is no model. -/
def Call.earlyAnswer : Call → Answer
  | .model => .error (.order .beforeBuild)
  | _ => .ok none

/-- The answer once a run came to an outcome: all but the question for the model is
refused, and that is answered from the outcome. -/
def Call.lateAnswer (outcome : Except ModelFault Model) : Call → Answer
  | .addFile _ | .addFiles _ => .error (.order .filesAfterBuild)
  | .addResolver _ | .addResolvers _ => .error (.order .resolversAfterBuild)
  | .run => .error (.order .secondBuild)
  | .model =>
    match outcome with
    | .ok m => .ok (some m)
    | .error f => .error (.order (.afterFailure f.message))

section Calls

variable {load : Loader} {b : Build}

/-! ### Before the first run -/

theorem addFiles_of_pending (h : b.isPending = true) (paths : List FilePath) :
    b.addFiles paths = .ok { b with files := b.files ++ paths } :=
  if_pos h

theorem addResolvers_of_pending (h : b.isPending = true) (r : Registry) :
    b.addResolvers r = .ok { b with resolvers := b.resolvers ++ r } :=
  if_pos h

theorem model_of_pending (h : b.isPending = true) : b.model = .error (.order .beforeBuild) := by
  obtain ⟨files, resolvers, state⟩ := b
  cases state with
  | pending => rfl
  | built m => cases h
  | failed reason => cases h

/-- A call on a pending build other than a run adds what it names. -/
theorem step_of_pending (h : b.isPending = true) {c : Call} (hc : c ≠ .run) :
    b.step load c = (b.collect c, c.earlyAnswer) := by
  cases c with
  | run => exact absurd rfl hc
  | addFile path =>
      simp [step, addFile, addFiles_of_pending h, afterAddition, collect, Call.files,
        Call.resolvers, Call.earlyAnswer]
  | addFiles paths =>
      simp [step, addFiles_of_pending h, afterAddition, collect, Call.files, Call.resolvers,
        Call.earlyAnswer]
  | addResolver resolver =>
      simp [step, addResolver, addResolvers_of_pending h, afterAddition, collect, Call.files,
        Call.resolvers, Call.earlyAnswer]
  | addResolvers resolvers =>
      simp [step, addResolvers_of_pending h, afterAddition, collect, Call.files,
        Call.resolvers, Call.earlyAnswer]
  | model =>
      simp [step, model_of_pending h, collect, Call.files, Call.resolvers, Call.earlyAnswer,
        Except.map]

theorem after_of_pending (h : b.isPending = true) {calls : List Call} (hcalls : .run ∉ calls) :
    b.after load calls = calls.foldl collect b := by
  induction calls generalizing b with
  | nil => rfl
  | cons c calls ih =>
      obtain ⟨hc, hcalls⟩ := not_or.mp (mt List.mem_cons.mpr hcalls)
      have hcollect : (b.collect c).isPending = true := h
      rw [after, step_of_pending h (Ne.symm hc)]
      exact ih hcollect hcalls

/-- What is collected is appended in order. -/
theorem foldl_collect (calls : List Call) :
    calls.foldl collect b =
      { b with
        files := b.files ++ calls.flatMap Call.files
        resolvers := b.resolvers ++ calls.flatMap Call.resolvers } := by
  induction calls generalizing b with
  | nil => simp
  | cons c calls ih => simp [ih, collect]

theorem answers_of_pending (h : b.isPending = true) {calls : List Call}
    (hcalls : .run ∉ calls) : b.answers load calls = calls.map Call.earlyAnswer := by
  induction calls generalizing b with
  | nil => rfl
  | cons c calls ih =>
      obtain ⟨hc, hcalls⟩ := not_or.mp (mt List.mem_cons.mpr hcalls)
      have hcollect : (b.collect c).isPending = true := h
      rw [answers, step_of_pending h (Ne.symm hc)]
      exact congrArg _ (ih hcollect hcalls)

/-! ### The first run -/

/-- Running a pending build makes the model and settles the build by the outcome. -/
theorem value_run_of_pending (h : b.isPending = true) :
    (b.run load).value =
      (b.settle (make load b.files b.resolvers).outcome,
        (make load b.files b.resolvers).outcome) := by
  rw [run, if_pos h, Logged.value_bind, Attempt.outcome]
  cases (make load b.files b.resolvers).run.value <;> rfl

theorem files_settle (outcome : Except ModelFault Model) : (b.settle outcome).files = b.files := by
  cases outcome <;> rfl

theorem resolvers_settle (outcome : Except ModelFault Model) :
    (b.settle outcome).resolvers = b.resolvers := by
  cases outcome <;> rfl

theorem isBuilt_settle (outcome : Except ModelFault Model) :
    (b.settle outcome).isBuilt = true ↔ ∃ m, outcome = .ok m := by
  cases outcome <;> simp [settle, isBuilt]

/-! ### After the first run -/

/-- A settled build stays as it is. -/
theorem step_settle (outcome : Except ModelFault Model) (c : Call) :
    (b.settle outcome).step load c = (b.settle outcome, c.lateAnswer outcome) := by
  cases outcome <;> cases c <;> rfl

theorem after_settle (outcome : Except ModelFault Model) (calls : List Call) :
    (b.settle outcome).after load calls = b.settle outcome := by
  induction calls with
  | nil => rfl
  | cons c calls ih => rw [after, step_settle, ih]

theorem answers_settle (outcome : Except ModelFault Model) (calls : List Call) :
    (b.settle outcome).answers load calls = calls.map (Call.lateAnswer outcome) := by
  induction calls with
  | nil => rfl
  | cons c calls ih =>
      rw [answers, step_settle]
      exact congrArg _ ih

/-! ### Sequences of calls -/

theorem after_append (front back : List Call) :
    b.after load (front ++ back) = (b.after load front).after load back := by
  induction front generalizing b with
  | nil => rfl
  | cons c front ih => exact ih

theorem answers_append (front back : List Call) :
    b.answers load (front ++ back) =
      b.answers load front ++ (b.after load front).answers load back := by
  induction front generalizing b with
  | nil => rfl
  | cons c front ih => exact congrArg _ ih

/-- An early answer shows no model. -/
theorem earlyAnswer_ne_model (c : Call) (m : Model) : c.earlyAnswer ≠ .ok (some m) := by
  cases c <;> simp [Call.earlyAnswer]

/-- A late answer shows the model of the run, if there is one. -/
theorem eq_of_lateAnswer {outcome : Except ModelFault Model} {c : Call} {m : Model}
    (h : c.lateAnswer outcome = .ok (some m)) : outcome = .ok m := by
  cases outcome <;> cases c <;> simp_all [Call.lateAnswer]

end Calls

/-- What the run of a new build comes to after calls. -/
def outcomeAfter (load : Loader) (early : List Call) : Except ModelFault Model :=
  ((new.after load early).run load).value.2

/-- A new build meets the calls `early`, its first run, and the calls `late`. -/
structure RunsOnce (load : Loader) (early late : List Call) : Prop where
  /-- Until the run, additions append in order and no model is there. -/
  files : (new.after load early).files = early.flatMap Call.files
  resolvers : (new.after load early).resolvers = early.flatMap Call.resolvers
  notBuilt : (new.after load early).isBuilt = false
  waiting : new.answers load early = early.map Call.earlyAnswer
  /-- The run decides whether the build is built. -/
  builtIff : (new.after load (early ++ [.run])).isBuilt = true ↔
    ∃ m, outcomeAfter load early = .ok m
  filesKept : (new.after load (early ++ [.run])).files = (new.after load early).files
  resolversKept : (new.after load (early ++ [.run])).resolvers = (new.after load early).resolvers
  /-- Behind the run nothing changes any more. -/
  kept : new.after load (early ++ .run :: late) = new.after load (early ++ [.run])
  /-- Every call is answered as its place before, at or behind the run tells. -/
  answered : new.answers load (early ++ .run :: late) =
    early.map Call.earlyAnswer ++ (outcomeAfter load early).map some ::
      late.map (Call.lateAnswer (outcomeAfter load early))
  /-- The refusal of a model that could not be made contains why it could not. -/
  told : ∀ f, outcomeAfter load early = .error f → ∃ g : OrderFault,
    Call.lateAnswer (outcomeAfter load early) .model = .error (.order g) ∧
      f.message.toList <:+: (ModelFault.order g).message.toList
  /-- The one model that is ever shown is that of the run. -/
  shown : ∀ m, .ok (some m) ∈ new.answers load (early ++ .run :: late) →
    outcomeAfter load early = .ok m

section Once

variable {load : Loader} {early : List Call}

/-- Calls without a run collect what they add, in order. -/
theorem after_new (h : .run ∉ early) :
    new.after load early =
      { files := early.flatMap Call.files, resolvers := early.flatMap Call.resolvers } := by
  rw [after_of_pending rfl h, foldl_collect]
  rfl

theorem isPending_after (h : .run ∉ early) : (new.after load early).isPending = true := by
  rw [after_new h]
  rfl

/-- The build behind the first run is the collected one, settled by the outcome. -/
theorem after_run (h : .run ∉ early) (late : List Call) :
    new.after load (early ++ .run :: late) =
      (new.after load early).settle (outcomeAfter load early) := by
  rw [after_append, after, step, outcomeAfter, value_run_of_pending (isPending_after h)]
  exact after_settle _ late

theorem answers_run (h : .run ∉ early) (late : List Call) :
    new.answers load (early ++ .run :: late) =
      early.map Call.earlyAnswer ++ (outcomeAfter load early).map some ::
        late.map (Call.lateAnswer (outcomeAfter load early)) := by
  rw [answers_append, answers_of_pending rfl h, answers, step, outcomeAfter,
    value_run_of_pending (isPending_after h)]
  exact congrArg (fun rest => _ ++ _ :: rest) (answers_settle _ late)

end Once

/-- A build is run once. Whatever calls come before its first run collect files and
resolvers in order; the run decides the state for good; behind it every addition and
every other run is refused and changes nothing, and the question for the model is always
answered by the model that the run made, or by a refusal that contains why it made
none. -/
theorem build_runs_once (load : Loader) (early late : List Call) (h : .run ∉ early) :
    RunsOnce load early late where
  files := by rw [after_new h]
  resolvers := by rw [after_new h]
  notBuilt := by rw [after_new h]; rfl
  waiting := answers_of_pending rfl h
  builtIff := by rw [after_run h [], isBuilt_settle]
  filesKept := by rw [after_run h [], files_settle]
  resolversKept := by rw [after_run h [], resolvers_settle]
  kept := by rw [after_run h, after_run h]
  answered := answers_run h late
  told := by
    intro f hf
    rw [hf]
    exact ⟨.afterFailure f.message, rfl, (suffix_message_afterFailure f.message).isInfix⟩
  shown := by
    intro m hm
    rw [answers_run h] at hm
    -- Only the run and the questions behind it are answered by a model.
    rcases List.mem_append.mp hm with hearly | hrest
    · obtain ⟨c, -, hc⟩ := List.mem_map.mp hearly
      exact absurd hc (earlyAnswer_ne_model c m)
    · rcases List.mem_cons.mp hrest with hrun | hlate
      · cases houtcome : outcomeAfter load early with
        | error f => simp [houtcome, Except.map] at hrun
        | ok n => simpa [houtcome, Except.map, eq_comm] using hrun
      · obtain ⟨c, -, hc⟩ := List.mem_map.mp hlate
        exact eq_of_lateAnswer hc

end

/-- A run that fails on its only file, and calls on both sides of it. -/
theorem build_runs_once_missing_file :
    let load : Loader := fun path => .fail (.missing path)
    let early : List Call := [.addFile (.named "a.yml"), .model]
    let late : List Call := [.model, .addFiles [.named "b.yml"], .run]
    .run ∉ early ∧ outcomeAfter load early = .error (.missing (.named "a.yml")) ∧
      RunsOnce load early late := by
  intro load early late
  have h : .run ∉ early := by simp [early]
  exact ⟨h, rfl, build_runs_once load early late h⟩

end Galley.Build
