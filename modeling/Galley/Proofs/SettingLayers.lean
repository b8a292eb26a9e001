import Galley.Proofs.CommentRemoval
import Galley.Proofs.LowerCase
import Galley.Proofs.Outcomes
import Galley.Proofs.SettingKeys
import Galley.Settings.Load
import Mathlib.Data.List.Induction

/-!
Where settings come from.

Settings that are loaded have the value of the environment, else the value of the file, else
their default, each setting for itself (`Setting.gives_of_load`). A value counts for a setting
if its key is the name of the setting in any letter case, and the last one counts. In the
environment these are the variables with *two* underscores behind the lead
(`Setting.last?_entriesOfEnvironment`): `TMPLASSERT__LOG_LEVEL` is the variable of the log level,
and `TMPLASSERT_LOG_LEVEL` is not read at all (`Settings.load_without_shortVariable`).
-/

namespace Galley

/-- The settings that are a single value. -/
inductive Setting where
  | pattern
  | projectFile
  | isStrict
  | scratchLead
  | logLevel
  deriving DecidableEq

/-- Whether a text is a word in lower case, but for the case of its letters. -/
def spells (word s : String) : Bool :=
  s.toList.map Char.toLower == word.toList

namespace Setting

open Settings

/-- The name of a setting in a file. -/
def name : Setting → String
  | .pattern => "model_glob"
  | .projectFile => "project_model_file"
  | .isStrict => "strict_templates"
  | .scratchLead => "scratch_prefix"
  | .logLevel => "log_level"

/-- The name of the variable of a setting, in lower case. -/
def variableName (k : Setting) : String :=
  String.ofList (variableLead ++ k.name.toList)

/-- The name with a single underscore between the lead and the name of the setting. -/
def shortVariableName (k : Setting) : String :=
  String.ofList ("TMPLASSERT_".toList ++ Text.toUpper k.name.toList)

/-- The value that values under keys give a setting: the last one under its name that is no
object. -/
def last? (k : Setting) (entries : List (String × Json)) : Option Json :=
  (entries.filter fun e => spells k.name e.1 && !isObject e.2).getLast?.map Prod.snd

/-- The text of the last variable of a setting. -/
def variableText? (k : Setting) (environment : List (String × String)) : Option String :=
  (environment.filter fun v => spells k.variableName v.1).getLast?.map Prod.snd

/-- The value that a setting has: that of the environment, or else that of the file. -/
def value? (k : Setting) (file : List (String × Json)) (environment : List (String × String)) :
    Option Json :=
  ((k.variableText? environment).map variableValue).or (k.last? file)

/-- Settings have for a setting what is read from a value, or the default where there is none. -/
def Gives (k : Setting) (v? : Option Json) (s : Settings) : Prop :=
  let d : Settings := {}
  match k with
  | .pattern => valueOr textOf? d.pattern v? = some s.pattern
  | .projectFile => valueOr pathOf? d.projectFile v? = some s.projectFile
  | .isStrict => valueOr flagOf? d.isStrict v? = some s.isStrict
  | .scratchLead => valueOr textOf? d.scratchLead v? = some s.scratchLead
  | .logLevel => valueOr textOf? d.logLevel v? = some s.logLevel

/-- A key leads through the name of a setting and further. -/
def LeadsFurther (k : Setting) (key : String) : Prop :=
  ∃ field step rest, readKey key = .field field :: step :: rest ∧ lowered field = k.name

/-- A value is an object under the name of a setting, or its key leads further. -/
def Strays (k : Setting) (e : String × Json) : Prop :=
  k.LeadsFurther e.1 ∨ spells k.name e.1 = true ∧ isObject e.2 = true

/-! ### Names in any letter case -/

section Names

variable {k : Setting} {key : String}

theorem isKeyChar_toLower (c : Char) : isKeyChar c.toLower = isKeyChar c := by
  by_cases hupper : c.isUpper
  · have halpha : c.isAlpha = true := Bool.or_eq_true_iff.mpr (.inl hupper)
    have hsmall : c.toLower.isAlpha = true :=
      Bool.or_eq_true_iff.mpr (.inr (Text.isLower_toLower hupper))
    simp [isKeyChar, Char.isAlphanum, halpha, hsmall]
  · rw [Text.toLower_of_not_isUpper hupper]

theorem isAscii_of_mem_name (k : Setting) :
    ∀ c ∈ k.name.toList, Text.IsAscii c ∧ c ≠ 'k' := by
  cases k <;> simp [name, Text.IsAscii]

theorem isKeyChar_name (k : Setting) :
    k.name.toList ≠ [] ∧ ∀ c ∈ k.name.toList, isKeyChar c = true := by
  cases k <;> simp [name, isKeyChar]

theorem spells_iff : spells k.name key = true ↔ key.toList.map Char.toLower = k.name.toList :=
  beq_iff_eq

/-- A word of ASCII characters without a `k` is the lower case of the texts that spell it. -/
theorem lowered_eq_iff {word : String} (hword : ∀ d ∈ word.toList, Text.IsAscii d ∧ d ≠ 'k') :
    lowered key = word ↔ spells word key = true := by
  rw [spells, beq_iff_eq, ← Text.toLower_eq_iff hword, lowered, ← String.toList_inj,
    String.toList_ofList]

theorem lowered_eq_name_iff : lowered key = k.name ↔ spells k.name key = true :=
  lowered_eq_iff k.isAscii_of_mem_name

/-- The name of a setting is a key that leads no further. -/
theorem readKey_of_spells (h : spells k.name key = true) : readKey key = [.field key] := by
  rw [spells_iff] at h
  obtain ⟨hne, hkey⟩ := k.isKeyChar_name
  apply readKey_of_isKeyChar
  · intro hnil
    apply hne
    rw [← h, hnil, List.map_nil]
  · intro c hc
    rw [← isKeyChar_toLower]
    exact hkey _ (h ▸ List.mem_map_of_mem hc)

theorem not_strays_of_isKeyChar {e : String × Json} (hne : e.1.toList ≠ [])
    (hkey : ∀ c ∈ e.1.toList, isKeyChar c = true) (hobject : isObject e.2 = false) :
    ¬ k.Strays e := by
  rintro (⟨field, step, rest, hsteps, -⟩ | ⟨-, h⟩)
  · rw [readKey_of_isKeyChar hne hkey] at hsteps
    cases hsteps
  · rw [hobject] at h
    cases h

end Names

/-! ### One value

Three cases: the key is the name of the setting, or it leads through this name and further, or
it has to do with other fields. -/

section Step

variable {k : Setting} {key : String} {v target : Json}

theorem field?_put_of_spells (h : spells k.name key = true) :
    (put (readKey key) v (some target)).field? k.name =
      some (merged v (target.field? k.name)) := by
  rw [readKey_of_spells h, field?_put, if_pos (lowered_eq_name_iff.mpr h).symm]
  rfl

theorem field?_put_of_leadsFurther (h : k.LeadsFurther key) (v target : Json) :
    (∃ items, (put (readKey key) v (some target)).field? k.name = some (.list items)) ∨
      ∃ fields, (put (readKey key) v (some target)).field? k.name = some (.object fields) := by
  obtain ⟨field, step, rest, hkey, hname⟩ := h
  rw [hkey, field?_put, if_pos hname.symm]
  simpa using put_cons step rest v (target.field? k.name)

theorem field?_put_of_other (hname : spells k.name key = false) (h : ¬ k.LeadsFurther key) :
    (put (readKey key) v (some target)).field? k.name = target.field? k.name := by
  obtain ⟨field, rest, hkey, hfield⟩ := readKey_eq_cons key
  rw [hkey, field?_put, if_neg]
  intro heq
  cases rest with
  | nil => simp [← hfield rfl, lowered_eq_name_iff.mp heq.symm] at hname
  | cons step rest => exact h ⟨field, step, rest, hkey, heq.symm⟩

end Step

/-! ### All values -/

section Run

variable {k : Setting} {entries : List (String × Json)} {s : Settings}

theorem last?_concat (k : Setting) (entries : List (String × Json)) (e : String × Json) :
    k.last? (entries ++ [e]) =
      if spells k.name e.1 && !isObject e.2 then some e.2 else k.last? entries := by
  rw [last?, List.filter_append, List.filter_singleton]
  cases spells k.name e.1 && !isObject e.2 with
  | true => simp
  | false => simp [last?]

theorem last?_append (k : Setting) (file environment : List (String × Json)) :
    k.last? (file ++ environment) = (k.last? environment).or (k.last? file) := by
  rw [last?, List.filter_append, List.getLast?_append, Option.map_or]
  rfl

/-- Where no value strays, the field of a setting is its last value. -/
theorem field?_putAll_of_not_strays (h : ∀ e ∈ entries, ¬ k.Strays e) :
    (putAll entries (.object [])).field? k.name = k.last? entries := by
  induction entries using List.reverseRecOn with
  | nil => rfl
  | append_singleton entries e ih =>
      have he := h e (List.mem_append_right _ (List.mem_singleton_self _))
      have ih := ih fun e he => h e (List.mem_append_left _ he)
      rw [putAll_concat, last?_concat]
      cases hname : spells k.name e.1 with
      | false =>
          rw [field?_put_of_other hname fun hfurther => he (.inl hfurther), ih]
          rfl
      | true =>
          have hobject : isObject e.2 = false :=
            Bool.eq_false_iff.mpr fun hobject => he (.inr ⟨hname, hobject⟩)
          rw [field?_put_of_spells hname, merged_of_not_isObject hobject, hobject]
          rfl

/-- What is read from the field of a setting is read from its last value. A value that strays
leaves a list or an object, which is not read, or the field as it was. -/
theorem valueOr_of_putAll {α : Type} {read? : Json → Option α} {default x : α}
    (hread : ReadsScalars read?)
    (h : valueOr read? default ((putAll entries (.object [])).field? k.name) = some x) :
    valueOr read? default (k.last? entries) = some x := by
  -- From the last entry back: one under the name decides, and any other leaves what was there.
  induction entries using List.reverseRecOn with
  | nil => exact h
  | append_singleton entries e ih =>
      rw [putAll_concat] at h
      rw [last?_concat]
      cases hname : spells k.name e.1 with
      | true =>
          rw [field?_put_of_spells hname] at h
          cases hobject : isObject e.2 with
          | true => exact ih (valueOr_of_merged hread hobject h)
          | false =>
              rw [merged_of_not_isObject hobject] at h
              exact h
      | false =>
          by_cases hfurther : k.LeadsFurther e.1
          · rcases field?_put_of_leadsFurther hfurther e.2 (putAll entries (.object [])) with
              ⟨items, heq⟩ | ⟨fields, heq⟩
            · rw [heq, valueOr, hread.list] at h
              cases h
            · rw [heq, valueOr, hread.object] at h
              cases h
          · rw [field?_put_of_other hname hfurther] at h
            exact ih h

theorem gives_of_putAll (h : k.Gives ((putAll entries (.object [])).field? k.name) s) :
    k.Gives (k.last? entries) s := by
  cases k with
  | pattern => exact valueOr_of_putAll readsScalars_textOf? h
  | projectFile => exact valueOr_of_putAll readsScalars_pathOf? h
  | isStrict => exact valueOr_of_putAll readsScalars_flagOf? h
  | scratchLead => exact valueOr_of_putAll readsScalars_textOf? h
  | logLevel => exact valueOr_of_putAll readsScalars_textOf? h

end Run

/-! ### Variables -/

section Variables

variable {k : Setting} {name : String}

theorem isAscii_of_mem_variableName (k : Setting) :
    ∀ c ∈ k.variableName.toList, Text.IsAscii c ∧ c ≠ 'k' := by
  have hlead : ∀ c ∈ variableLead, Text.IsAscii c ∧ c ≠ 'k' := by
    change ∀ c ∈ "tmplassert__".toList, _
    simp [Text.IsAscii]
  intro c hc
  rw [variableName, String.toList_ofList, List.mem_append] at hc
  exact hc.elim (hlead c) (k.isAscii_of_mem_name c)

theorem spells_variableName_iff :
    spells k.variableName name = true ↔
      Text.toLower name.toList = variableLead ++ k.name.toList := by
  rw [spells, beq_iff_eq, ← Text.toLower_eq_iff k.isAscii_of_mem_variableName, variableName,
    String.toList_ofList]

theorem dotted_eq_self {key : List Char} (h : '.' ∉ dotted key) : dotted key = key := by
  fun_induction dotted key with
  | case1 rest ih => simp at h
  | case2 c rest hc ih => rw [ih fun hrest => h (List.mem_cons_of_mem _ hrest)]
  | case3 => rfl

/-- The key of a variable is the name of a setting just when this name stands behind the lead:
the key has no dot, so there were no two underscores, and it is in lower case. -/
theorem spells_dotted_iff {key : List Char}
    (h : Text.toLower name.toList = variableLead ++ key) :
    spells k.name (String.ofList (dotted key)) = true ↔ key = k.name.toList := by
  have hname : '.' ∉ k.name.toList ∧ dotted k.name.toList = k.name.toList ∧
      k.name.toList.map Char.toLower = k.name.toList := by
    cases k <;> simp [Setting.name, dotted]
  have hkey : key.map Char.toLower = key := by
    refine (List.map_congr_left fun c hc => ?_).trans (List.map_id key)
    exact Text.toLower_eq_self_of_mem (h ▸ List.mem_append_right variableLead hc)
  rw [spells_iff, String.toList_ofList]
  constructor
  · intro hdotted
    have hdot : '.' ∉ dotted key := by
      intro hmem
      exact hname.1 (hdotted ▸ List.mem_map_of_mem hmem)
    rw [← hdotted, dotted_eq_self hdot, hkey]
  · rintro rfl
    rw [hname.2.1, hname.2.2]

theorem isObject_variableValue (text : String) : isObject (variableValue text) = false := by
  rw [variableValue]
  split
  · rfl
  · rfl
  · split <;> rfl

/-- What a variable gives a setting: its value if it is the variable of the setting. -/
theorem map_filter_entryOfVariable? (k : Setting) (name text : String) :
    ((entryOfVariable? name text).filter fun e => spells k.name e.1 && !isObject e.2).map Prod.snd =
      if spells k.variableName name then some (variableValue text) else none := by
  rw [entryOfVariable?]
  cases hkey : Text.dropPrefix? variableLead (Text.toLower name.toList) with
  | none =>
      rw [if_neg]
      · rfl
      · rw [spells_variableName_iff]
        intro heq
        exact Text.dropPrefix?_eq_none_iff.mp hkey (heq ▸ List.prefix_append _ _)
  | some key =>
      have hname := Text.dropPrefix?_eq_some_iff.mp hkey
      have hspells : spells k.name (String.ofList (dotted key)) = spells k.variableName name := by
        rw [Bool.eq_iff_iff, spells_dotted_iff hname, spells_variableName_iff, hname,
          List.append_cancel_left_eq]
      rw [Option.map_some, Option.filter_some, hspells, isObject_variableValue, Bool.not_false,
        Bool.and_true]
      split <;> rfl

/-- The environment gives a setting the value of its last variable. -/
theorem last?_entriesOfEnvironment (k : Setting) (environment : List (String × String)) :
    k.last? (entriesOfEnvironment environment) =
      (k.variableText? environment).map variableValue := by
  rw [last?, variableText?, entriesOfEnvironment, List.filter_filterMap, ← List.getLast?_map,
    List.map_filterMap, Option.map_map, ← List.getLast?_map, ← List.filterMap_eq_map,
    List.filterMap_filter]
  simp only [map_filter_entryOfVariable?]
  rfl

theorem last?_layers (k : Setting) (file : List (String × Json))
    (environment : List (String × String)) :
    k.last? (file ++ entriesOfEnvironment environment) = k.value? file environment := by
  rw [last?_append, last?_entriesOfEnvironment]
  rfl

/-- The variable with the short name does not count. -/
theorem entryOfVariable?_shortVariableName (k : Setting) (text : String) :
    entryOfVariable? k.shortVariableName text = none := by
  cases k <;> rfl

end Variables

end Setting

/-! ### Loaded settings -/

namespace Settings

section Loaded

variable {fs : Files} {path : Option String} {environment : List (String × String)}
  {file : List (String × Json)} {s : Settings}

/-- The delimiters in layers, or the default. -/
def delimitersIn? (fields : List (String × Json)) : Option (List Delimiter) :=
  setting? fields "comment_delimiters" delimitersOf? ({} : Settings).delimiters

theorem ofFields?_eq_some_iff {fields : List (String × Json)} :
    ofFields? fields = some s ↔
      (∀ k : Setting, k.Gives (Fields.find? k.name fields) s) ∧
        delimitersIn? fields = some s.delimiters := by
  simp only [ofFields?, delimitersIn?, setting?_eq, Option.bind_eq_bind, Option.pure_def,
    Option.bind_eq_some_iff, Option.some.injEq]
  constructor
  · rintro ⟨pattern, hpattern, projectFile, hprojectFile, delimiters, hdelimiters, isStrict,
      hisStrict, scratchLead, hscratchLead, logLevel, hlogLevel, rfl⟩
    refine ⟨?_, hdelimiters⟩
    intro k
    cases k with
    | pattern => exact hpattern
    | projectFile => exact hprojectFile
    | isStrict => exact hisStrict
    | scratchLead => exact hscratchLead
    | logLevel => exact hlogLevel
  · rintro ⟨hgives, hdelimiters⟩
    exact ⟨_, hgives .pattern, _, hgives .projectFile, _, hdelimiters, _, hgives .isStrict, _,
      hgives .scratchLead, _, hgives .logLevel, rfl⟩

theorem layered_eq (file environment : List (String × Json)) :
    layered file environment = fieldsOf (putAll (file ++ environment) (.object [])) := by
  rw [layered, putAll_append]

theorem ofLayers_eq_ok_iff {environment : List (String × Json)} :
    ofLayers file environment = .ok s ↔
      (∀ k : Setting, k.Gives ((putAll (file ++ environment) (.object [])).field? k.name) s) ∧
        delimitersIn? (layered file environment) = some s.delimiters ∧ s.checked = .ok s := by
  simp only [← find?_fieldsOf, ← layered_eq]
  rw [← and_assoc, ← ofFields?_eq_some_iff, ofLayers]
  cases ofFields? (layered file environment) with
  | none => simp
  | some t =>
      rw [Option.some.injEq]
      constructor
      · intro h
        obtain rfl := eq_of_checked h
        exact ⟨rfl, h⟩
      · rintro ⟨rfl, h⟩
        exact h

variable [FormatReaders]

/-- The values in the file that a path leads to, if one is named. -/
def valuesOfFile (fs : Files) : Option String → Except SettingsFault (List (String × Json))
  | none => .ok []
  | some path => entriesOfFile fs path

/-- A file that is found and read holds the fields that its format reads. -/
theorem valuesOfFile_of_fields {fs : Files} {path : String} {file : FilePath} {format : Format}
    {content : FileContent} {fields : List (String × Json)}
    (hfile : fileOf? fs path = some (file, format)) (hread : fs.read file = .ok content)
    (hfields : format.fields? (textIn content) = some fields) :
    valuesOfFile fs (some path) = .ok fields := by
  rw [valuesOfFile, entriesOfFile, hfile]
  simp only [hread, hfields]

theorem value_load (fs : Files) (path : Option String) (environment : List (String × String)) :
    (load fs path environment).value = valuesOfFile fs path >>= fun file =>
      ofLayers file (entriesOfEnvironment environment) := by
  cases path <;> rfl

/-- Loaded settings have the value of the environment, the value of the file or the default,
whatever else stands in the two. -/
theorem gives_of_load (h : (load fs path environment).value = .ok s) :
    ∃ file, valuesOfFile fs path = .ok file ∧
      ∀ k : Setting, k.Gives (k.value? file environment) s := by
  rw [value_load, bind_eq_ok_iff] at h
  obtain ⟨file, hfile, h⟩ := h
  obtain ⟨hgives, -⟩ := ofLayers_eq_ok_iff.mp h
  refine ⟨file, hfile, ?_⟩
  intro k
  rw [← k.last?_layers]
  exact Setting.gives_of_putAll (hgives k)

/-- Where no value strays, settings are loaded whenever these values can be read and pass the
check. -/
theorem load_eq_ok_iff (hfile : valuesOfFile fs path = .ok file)
    (hstrays : ∀ k : Setting, ∀ e ∈ file ++ entriesOfEnvironment environment, ¬ k.Strays e) :
    (load fs path environment).value = .ok s ↔
      (∀ k : Setting, k.Gives (k.value? file environment) s) ∧
        delimitersIn? (layered file (entriesOfEnvironment environment)) = some s.delimiters ∧
        s.checked = .ok s := by
  rw [value_load, hfile]
  change ofLayers file (entriesOfEnvironment environment) = .ok s ↔ _
  rw [ofLayers_eq_ok_iff]
  simp only [Setting.field?_putAll_of_not_strays (hstrays _), Setting.last?_layers]

/-- A variable with a short name changes nothing. -/
theorem load_without_shortVariable (fs : Files) (path : Option String) (k : Setting)
    (text : String) (front back : List (String × String)) :
    load fs path (front ++ (k.shortVariableName, text) :: back) = load fs path (front ++ back) := by
  have hnone : entriesOfEnvironment (front ++ (k.shortVariableName, text) :: back) =
      entriesOfEnvironment (front ++ back) := by
    rw [entriesOfEnvironment, entriesOfEnvironment, List.filterMap_append, List.filterMap_append,
      List.filterMap_cons, k.entryOfVariable?_shortVariableName]
  simp only [load, hnone]

/-- Where loaded settings come from. Each setting has the value of its last variable, else the
last value of the file, else its default. Where no value strays, that is all: settings are loaded
when these values and the delimiters can be read and pass the check. A variable with a single
underscore behind the lead is as good as not set. -/
theorem load_of_layers (fs : Files) (path : Option String) (environment : List (String × String)) :
    (∀ s, (load fs path environment).value = .ok s → ∃ file, valuesOfFile fs path = .ok file ∧
      ∀ k : Setting, k.Gives (k.value? file environment) s) ∧
    (∀ file, valuesOfFile fs path = .ok file →
      (∀ k : Setting, ∀ e ∈ file ++ entriesOfEnvironment environment, ¬ k.Strays e) →
      ∀ s, (load fs path environment).value = .ok s ↔
        (∀ k : Setting, k.Gives (k.value? file environment) s) ∧
        delimitersIn? (layered file (entriesOfEnvironment environment)) = some s.delimiters ∧
        s.checked = .ok s) ∧
    ∀ (k : Setting) (text : String) (front back : List (String × String)),
      environment = front ++ (k.shortVariableName, text) :: back →
        load fs path environment = load fs path (front ++ back) := by
  refine ⟨?_, ?_, ?_⟩
  · intro s h
    exact gives_of_load h
  · intro file hfile hstrays s
    exact load_eq_ok_iff hfile hstrays
  · rintro k text front back rfl
    exact load_without_shortVariable fs path k text front back

end Loaded

/-- A file and an environment. The variable of a setting overrides the field of the file, both in
any letter case; the variable with the short name does not count. -/
theorem load_of_layers_strict :
    let fs : Files :=
      { tree := .dir [("harness.yaml", .file (.text "strict_templates: no\nLog_Level: info\n"))] }
    let environment :=
      [("tmplassert__Strict_Templates", "true"), ("TMPLASSERT_LOG_LEVEL", "debug")]
    (load fs (some "harness.yaml") environment).value =
        .ok { isStrict := true, logLevel := "info" } ∧
      load fs (some "harness.yaml") environment =
        load fs (some "harness.yaml") [("tmplassert__Strict_Templates", "true")] := by
  intro fs environment
  obtain ⟨-, hloads, hshort⟩ := load_of_layers fs (some "harness.yaml") environment
  have hfile : valuesOfFile fs (some "harness.yaml") =
      .ok [("Log_Level", .text "info"), ("strict_templates", .text "no")] := by
    have hformat : fileOf? fs "harness.yaml" = some (.named "harness.yaml", .yaml) := by
      decide +kernel
    exact valuesOfFile_of_fields hformat rfl rfl
  have hentries : entriesOfEnvironment environment = [("strict_templates", .bool true)] := rfl
  refine ⟨(hloads _ hfile ?_ _).mpr ⟨?_, ?_, ?_⟩, ?_⟩
  · intro k
    rw [hentries]
    simp only [List.cons_append, List.nil_append, List.forall_mem_cons]
    refine ⟨?_, ?_, ?_, ?_⟩
    · exact Setting.not_strays_of_isKeyChar (by simp) (by simp [isKeyChar]) rfl
    · exact Setting.not_strays_of_isKeyChar (by simp) (by simp [isKeyChar]) rfl
    · exact Setting.not_strays_of_isKeyChar (by simp) (by simp [isKeyChar]) rfl
    · simp
  · intro k
    cases k <;> rfl
  · rfl
  · rfl
  · exact hshort .logLevel "debug" [_] [] rfl

/-- The variable with the short name of a setting is set, and the settings that are loaded are
the default ones. -/
theorem short_variable_ignored :
    Setting.isStrict.shortVariableName = "TMPLASSERT_STRICT_TEMPLATES" ∧
      ∃ s, (load default none [("TMPLASSERT_STRICT_TEMPLATES", "true")]).value = .ok s ∧
        s.isStrict = false ∧ ¬ Setting.isStrict.Gives (some (variableValue "true")) s := by
  refine ⟨rfl, {}, rfl, rfl, ?_⟩
  intro h
  cases h

end Settings

end Galley
