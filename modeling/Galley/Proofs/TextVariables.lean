import Galley.Proofs.PositionalForms
import Galley.Proofs.SettingLayers

/-!
Texts of settings in an environment.

The text of a variable is read as a flag or a number if it can be, before it is known what setting
it is for, and a setting that is a text turns the scalar back into one
(`Settings.textOf?_variableValue`). The texts that this leaves as they are, are those that are no
scalar, and the forms that scalars are turned back into (`Settings.takenAs_eq_self_iff`). A number
that is written in any other way is changed (`Settings.variable_kept_iff`), as is a flag in other
letters: `007` becomes `7` and `1.50` becomes `1.5`. The file keeps the same texts.
-/

namespace Galley

/-- The settings that are a text or a path, whatever it says. -/
inductive TextSetting where
  | pattern
  | projectFile
  | scratchLead
  deriving DecidableEq

namespace TextSetting

def setting : TextSetting → Setting
  | .pattern => .pattern
  | .projectFile => .projectFile
  | .scratchLead => .scratchLead

def variableName : TextSetting → String
  | .pattern => "TMPLASSERT__MODEL_GLOB"
  | .projectFile => "TMPLASSERT__PROJECT_MODEL_FILE"
  | .scratchLead => "TMPLASSERT__SCRATCH_PREFIX"

/-- The text of a setting, if it has one. -/
def text? (k : TextSetting) (s : Settings) : Option String :=
  match k with
  | .pattern => some s.pattern
  | .projectFile =>
    match s.projectFile with
    | some (.named text) => some text
    | _ => none
  | .scratchLead => some s.scratchLead

end TextSetting

namespace Settings

open Number

/-- The text that a number is turned back into. -/
def plainText : Number → String
  | .whole n => renderWhole n
  | .binary x => String.ofList x.positional

/-- The text that a setting has when its variable is read as a scalar. -/
def takenAs (text : String) : String :=
  if spells "true" text then "true"
  else if spells "false" text then "false"
  else ((readNumber? text.toList).map plainText).getD text

/-- The texts that are written as they are taken: what is neither a flag nor a number, and the
flags and the numbers in the form that they are turned back into. -/
inductive AsWritten : String → Prop where
  | plain {text : String} : spells "true" text = false → spells "false" text = false →
      ¬ IsNumeral text.toList → AsWritten text
  | yes : AsWritten "true"
  | no : AsWritten "false"
  | whole {n : Int} : fitsSigned 64 n = true → AsWritten (renderWhole n)
  | binary {x : Binary64} : readNumber? x.positional = some (.binary x) →
      AsWritten (String.ofList x.positional)

section Texts

variable {text : String}

/-- A variable is read as a flag, a number or a text. -/
theorem variableValue_eq (text : String) :
    variableValue text =
      if spells "true" text then .bool true
      else if spells "false" text then .bool false
      else ((readNumber? text.toList).map .number).getD (.text text) := by
  have hyes : lowered text = "true" ↔ spells "true" text = true :=
    Setting.lowered_eq_iff (by simp [Text.IsAscii])
  have hno : lowered text = "false" ↔ spells "false" text = true :=
    Setting.lowered_eq_iff (by simp [Text.IsAscii])
  rw [variableValue]
  split
  · rename_i heq
    rw [if_pos (hyes.mp heq)]
  · rename_i heq
    rw [if_neg, if_pos (hno.mp heq)]
    rw [← hyes, heq]
    decide
  · rename_i hnyes hnno
    rw [if_neg fun h => hnyes (hyes.mpr h), if_neg fun h => hnno (hno.mpr h)]
    cases readNumber? text.toList <;> rfl

theorem readNumber?_eq_whole_iff {n : Int} {s : List Char} :
    readNumber? s = some (.whole n) ↔ readWhole? s = some n ∧ fitsSigned 64 n = true := by
  rw [← Option.filter_eq_some_iff]
  fun_cases readNumber? s with
  | case1 m h => simp [h]
  | case2 h => simp [h]

/-- A text is taken for a scalar, and the scalar for a text. -/
theorem textOf?_variableValue (text : String) :
    textOf? (variableValue text) = some (takenAs text) := by
  rw [variableValue_eq, takenAs]
  split
  · rfl
  · split
    · rfl
    · cases hread : readNumber? text.toList with
      | none => rfl
      | some n =>
          cases n with
          | whole n =>
              change some (if fitsSigned 64 n = true then _ else _) = _
              rw [if_pos (readNumber?_eq_whole_iff.mp hread).2]
              rfl
          | binary x => rfl

/-- A numeral is no flag, as it does not start with such a letter. -/
theorem not_spells_of_isNumeral (h : IsNumeral text.toList) :
    spells "true" text = false ∧ spells "false" text = false := by
  have hletter {c : Char} (hc : c ∈ text.toList.head?) : c.toLower ≠ 't' ∧ c.toLower ≠ 'f' := by
    rcases h.head c hc with rfl | rfl | hdigit | rfl | hi | hn
    · decide
    · decide
    · -- Digits come before all letters, so a digit is its own lower case.
      have hupper : ¬ c.isUpper := by
        intro hupper
        obtain ⟨⟨hlow, -⟩, -⟩ := Text.toNat_toLower_of_isUpper hupper
        have hlast : c.toNat ≤ 0x39 :=
          UInt32.le_iff_toNat_le.mp (of_decide_eq_true (Bool.and_eq_true_iff.mp hdigit).2)
        exact absurd (hlow.trans hlast) (by decide)
      rw [Text.toLower_of_not_isUpper hupper]
      constructor <;> rintro rfl <;> cases hdigit
    · decide
    · rw [hi]
      decide
    · rw [hn]
      decide
  have hword {word : String} {d : Char} {rest : List Char} (hchars : word.toList = d :: rest)
      (hd : d = 't' ∨ d = 'f') : spells word text = false := by
    rw [spells, beq_eq_false_iff_ne, hchars]
    intro heq
    obtain ⟨c, back, htext, hc, -⟩ := List.map_eq_cons_iff.mp heq
    have hne := hletter (htext ▸ rfl : c ∈ text.toList.head?)
    rcases hd with rfl | rfl
    · exact hne.1 hc
    · exact hne.2 hc
  exact ⟨hword rfl (.inl rfl), hword rfl (.inr rfl)⟩

theorem takenAs_of_readNumber? {n : Number} (h : readNumber? text.toList = some n) :
    takenAs text = plainText n := by
  have hnumeral : IsNumeral text.toList := by
    rw [← isSome_readNumber?_iff, h]
    rfl
  obtain ⟨hyes, hno⟩ := not_spells_of_isNumeral hnumeral
  rw [takenAs, hyes, hno, h]
  rfl

/-- A text is taken as it is written just when it is one of the forms that scalars are turned back
into, or no scalar at all. -/
theorem takenAs_eq_self_iff : takenAs text = text ↔ AsWritten text := by
  constructor
  · intro h
    rw [takenAs] at h
    split at h
    · exact h ▸ .yes
    · rename_i hyes
      split at h
      · exact h ▸ .no
      · rename_i hno
        cases hread : readNumber? text.toList with
        | none =>
            refine .plain (Bool.eq_false_iff.mpr hyes) (Bool.eq_false_iff.mpr hno) ?_
            rw [← isSome_readNumber?_iff, hread]
            exact Bool.false_ne_true
        | some n =>
            rw [hread] at h
            obtain rfl : plainText n = text := h
            cases n with
            | whole n => exact .whole (readNumber?_eq_whole_iff.mp hread).2
            | binary x =>
                rw [plainText, String.toList_ofList] at hread
                exact .binary hread
  · intro h
    cases h with
    | plain hyes hno hnumeral =>
        rw [← isSome_readNumber?_iff, Option.not_isSome_iff_eq_none] at hnumeral
        rw [takenAs, hyes, hno, hnumeral]
        rfl
    | yes => rfl
    | no => rfl
    | @whole n hfits =>
        have hread := readWhole?_renderWhole n
        exact takenAs_of_readNumber? (readNumber?_eq_whole_iff.mpr ⟨hread, hfits⟩)
    | binary hread => exact takenAs_of_readNumber? (by rw [String.toList_ofList, hread])

example : takenAs "+1.50e3" = "1500" := by
  decide +kernel

/-- A number that is taken as it is written has no plus sign, no exponent, and no zero that could
be left out. -/
theorem isPositional_of_asWritten (h : AsWritten text) (hnumeral : IsNumeral text.toList) :
    IsPositional text.toList := by
  cases h with
  | plain _ _ hplain => exact absurd hnumeral hplain
  | yes => exact absurd (not_spells_of_isNumeral hnumeral).1 (by decide)
  | no => exact absurd (not_spells_of_isNumeral hnumeral).2 (by decide)
  | whole hfits => exact isPositional_renderWhole _
  | binary hread =>
      rw [String.toList_ofList]
      exact Binary64.isPositional_positional _

/-! ### No blank texts -/

theorem not_isBlank_of_isDigit {c : Char} (h : c.isDigit = true) : Text.isBlank c = false := by
  have hrange : 48 ≤ c.toNat ∧ c.toNat ≤ 57 := Char.isDigit_iff_toNat.mp h
  simp only [Text.isBlank, Bool.or_eq_false_iff, Bool.and_eq_false_iff, decide_eq_false_iff_not,
    beq_eq_false_iff_ne]
  omega

theorem exists_isDigit_of_isShort {s : List Char} (h : IsShort s) : ∃ c ∈ s, c.isDigit = true := by
  have hfirst {digits : List Char} (h : IsDigits digits) : ∃ c ∈ digits, c.isDigit = true := by
    obtain ⟨c, rest, rfl⟩ := List.exists_cons_of_ne_nil h.1
    exact ⟨c, List.mem_cons_self, h.head c rfl⟩
  cases h with
  | whole hplain => exact hfirst hplain.digits
  | pointed hplain _ _ =>
      obtain ⟨c, hc, hdigit⟩ := hfirst hplain.digits
      exact ⟨c, List.mem_append_left _ hc, hdigit⟩

theorem exists_not_blank_of_isPositional {s : List Char} (h : IsPositional s) :
    ∃ c ∈ s, Text.isBlank c = false := by
  cases h with
  | positive h =>
      obtain ⟨c, hc, hdigit⟩ := exists_isDigit_of_isShort h
      exact ⟨c, hc, not_isBlank_of_isDigit hdigit⟩
  | negative h => exact ⟨'-', List.mem_cons_self, by decide⟩
  | infinite => exact ⟨'i', by decide, by decide⟩
  | negativeInfinite => exact ⟨'-', by decide, by decide⟩
  | nan => exact ⟨'N', by decide, by decide⟩

theorem isPositional_plainText (n : Number) : IsPositional (plainText n).toList := by
  cases n with
  | whole n => exact isPositional_renderWhole n
  | binary x =>
      rw [plainText, String.toList_ofList]
      exact Binary64.isPositional_positional x

/-- Only a blank text is taken for one. -/
theorem isBlankText_takenAs (h : ¬ AsWritten text) : isBlankText (takenAs text) = false := by
  have hself : takenAs text ≠ text := mt takenAs_eq_self_iff.mp h
  rw [takenAs] at hself ⊢
  split
  · decide
  · split
    · decide
    · cases hread : readNumber? text.toList with
      | none => simp_all
      | some n =>
          rw [isBlankText, Option.map_some, Option.getD_some, List.all_eq_false]
          obtain ⟨c, hc, hblank⟩ := exists_not_blank_of_isPositional (isPositional_plainText n)
          exact ⟨c, hc, by simp [hblank]⟩

end Texts

/-! ### Loaded texts -/

section Loaded

variable {k : TextSetting} {fs : Files} {path : Option String}
  {environment : List (String × String)} {text : String} {s : Settings}

theorem pathOf?_of_textOf? {v : Json} (h : textOf? v = some text) :
    pathOf? v = some (some (.named text)) := by
  rw [pathOf?, h]
  · rfl
  · rintro rfl
    cases h

theorem text?_of_gives {v : Json} (hgives : k.setting.Gives (some v) s)
    (hv : textOf? v = some text) : k.text? s = some text := by
  cases k with
  | pattern =>
      rw [← hv]
      exact hgives.symm
  | projectFile =>
      have hpath : pathOf? v = some s.projectFile := hgives
      rw [pathOf?_of_textOf? hv] at hpath
      rw [TextSetting.text?, ← Option.some.inj hpath]
  | scratchLead =>
      rw [← hv]
      exact hgives.symm

/-- The default settings but for a text. -/
def ofText (k : TextSetting) (text : String) : Settings :=
  match k with
  | .pattern => { pattern := text }
  | .projectFile => { projectFile := some (.named text) }
  | .scratchLead => { scratchLead := text }

theorem entriesOfEnvironment_variableName (k : TextSetting) (text : String) :
    entriesOfEnvironment [(k.variableName, text)] = [(k.setting.name, variableValue text)] := by
  have hname : Text.dropPrefix? variableLead (Text.toLower k.variableName.toList) =
      some k.setting.name.toList := by
    cases k <;> rfl
  have hkey : dotted k.setting.name.toList = k.setting.name.toList := by
    cases k <;> rfl
  rw [entriesOfEnvironment, List.filterMap_cons, entryOfVariable?, hname, Option.map_some, hkey,
    String.ofList_toList]
  rfl

theorem variableText?_variableName (k : TextSetting) (k' : Setting) (text : String) :
    k'.variableText? [(k.variableName, text)] = if k' = k.setting then some text else none := by
  have hspells : spells k'.variableName k.variableName = decide (k' = k.setting) := by
    cases k <;> cases k' <;> rfl
  rw [Setting.variableText?, List.filter_singleton, hspells]
  by_cases h : k' = k.setting
  · simp [h]
  · simp [h]

theorem delimitersIn?_name (k : TextSetting) (v : Json) :
    delimitersIn? (layered [] [(k.setting.name, v)]) = some [.docBlock] := by
  have hname : "comment_delimiters" ≠ lowered k.setting.name := by
    cases k <;> decide
  obtain ⟨hne, hkey⟩ := k.setting.isKeyChar_name
  have hput : putAll [(k.setting.name, v)] (.object []) =
      put (readKey k.setting.name) v (some (.object [])) := rfl
  rw [delimitersIn?, setting?_eq, layered_eq, List.nil_append, find?_fieldsOf, hput,
    readKey_of_isKeyChar hne hkey, field?_put, if_neg hname]
  rfl

theorem gives_ofText (k : TextSetting) {v : Json} (h : textOf? v = some text) :
    k.setting.Gives (some v) (ofText k text) := by
  cases k with
  | pattern => exact h
  | projectFile => exact pathOf?_of_textOf? h
  | scratchLead => exact h

theorem checked_ofText (k : TextSetting) (h : isBlankText text = false) :
    (ofText k text).checked = .ok (ofText k text) := by
  have hdefault : isBlankText Glob.defaultText = false := by decide
  have hlevel : (LogLevel.ofName? "warn").isNone = false := by decide
  cases k <;> simp [checked, ofText, h, hdefault, hlevel]

variable [FormatReaders]

theorem text?_of_load (h : (load fs path environment).value = .ok s)
    (htext : k.setting.variableText? environment = some text) :
    k.text? s = some (takenAs text) := by
  obtain ⟨file, -, hgives⟩ := gives_of_load h
  have hvalue : k.setting.value? file environment = some (variableValue text) := by
    rw [Setting.value?, htext]
    rfl
  have hsetting := hgives k.setting
  rw [hvalue] at hsetting
  exact text?_of_gives hsetting (textOf?_variableValue text)

theorem text?_of_file {file : List (String × Json)} (h : (load fs path environment).value = .ok s)
    (hfile : valuesOfFile fs path = .ok file)
    (hvariable : k.setting.variableText? environment = none)
    (htext : k.setting.last? file = some (.text text)) : k.text? s = some text := by
  obtain ⟨file', hfile', hgives⟩ := gives_of_load h
  obtain rfl : file' = file := by
    rw [hfile] at hfile'
    exact (Except.ok.inj hfile').symm
  have hvalue : k.setting.value? file' environment = some (.text text) := by
    rw [Setting.value?, hvariable, htext]
    rfl
  have hsetting := hgives k.setting
  rw [hvalue] at hsetting
  exact text?_of_gives hsetting rfl

/-- The variable of a setting alone changes this setting alone. -/
theorem load_variableName (k : TextSetting) (text : String)
    (hblank : isBlankText (takenAs text) = false) :
    (load default none [(k.variableName, text)]).value = .ok (ofText k (takenAs text)) := by
  have hfile : valuesOfFile default none = .ok [] := rfl
  rw [load_eq_ok_iff hfile]
  · rw [entriesOfEnvironment_variableName, delimitersIn?_name]
    refine ⟨?_, ?_, checked_ofText k hblank⟩
    · intro k'
      rw [Setting.value?, variableText?_variableName]
      by_cases hk : k' = k.setting
      · rw [if_pos hk, hk]
        exact gives_ofText k (textOf?_variableValue text)
      · rw [if_neg hk]
        cases k <;> cases k' <;> first | rfl | exact absurd rfl hk
    · cases k <;> rfl
  · intro k' e he
    rw [entriesOfEnvironment_variableName, List.nil_append, List.mem_singleton] at he
    rw [he]
    obtain ⟨hne, hkey⟩ := k.setting.isKeyChar_name
    exact Setting.not_strays_of_isKeyChar hne hkey (Setting.isObject_variableValue text)

/-- What loaded settings have where a variable gives them a text. The text is read as a flag or a
number if it can be, and is turned back into a text, so that it is kept just when it is in the form
that this leads to. A number in this form has no plus sign, no exponent, and no zero that could be
left out. A text in the file is kept as it is. -/
theorem variable_kept_iff (k : TextSetting) (text : String) :
    (∀ fs path environment s, k.setting.variableText? environment = some text →
      (load fs path environment).value = .ok s → k.text? s = some (takenAs text)) ∧
    ((∀ fs path environment s, k.setting.variableText? environment = some text →
      (load fs path environment).value = .ok s → k.text? s = some text) ↔ AsWritten text) ∧
    (AsWritten text → IsNumeral text.toList → IsPositional text.toList) ∧
    ∀ fs path environment file s, valuesOfFile fs path = .ok file →
      k.setting.variableText? environment = none → k.setting.last? file = some (.text text) →
      (load fs path environment).value = .ok s → k.text? s = some text := by
  refine ⟨?_, ⟨?_, ?_⟩, isPositional_of_asWritten, ?_⟩
  · intro fs path environment s htext hload
    exact text?_of_load hload htext
  · intro hkept
    by_contra hwritten
    have hload := load_variableName k text (isBlankText_takenAs hwritten)
    have hvariable : k.setting.variableText? [(k.variableName, text)] = some text := by
      rw [variableText?_variableName, if_pos rfl]
    have hself : takenAs text = text := by
      rw [← Option.some.injEq, ← text?_of_load hload hvariable]
      exact hkept _ _ _ _ hvariable hload
    exact hwritten (takenAs_eq_self_iff.mp hself)
  · intro hwritten fs path environment s htext hload
    rw [text?_of_load hload htext, takenAs_eq_self_iff.mpr hwritten]
  · intro fs path environment file s hfile hvariable htext hload
    exact text?_of_file hload hfile hvariable htext

end Loaded

/-- A text in a file, the same text in a variable, and a text in a variable that is no number. -/
theorem variable_kept_iff_leading_zeros :
    let fs : Files :=
      { tree := .dir [("harness.yaml", .file (.text "scratch_prefix: '007'\n"))] }
    (∃ s, (load fs (some "harness.yaml") []).value = .ok s ∧ s.scratchLead = "007") ∧
      (∃ s, (load default none [("TMPLASSERT__SCRATCH_PREFIX", "007")]).value = .ok s ∧
        s.scratchLead = "7") ∧
      (∃ s, (load default none [("TMPLASSERT__SCRATCH_PREFIX", "run-007")]).value = .ok s ∧
        s.scratchLead = "run-007") ∧
      IsPositional "7".toList := by
  intro fs
  obtain ⟨htaken, -, -, hfromFile⟩ := variable_kept_iff .scratchLead "007"
  obtain ⟨-, hkept, -, -⟩ := variable_kept_iff .scratchLead "run-007"
  obtain ⟨-, -, hpositional, -⟩ := variable_kept_iff .scratchLead "7"
  have hdigits : takenAs "007" = "7" := by
    decide +kernel
  have hplain : takenAs "run-007" = "run-007" := by
    decide +kernel
  have hdigit : takenAs "7" = "7" := by
    decide +kernel
  refine ⟨?_, ?_, ?_, ?_⟩
  · have hvalues : valuesOfFile fs (some "harness.yaml") =
        .ok [("scratch_prefix", .text "007")] := by
      have hformat : fileOf? fs "harness.yaml" = some (.named "harness.yaml", .yaml) := by
        decide +kernel
      exact valuesOfFile_of_fields hformat rfl rfl
    have hload : (load fs (some "harness.yaml") []).value = .ok { scratchLead := "007" } := by
      refine (load_eq_ok_iff hvalues ?_).mpr ⟨?_, rfl, rfl⟩
      · intro k e he
        obtain rfl := List.mem_singleton.mp he
        exact Setting.not_strays_of_isKeyChar (by simp) (by simp [isKeyChar]) rfl
      · intro k
        cases k <;> rfl
    exact ⟨_, hload, Option.some.inj (hfromFile _ _ _ _ _ hvalues rfl rfl hload)⟩
  · have hload := load_variableName .scratchLead "007" (by rw [hdigits]; decide)
    have htext := htaken _ _ _ _ rfl hload
    rw [hdigits] at htext
    exact ⟨_, hload, Option.some.inj htext⟩
  · have hload := load_variableName .scratchLead "run-007" (by rw [hplain]; decide)
    exact ⟨_, hload, Option.some.inj (hkept.mpr (takenAs_eq_self_iff.mp hplain) _ _ _ _ rfl hload)⟩
  · exact hpositional (takenAs_eq_self_iff.mp hdigit)
      (isSome_readNumber?_iff.mp (by decide +kernel))

/-- A variable of digits, and the settings have other digits. -/
theorem leading_zeros_dropped :
    ∃ s, (load default none [("TMPLASSERT__SCRATCH_PREFIX", "007")]).value = .ok s ∧
      Setting.scratchLead.variableText? [("TMPLASSERT__SCRATCH_PREFIX", "007")] = some "007" ∧
      s.scratchLead = "7" ∧ s.scratchLead ≠ "007" := by
  have htaken : takenAs "007" = "7" := by
    decide +kernel
  have hload := load_variableName .scratchLead "007" (by rw [htaken]; decide)
  rw [htaken] at hload
  exact ⟨_, hload, rfl, rfl, by decide⟩

end Settings

end Galley
