import Galley.Proofs.SessionCalls

/-!
Which settings can be used.

Checked settings name a pattern and delimiters, but the check does not look into them. A
session can be made with them when both markers of every delimiter are there
(`Session.ofSettings_succeeds_iff`), and otherwise the first other delimiter is refused. On
this session a search is refused for its pattern when the pattern cannot be read
(`Session.refusal?_badPattern_iff`), which it can if it has no brackets, braces and
backslashes (`Glob.isSome_ofText?_of_plain`). So checked settings are not always usable:
`Session.checked_settings_usable_iff` says which of them are.
-/

namespace Galley

/-! ### Delimiters -/

/-- Both markers of a delimiter are there. -/
def Delimiter.Marked (d : Delimiter) : Prop :=
  d.opening ≠ "" ∧ d.closing ≠ ""

instance (d : Delimiter) : Decidable d.Marked :=
  inferInstanceAs (Decidable (_ ∧ _))

namespace Comment

variable {d : Delimiter}

/-- The kind of comment of a delimiter, or the delimiter itself when a marker is empty. -/
def ofDelimiter (d : Delimiter) : Except Delimiter Comment :=
  match ofDelimiter? d with
  | some c => .ok c
  | none => .error d

theorem ofDelimiter?_eq_none_iff : ofDelimiter? d = none ↔ ¬ d.Marked := by
  simp [ofDelimiter?, Delimiter.Marked]

theorem ofDelimiter_succeeds_iff : (∃ c, ofDelimiter d = .ok c) ↔ d.Marked := by
  rw [← not_iff_not, ← ofDelimiter?_eq_none_iff, ofDelimiter]
  cases ofDelimiter? d <;> simp

theorem ofDelimiter_eq_error_iff {e : Delimiter} :
    ofDelimiter d = .error e ↔ ¬ d.Marked ∧ e = d := by
  rw [← ofDelimiter?_eq_none_iff, ofDelimiter]
  cases ofDelimiter? d <;> simp [eq_comm]

end Comment

/-- The first delimiter of a list that lacks a marker. -/
def Delimiter.FirstUnmarked (ds : List Delimiter) (d : Delimiter) : Prop :=
  ∃ front back, ds = front ++ d :: back ∧ (∀ d' ∈ front, d'.Marked) ∧ ¬ d.Marked

namespace Normalizer

variable {ds : List Delimiter}

theorem ofDelimiters_eq_bind (ds : List Delimiter) :
    ofDelimiters ds = ds.mapM Comment.ofDelimiter >>= fun comments => .ok { comments } := rfl

/-- A normalizer is made of delimiters with markers. -/
theorem ofDelimiters_succeeds_iff :
    (∃ n, ofDelimiters ds = .ok n) ↔ ∀ d ∈ ds, d.Marked := by
  simp only [← Comment.ofDelimiter_succeeds_iff, ← mapM_succeeds_iff, ofDelimiters_eq_bind,
    bind_eq_ok_iff]
  constructor
  · rintro ⟨n, comments, hcomments, -⟩
    exact ⟨comments, hcomments⟩
  · rintro ⟨comments, hcomments⟩
    exact ⟨_, comments, hcomments, rfl⟩

/-- Otherwise the first delimiter that lacks a marker is told. -/
theorem ofDelimiters_eq_error_iff {d : Delimiter} :
    ofDelimiters ds = .error d ↔ d.FirstUnmarked ds := by
  rw [ofDelimiters_eq_bind, bind_eq_error_iff, mapM_eq_error_iff]
  simp only [Comment.ofDelimiter_eq_error_iff, Comment.ofDelimiter_succeeds_iff, reduceCtorEq,
    and_false, exists_false, or_false]
  constructor
  · rintro ⟨front, x, back, hds, hfront, hx, rfl⟩
    exact ⟨front, back, hds, hfront, hx⟩
  · rintro ⟨front, back, hds, hfront, hd⟩
    exact ⟨front, d, back, hds, hfront, hd, rfl⟩

end Normalizer

/-! ### Patterns -/

namespace Glob

/-- A character that stands for itself in a pattern, or for a wildcard that cannot fail. -/
def IsPlainChar (c : Char) : Prop :=
  c ≠ '[' ∧ c ≠ '\x7b' ∧ c ≠ '\x7d' ∧ c ≠ '\\'

namespace Reading

/-- A reader goes on to an end of its rest and neither opens nor closes a group. -/
structure GoesOn (r r' : Reading) : Prop where
  rest : r'.rest <:+ r.rest
  groups : r'.groups = r.groups

namespace GoesOn

variable {r r' r₁ : Reading}

theorem refl (r : Reading) : r.GoesOn r :=
  ⟨List.suffix_rfl, rfl⟩

theorem trans (h : r.GoesOn r₁) (h' : r₁.GoesOn r') : r.GoesOn r' :=
  ⟨h'.rest.trans h.rest, h'.groups.trans h.groups⟩

theorem push (h : r.GoesOn r') (t : GlobToken) : r.GoesOn (r'.push t) :=
  ⟨h.rest, h.groups⟩

theorem pushRecursive (h : r.GoesOn r') (t : GlobToken) : r.GoesOn (r'.pushRecursive t) := by
  rw [Reading.pushRecursive]
  split
  · exact h
  · exact h
  · exact ⟨h.rest, h.groups⟩
  · exact ⟨h.rest, h.groups⟩

theorem bump {c : Char} (h : r.bump = some (c, r')) : r.GoesOn r' := by
  rw [Reading.bump] at h
  split at h
  · cases h
  · rename_i hrest
    cases h
    exact ⟨hrest ▸ List.suffix_cons _ _, rfl⟩

theorem skipSlash (h : r.GoesOn r') : r.GoesOn r'.skipSlash := by
  rw [Reading.skipSlash]
  split
  · rename_i hbump
    exact h.trans (bump hbump)
  · exact h

/-- Behind a star the reader goes on, whatever it makes of the star. -/
theorem star (h : r.GoesOn r') (before : Option Char) : r.GoesOn (r'.star before) := by
  have hnext : r.GoesOn ((r'.bump.map Prod.snd).getD r') := by
    cases hbump : r'.bump with
    | none => exact h
    | some next => exact h.trans (bump hbump)
  rw [Reading.star]
  split
  · dsimp only
    split
    · split
      · exact (hnext.push _).skipSlash
      · exact (hnext.push _).skipSlash
      · exact (hnext.push _).push _
    · split
      · exact (hnext.push _).push _
      · split
        · exact hnext.pushRecursive _
        · exact hnext.skipSlash.pushRecursive _
        · split
          · exact hnext.pushRecursive _
          · exact (hnext.push _).push _
  · exact h.push _

end GoesOn

variable {r : Reading}

/-- At a plain character the reader does not stop. -/
theorem step?_of_plain {c : Char} {cs : List Char} (hrest : r.rest = c :: cs)
    (hplain : IsPlainChar c) (hgroups : r.groups = []) :
    ∃ r', r.step? = some r' ∧ r'.rest <:+ cs ∧ r'.groups = [] := by
  obtain ⟨hbracket, hopen, hclose, hescape⟩ := hplain
  let next : Reading := { r with rest := cs, previous := r.current, current := some c }
  have hstays {r' : Reading} (h : next.GoesOn r') : r'.rest <:+ cs ∧ r'.groups = [] :=
    ⟨h.rest, h.groups.trans hgroups⟩
  have hbump : r.bump = some (c, next) := by
    rw [bump, hrest]
  have hcomma : next.comma = next.push (.literal ',') := by
    rw [comma, show next.groups = [] from hgroups]
  simp only [step?, hbump, beq_iff_eq, hbracket, hopen, hclose, hescape, if_false, hcomma]
  split
  · exact ⟨_, rfl, hstays ((GoesOn.refl next).push _)⟩
  · split
    · exact ⟨_, rfl, hstays ((GoesOn.refl next).star _)⟩
    · split
      · exact ⟨_, rfl, hstays ((GoesOn.refl next).push _)⟩
      · exact ⟨_, rfl, hstays ((GoesOn.refl next).push _)⟩

/-- Plain characters are read to their end. -/
theorem run?_of_plain {fuel : Nat} (hfuel : r.rest.length < fuel) (hgroups : r.groups = [])
    (hplain : ∀ c ∈ r.rest, IsPlainChar c) : ∃ tokens, run? fuel r = some tokens := by
  induction fuel generalizing r with
  | zero => omega
  | succ fuel ih =>
      rw [run?]
      cases hrest : r.rest with
      | nil => exact ⟨r.tokens.reverse, by simp [hgroups]⟩
      | cons c cs =>
          rw [hrest] at hplain hfuel
          obtain ⟨hc, hcs⟩ := List.forall_mem_cons.mp hplain
          obtain ⟨r', hstep, hsuffix, hgroups'⟩ := step?_of_plain hrest hc hgroups
          obtain ⟨tokens, htokens⟩ := ih (r := r')
            (Nat.lt_of_le_of_lt hsuffix.length_le (Nat.lt_of_succ_lt_succ hfuel)) hgroups'
            fun c hc => hcs c (hsuffix.mem hc)
          exact ⟨tokens, by simp [hstep, htokens]⟩

end Reading

/-- A text without brackets, braces and backslashes is a pattern. -/
theorem isSome_ofText?_of_plain {text : String} (h : ∀ c ∈ text.toList, IsPlainChar c) :
    (ofText? text).isSome = true := by
  obtain ⟨tokens, htokens⟩ :=
    Reading.run?_of_plain (r := { rest := text.toList }) (Nat.lt_succ_self _) rfl h
  rw [ofText?, htokens]
  rfl

end Glob

/-! ### Sessions -/

namespace Session

section Checked

variable [CallerTypes] {resolvers : Registry} {settings : Settings} {s : Session}

theorem ofSettings_of_checked (h : settings.checked = .ok settings) :
    ofSettings resolvers settings =
      (Normalizer.ofDelimiters settings.delimiters).mapError .emptyMarker >>= fun normalizer =>
        .ok { settings, resolvers, normalizer,
              renderer := ({ isStrict := settings.isStrict } : Engine).renderer } := by
  rw [ofSettings, h]
  rfl

/-- A session is made with checked settings when both markers of every delimiter are there. -/
theorem ofSettings_succeeds_iff (h : settings.checked = .ok settings) :
    (∃ s, ofSettings resolvers settings = .ok s) ↔ ∀ d ∈ settings.delimiters, d.Marked := by
  rw [← Normalizer.ofDelimiters_succeeds_iff, ofSettings_of_checked h]
  simp only [bind_eq_ok_iff, mapError_eq_ok_iff]
  constructor
  · rintro ⟨s, n, hn, -⟩
    exact ⟨n, hn⟩
  · rintro ⟨n, hn⟩
    exact ⟨_, n, hn, rfl⟩

/-- Otherwise checked settings are refused for the first delimiter that lacks a marker. -/
theorem ofSettings_eq_error_iff (h : settings.checked = .ok settings) {f : CheckFault} :
    ofSettings resolvers settings = .error f ↔
      ∃ d, d.FirstUnmarked settings.delimiters ∧ f = .emptyMarker d := by
  rw [ofSettings_of_checked h, bind_eq_error_iff, mapError_eq_error_iff]
  simp only [Normalizer.ofDelimiters_eq_error_iff, reduceCtorEq, and_false, exists_false, or_false]

theorem eq_of_ofSettings (h : settings.checked = .ok settings)
    (hs : ofSettings resolvers settings = .ok s) :
    s.settings = settings ∧ s.resolvers = resolvers := by
  rw [ofSettings_of_checked h, bind_eq_ok_iff] at hs
  obtain ⟨n, -, heq⟩ := hs
  cases heq
  exact ⟨rfl, rfl⟩

end Checked

section Search

variable {fs : Files} {directory : FilePath} {pattern p message : String}

theorem outcome_find_eq_badPattern_iff :
    (find fs directory pattern).outcome = .error (.badPattern p message) ↔
      Glob.ofText? pattern = none ∧ ModelFault.badPattern p message = .badPattern pattern := by
  rw [find, Attempt.outcome_bind_eq_error_iff, Attempt.outcome_ofExcept, Glob.ofText]
  cases Glob.ofText? pattern with
  | none => simp [eq_comm]
  | some g =>
      simp only [reduceCtorEq, false_or, false_and, iff_false]
      rintro ⟨g', -, hdiscover⟩
      obtain ⟨_, hfault⟩ := Glob.eq_of_outcome_discover hdiscover
      cases hfault

variable [CallerTypes] {s : Session}

/-- A search with the pattern of the settings is refused for it when it cannot be read. -/
theorem refusal?_badPattern_iff :
    s.refusal? fs (.loadDirectory directory none) = some (.badPattern p message) ↔
      Glob.ofText? s.settings.pattern = none ∧
        ModelFault.badPattern p message = .badPattern s.settings.pattern := by
  rw [← @outcome_find_eq_badPattern_iff fs directory, refusal?, Option.getD_none]
  cases (find fs directory s.settings.pattern).outcome <;> simp

end Search

/-- Which checked settings can be used. A session is made with them when both markers of every
delimiter are there, and otherwise they are refused for the first delimiter that lacks one. On
the session, a search with the pattern of the settings is refused for this pattern, in every
directory, if it cannot be read; if it can be read, no search fails so, unless a resolver
does. -/
theorem checked_settings_usable_iff [CallerTypes] (resolvers : Registry) (settings : Settings)
    (h : settings.checked = .ok settings) :
    ((∃ s, ofSettings resolvers settings = .ok s) ↔ ∀ d ∈ settings.delimiters, d.Marked) ∧
    (∀ f, ofSettings resolvers settings = .error f ↔
      ∃ d, d.FirstUnmarked settings.delimiters ∧ f = .emptyMarker d) ∧
    ∀ s, ofSettings resolvers settings = .ok s → ∀ (fs : Files) (directory : FilePath),
      (Glob.ofText? settings.pattern = none →
        s.act fs (.loadDirectory directory none) = s.refuse fs (.badPattern settings.pattern)) ∧
      ((Glob.ofText? settings.pattern).isSome = true → ∀ p message,
        (s.act fs (.loadDirectory directory none)).outcome =
            .error (.model (.badPattern p message)) →
          ∃ d, resolvers.FirstFault d .empty (.badPattern p message)) := by
  refine ⟨ofSettings_succeeds_iff h, fun f => ofSettings_eq_error_iff h, ?_⟩
  intro s hs fs directory
  obtain ⟨rfl, rfl⟩ := eq_of_ofSettings h hs
  constructor
  · intro hpattern
    exact act_of_refusal (refusal?_badPattern_iff.mpr ⟨hpattern, rfl⟩)
  · intro hpattern p message hp
    rcases refusal?_of_isRefusal rfl hp (.inl ⟨p, message, rfl⟩) with hrefusal | hresolver
    · rw [(refusal?_badPattern_iff.mp hrefusal).1] at hpattern
      cases hpattern
    · exact hresolver

/-- Settings with three delimiters and a pattern of their own, without resolvers. -/
theorem checked_settings_usable_iff_three_delimiters :
    let settings : Settings :=
      { pattern := "models/**/[!_]*.yml"
        delimiters := [⟨"/**", "*/"⟩, ⟨"<!--", "-->"⟩, ⟨"//", "\n"⟩]
        isStrict := true
        logLevel := "debug" }
    settings.checked = .ok settings ∧ ∃ s, ofSettings [] settings = .ok s ∧
      ∀ fs directory p message,
        (s.act fs (.loadDirectory directory none)).outcome ≠
          .error (.model (.badPattern p message)) := by
  intro settings
  have hchecked : settings.checked = .ok settings := by
    rw [Settings.checked, if_neg (by decide), if_neg (by decide), if_neg (by decide)]
  obtain ⟨hsucceeds, -, hsearch⟩ := checked_settings_usable_iff [] settings hchecked
  obtain ⟨s, hs⟩ := hsucceeds.mpr (by decide)
  refine ⟨hchecked, s, hs, ?_⟩
  intro fs directory p message hp
  have hpattern : (Glob.ofText? settings.pattern).isSome = true := by decide +kernel
  obtain ⟨d, front, r, back, m, heq, -⟩ :=
    (hsearch s hs fs directory).2 hpattern p message hp
  exact List.append_ne_nil_of_right_ne_nil front (List.cons_ne_nil r back) heq.symm

/-- Settings pass their check though a delimiter has no opening marker, or a bracket of the
pattern is not closed. No session is made with the former, and every search is refused with
the latter. -/
theorem checked_settings_refused :
    let unmarked : Settings := { delimiters := [⟨"", "*/"⟩] }
    let unreadable : Settings := { pattern := "[" }
    (unmarked.checked = .ok unmarked ∧
      ofSettings [] unmarked = .error (.emptyMarker ⟨"", "*/"⟩)) ∧
    unreadable.checked = .ok unreadable ∧ ∃ s, ofSettings [] unreadable = .ok s ∧
      ∀ fs directory,
        (s.act fs (.loadDirectory directory none)).outcome = .error (.model (.badPattern "[")) := by
  refine ⟨⟨rfl, rfl⟩, rfl, _, rfl, ?_⟩
  intro fs directory
  rfl

end Session

end Galley
