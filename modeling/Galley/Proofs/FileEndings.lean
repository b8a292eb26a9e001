import Galley.Discovery
import Mathlib.Data.List.Infix

/-!
The default pattern.

Tokens are matched at the front of the bytes of a path, and a matcher is told by the fronts that
it takes (`Glob.anyFront_iff`, `Glob.anySlash_iff`, `Glob.behind_iff`). The default pattern takes
the paths whose bytes end as those of a model file do (`Glob.matchTokens_default_iff`). A byte of
ASCII is never a part of another character, so these are the paths whose last name ends so
(`Glob.covers_default_iff`).
-/

namespace Galley

/-! ### Bytes of a text -/

/-- A byte of ASCII that ends the bytes of a character is all of them. -/
theorem utf8EncodeChar_of_concat {c : Char} {bs : List UInt8} {b : UInt8}
    (h : String.utf8EncodeChar c = bs ++ [b]) (hb : b.toNat ≤ 127) :
    bs = [] ∧ c.val.toNat = b.toNat := by
  have htail (n : Nat) : ¬ (UInt8.ofNat (n % 64 + 128)).toNat ≤ 127 := by
    rw [UInt8.toNat_ofNat']
    omega
  have hlast : (String.utf8EncodeChar c).getLast? = some b := by rw [h, List.getLast?_concat]
  rw [String.utf8EncodeChar.eq_1] at h hlast
  split at h
  · rename_i hascii
    cases bs with
    | nil =>
        obtain rfl := List.singleton_inj.mp h
        refine ⟨rfl, ?_⟩
        rw [UInt8.toNat_ofNat']
        omega
    | cons b' bs => simp at h
  · rename_i hascii
    rw [if_neg hascii] at hlast
    split at hlast
    · exact absurd hb (Option.some.inj hlast ▸ htail _)
    · split at hlast
      · exact absurd hb (Option.some.inj hlast ▸ htail _)
      · exact absurd hb (Option.some.inj hlast ▸ htail _)

theorem utf8EncodeChar_of_ascii {c : Char} (h : c.val.toNat ≤ 127) :
    String.utf8EncodeChar c = [UInt8.ofNat c.val.toNat] := by
  rw [String.utf8EncodeChar.eq_1, if_pos h]

theorem exists_utf8EncodeChar_concat (c : Char) : ∃ bs b, String.utf8EncodeChar c = bs ++ [b] := by
  rcases List.eq_nil_or_concat (String.utf8EncodeChar c) with hnil | ⟨bs, b, hbytes⟩
  · have hlength := String.length_utf8EncodeChar c
    rw [hnil] at hlength
    exact absurd hlength c.utf8Size_pos.ne
  · exact ⟨bs, b, hbytes.trans List.concat_eq_append⟩

/-- Bytes end as those of characters of ASCII do when the characters end so. -/
theorem suffix_flatMap_utf8EncodeChar_iff {ending chars : List Char}
    (h : ∀ c ∈ ending, c.val.toNat ≤ 127) :
    ending.flatMap String.utf8EncodeChar <:+ chars.flatMap String.utf8EncodeChar ↔
      ending <:+ chars := by
  -- From the last character on, since a byte of ASCII at the end is a character by itself.
  induction ending using List.reverseRecOn generalizing chars with
  | nil => simp
  | append_singleton ending c ih =>
      obtain ⟨hending, hc⟩ := List.forall_mem_append.mp h
      replace hc := hc c (List.mem_singleton_self c)
      constructor
      · rintro ⟨front, hbytes⟩
        rw [List.flatMap_append, List.flatMap_singleton, utf8EncodeChar_of_ascii hc,
          ← List.append_assoc] at hbytes
        rcases List.eq_nil_or_concat chars with rfl | ⟨chars, d, rfl⟩
        · simp at hbytes
        · obtain ⟨bs, b, hd⟩ : ∃ bs b, String.utf8EncodeChar d = bs ++ [b] :=
            exists_utf8EncodeChar_concat d
          rw [List.concat_eq_append, List.flatMap_append, List.flatMap_singleton, hd,
            ← List.append_assoc] at hbytes
          obtain ⟨hfront, hlast⟩ := List.append_inj' hbytes rfl
          obtain rfl := List.singleton_inj.mp hlast
          have hb : (UInt8.ofNat c.val.toNat).toNat = c.val.toNat := by
            rw [UInt8.toNat_ofNat']
            omega
          obtain ⟨rfl, hval⟩ := utf8EncodeChar_of_concat hd (hb.trans_le hc)
          obtain rfl : d = c := Char.ext (UInt32.toNat_inj.mp (hval.trans hb))
          rw [List.append_nil] at hfront
          rw [List.concat_eq_append]
          exact List.suffix_append_self_iff.mpr ((ih hending).mp ⟨front, hfront⟩)
      · rintro ⟨front, rfl⟩
        exact ⟨front.flatMap String.utf8EncodeChar, List.flatMap_append.symm⟩

namespace Glob

variable {p : UInt8 → Bool} {next : List UInt8 → Bool} {s : List UInt8}

theorem bytesOf_eq (text : String) : bytesOf text = text.toList.flatMap String.utf8EncodeChar := by
  conv_lhs => rw [← String.ofList_toList (s := text)]
  rw [bytesOf, String.toUTF8_eq_toByteArray, String.toByteArray_ofList, List.utf8Encode,
    List.toList_data_toByteArray]

/-! ### What a matcher takes -/

theorem anyFront_iff : anyFront p next s = true ↔
    ∃ front back, s = front ++ back ∧ (∀ b ∈ front, p b = true) ∧ next back = true := by
  induction s with
  | nil => simp [anyFront]
  | cons b s ih =>
      rw [anyFront, Bool.or_eq_true, Bool.and_eq_true, ih]
      constructor
      · rintro (hnext | ⟨hb, front, back, rfl, hfront, hback⟩)
        · exact ⟨[], b :: s, rfl, by simp, hnext⟩
        · exact ⟨b :: front, back, rfl, List.forall_mem_cons.mpr ⟨hb, hfront⟩, hback⟩
      · rintro ⟨_ | ⟨b', front⟩, back, heq, hfront, hback⟩
        · exact .inl (heq ▸ hback)
        · obtain ⟨rfl, rfl⟩ := List.cons.inj heq
          obtain ⟨hb, hfront⟩ := List.forall_mem_cons.mp hfront
          exact .inr ⟨hb, front, back, rfl, hfront, hback⟩

theorem anySlash_iff : anySlash next s = true ↔
    ∃ front back, s = front ++ slash :: back ∧ next back = true := by
  induction s with
  | nil => simp [anySlash]
  | cons b s ih =>
      rw [anySlash, Bool.or_eq_true, Bool.and_eq_true, beq_iff_eq, ih]
      constructor
      · rintro (⟨rfl, hnext⟩ | ⟨front, back, rfl, hback⟩)
        · exact ⟨[], s, rfl, hnext⟩
        · exact ⟨b :: front, back, rfl, hback⟩
      · rintro ⟨_ | ⟨b', front⟩, back, heq, hback⟩
        · obtain ⟨rfl, rfl⟩ := List.cons.inj heq
          exact .inl ⟨rfl, hback⟩
        · obtain ⟨rfl, rfl⟩ := List.cons.inj heq
          exact .inr ⟨front, back, rfl, hback⟩

theorem behind_iff {front : List UInt8} : behind front next s = true ↔
    ∃ back, s = front ++ back ∧ next back = true := by
  rw [behind, Bool.and_eq_true, List.isPrefixOf_iff_prefix]
  constructor
  · rintro ⟨⟨back, rfl⟩, hnext⟩
    exact ⟨back, rfl, by simpa using hnext⟩
  · rintro ⟨back, rfl, hnext⟩
    exact ⟨List.prefix_append _ _, by simpa using hnext⟩

/-! ### The default pattern -/

/-- The tokens of the endings of model files. -/
def modelEndings : List GlobToken :=
  [.literal '.', .alternates [[.literal 'y', .literal 'm', .literal 'l'],
    [.literal 'y', .literal 'a', .literal 'm', .literal 'l']]]

theorem ofText?_defaultText :
    ofText? defaultText = some ⟨defaultText, .directories :: .star :: modelEndings⟩ := rfl

theorem matchTokens_modelEndings_iff :
    matchTokens modelEndings List.isEmpty s = true ↔ s = bytesOf ".yml" ∨ s = bytesOf ".yaml" := by
  have hyml : bytesOf ".yml" = bytesOf '.'.toString ++
      (bytesOf 'y'.toString ++ (bytesOf 'm'.toString ++ bytesOf 'l'.toString)) := by
    decide
  have hyaml : bytesOf ".yaml" = bytesOf '.'.toString ++ (bytesOf 'y'.toString ++
      (bytesOf 'a'.toString ++ (bytesOf 'm'.toString ++ bytesOf 'l'.toString))) := by
    decide
  rw [hyml, hyaml]
  simp only [modelEndings, matchTokens, matchToken, matchSome, areVoid, isVoidPattern, isVoid,
    Bool.false_and, Bool.false_eq_true, if_false, Bool.not_false, Bool.true_and, Bool.or_false,
    behind_iff, Bool.or_eq_true, List.isEmpty_iff, exists_eq_right, List.append_nil]
  constructor
  · rintro ⟨_, rfl, rfl | rfl⟩
    · exact .inl rfl
    · exact .inr rfl
  · rintro (rfl | rfl)
    · exact ⟨_, rfl, .inl rfl⟩
    · exact ⟨_, rfl, .inr rfl⟩

theorem exists_last_slash (s : List UInt8) :
    slash ∉ s ∨ ∃ front back, s = front ++ slash :: back ∧ slash ∉ back := by
  induction s with
  | nil => exact .inl List.not_mem_nil
  | cons b s ih =>
      rcases ih with hnone | ⟨front, back, rfl, hback⟩
      · by_cases hb : slash = b
        · exact .inr ⟨[], s, hb ▸ rfl, hnone⟩
        · exact .inl (by simp [hb, hnone])
      · exact .inr ⟨b :: front, back, rfl, hback⟩

/-- The default pattern takes what ends as a model file. -/
theorem matchTokens_default_iff :
    matchTokens (.directories :: .star :: modelEndings) List.isEmpty s = true ↔
      bytesOf ".yml" <:+ s ∨ bytesOf ".yaml" <:+ s := by
  have hslash (front : List UInt8) : (∀ b ∈ front, (b != slash) = true) ↔ slash ∉ front := by
    constructor
    · intro h hin
      simpa using h slash hin
    · intro h b hb
      exact bne_iff_ne.mpr fun heq => h (heq ▸ hb)
  rw [matchTokens, matchToken, matchTokens, matchToken, Bool.or_eq_true, anySlash_iff]
  simp only [anyFront_iff, matchTokens_modelEndings_iff, hslash]
  constructor
  · rintro (⟨front, _, rfl, -, rfl | rfl⟩ | ⟨above, _, rfl, front, _, rfl, -, rfl | rfl⟩)
    · exact .inl ⟨front, rfl⟩
    · exact .inr ⟨front, rfl⟩
    · exact .inl ⟨above ++ slash :: front, by simp⟩
    · exact .inr ⟨above ++ slash :: front, by simp⟩
  · intro h
    obtain ⟨ending, hending, front, rfl⟩ : ∃ ending,
        (ending = bytesOf ".yml" ∨ ending = bytesOf ".yaml") ∧ ending <:+ s := by
      rcases h with h | h
      · exact ⟨_, .inl rfl, h⟩
      · exact ⟨_, .inr rfl, h⟩
    rcases exists_last_slash front with hnone | ⟨above, front, rfl, hnone⟩
    · exact .inl ⟨front, ending, rfl, hnone, hending⟩
    · exact .inr ⟨above, front ++ ending, by simp, front, ending, rfl, hnone, hending⟩

/-- Without a slash, the ending of a path is one of its last name. -/
theorem suffix_intercalate_iff {ending : List Char} (h : '/' ∉ ending) (names : List String)
    (name : String) : ending <:+ (String.intercalate "/" (names ++ [name])).toList ↔
      ending <:+ name.toList := by
  by_cases hnames : names = []
  · rw [hnames, List.nil_append, String.intercalate_singleton]
  · have hpath : (String.intercalate "/" (names ++ [name])).toList =
        (String.intercalate "/" names).toList ++ '/' :: name.toList := by
      rw [String.intercalate_append_of_ne_nil hnames (List.cons_ne_nil _ _),
        String.intercalate_singleton, String.toList_append, String.toList_append]
      simp
    rw [hpath]
    constructor
    · intro hending
      have hname : '/' :: name.toList <:+
          (String.intercalate "/" names).toList ++ '/' :: name.toList :=
        List.suffix_append _ _
      rcases List.suffix_or_suffix_of_suffix hending hname with hinside | hover
      · rcases List.suffix_cons_iff.mp hinside with rfl | hinside
        · exact absurd List.mem_cons_self h
        · exact hinside
      · exact absurd (hover.subset List.mem_cons_self) h
    · intro hending
      exact List.suffix_append_of_suffix (List.suffix_cons_iff.mpr (.inr hending))

/-- The bytes of a path end as those of a text of ASCII without a slash when its last name ends as
the text. -/
theorem suffix_bytesOf_path_iff {ending : String} (hascii : ∀ c ∈ ending.toList, c.val.toNat ≤ 127)
    (hslash : '/' ∉ ending.toList) (names : List String) (name : String) :
    bytesOf ending <:+ bytesOf (String.intercalate "/" (names ++ [name])) ↔
      ∃ stem, name = stem ++ ending := by
  rw [bytesOf_eq, bytesOf_eq, suffix_flatMap_utf8EncodeChar_iff hascii,
    suffix_intercalate_iff hslash]
  constructor
  · rintro ⟨stem, hname⟩
    refine ⟨String.ofList stem, String.toList_inj.mp ?_⟩
    rw [String.toList_append, String.toList_ofList, hname]
  · rintro ⟨stem, rfl⟩
    rw [String.toList_append]
    exact List.suffix_append _ _

/-- The default pattern covers the paths whose last name ends as that of a model file. -/
theorem covers_default_iff {g : Glob} (hg : ofText defaultText = .ok g) (names : List String)
    (name : String) : g.covers (String.intercalate "/" (names ++ [name])) = true ↔
      ∃ stem, name = stem ++ ".yml" ∨ name = stem ++ ".yaml" := by
  rw [ofText, ofText?_defaultText] at hg
  obtain rfl := Except.ok.inj hg
  rw [covers]
  simp only [matchTokens_default_iff]
  rw [suffix_bytesOf_path_iff (by simp) (by simp), suffix_bytesOf_path_iff (by simp) (by simp),
    exists_or]

end Glob

end Galley
