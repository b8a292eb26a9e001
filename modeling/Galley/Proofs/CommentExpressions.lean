import Galley.Proofs.CommentSpans
import Galley.Proofs.UsableSettings
import Mathlib.Data.List.Sort

/-!
The expression that finds comments.

A list of delimiters stands for one expression: for each delimiter in turn the alternatives in
which the closing marker starts inside the opening one, then the two markers with anything
between them (`Delimiter.expression`, `Expression.ofDelimiters`). Alternatives are tried in
order, and what may be anything is as short as it can be (`Expression.rests`). The overlaps
are cut at bytes, but these cuts are the ones at characters (`byteOverlaps_eq`), so the
preferred match at the front of a text is what `Comment.afterAny?` finds
(`Expression.finds_ofDelimiters`). One pass over the matches and the repetition of passes until
nothing matches are therefore the removal of comments (`Expression.Finds.deleteOnce_eq`,
`Expression.Finds.stripsTo_iff`), and a pass deletes the spans of `Comment.Scan`
(`removal_deletes_spans`).
-/

namespace Galley

open Text

/-! ### Cuts at bytes -/

namespace Text

def byteLength : List Char → Nat
  | [] => 0
  | c :: cs => c.utf8Size + byteLength cs

/-- A text cut behind its first `k` bytes, if a character ends there. -/
def cutBytes? : Nat → List Char → Option (List Char × List Char)
  | 0, s => some ([], s)
  | _ + 1, [] => none
  | k + 1, c :: cs =>
    if c.utf8Size ≤ k + 1 then
      (cutBytes? (k + 1 - c.utf8Size) cs).map fun cut => (c :: cut.1, cut.2)
    else none

section Bytes

variable {s front back : List Char} {k : Nat}

@[simp] theorem byteLength_nil : byteLength [] = 0 := rfl

@[simp] theorem byteLength_cons (c : Char) (s : List Char) :
    byteLength (c :: s) = c.utf8Size + byteLength s := rfl

@[simp] theorem byteLength_append (s t : List Char) :
    byteLength (s ++ t) = byteLength s + byteLength t := by
  induction s with
  | nil => simp
  | cons c s ih => rw [List.cons_append, byteLength_cons, byteLength_cons, ih, Nat.add_assoc]

theorem byteLength_pos_iff : 0 < byteLength s ↔ s ≠ [] := by
  cases s with
  | nil => simp
  | cons c s =>
      have := c.utf8Size_pos
      simp only [byteLength_cons, ne_eq, reduceCtorEq, not_false_eq_true, iff_true]
      omega

theorem cutBytes?_eq_some_iff :
    cutBytes? k s = some (front, back) ↔ s = front ++ back ∧ byteLength front = k := by
  induction s generalizing k front with
  | nil =>
      cases k with
      | zero =>
          have := @byteLength_pos_iff front
          cases front <;> simp_all [cutBytes?]
      | succ k => cases front <;> simp [cutBytes?]
  | cons c s ih =>
      have hpos := c.utf8Size_pos
      cases front with
      | nil => cases k <;> simp [cutBytes?]
      | cons d front =>
          cases k with
          | zero =>
              have := d.utf8Size_pos
              simp [cutBytes?]
              omega
          | succ k =>
              rw [cutBytes?]
              split
              · rename_i hle
                rw [Option.map_eq_some_iff]
                simp only [Prod.exists, Prod.mk.injEq, List.cons.injEq, List.cons_append,
                  byteLength_cons]
                constructor
                · rintro ⟨front', back', hcut, ⟨rfl, rfl⟩, rfl⟩
                  obtain ⟨hs, hbytes⟩ := ih.mp hcut
                  exact ⟨⟨rfl, hs⟩, by omega⟩
                · rintro ⟨⟨rfl, hs⟩, hbytes⟩
                  exact ⟨front, back, ih.mpr ⟨hs, by omega⟩, ⟨rfl, rfl⟩, rfl⟩
              · rename_i hlt
                simp only [reduceCtorEq, false_iff, not_and, List.cons_append, List.cons.injEq,
                  byteLength_cons]
                rintro ⟨rfl, -⟩
                omega

end Bytes

end Text

/-! ### Expressions -/

/-- What a text is searched for. -/
inductive Expression where
  /-- Nothing at all. -/
  | never
  /-- A block of characters. -/
  | block (text : List Char)
  /-- Anything, and as little of it as possible. -/
  | anything
  /-- One behind the other. -/
  | both (first second : Expression)
  /-- One or else the other. -/
  | either (first second : Expression)

namespace Expression

/-- What is left of a text behind each match at its front, the preferred match first. -/
def rests : Expression → List Char → List (List Char)
  | never, _ => []
  | block text, s => (dropPrefix? text s).toList
  | anything, s => s.tails
  | both first second, s => (first.rests s).flatMap second.rests
  | either first second, s => first.rests s ++ second.rests s

/-- What is left of a text behind the preferred match at its front. -/
def rest? (e : Expression) (s : List Char) : Option (List Char) :=
  (e.rests s).head?

/-- The first of several alternatives that matches. -/
def oneOf (alternatives : List Expression) : Expression :=
  alternatives.foldr either never

/-- Deletes the leftmost matches, each behind the one before. A match of nothing deletes
nothing. -/
def deleteOnce (e : Expression) : List Char → List Char
  | [] => []
  | c :: cs =>
    match _h : (e.rest? (c :: cs)).filter fun rest => rest.length < (c :: cs).length with
    | some rest => deleteOnce e rest
    | none => c :: deleteOnce e cs
termination_by s => s.length
decreasing_by
  · exact of_decide_eq_true (Option.filter_eq_some_iff.mp _h).2
  · simp

/-- The expression matches somewhere in the text. -/
def Matches (e : Expression) (s : List Char) : Prop :=
  ∃ i, (e.rest? (s.drop i)).isSome = true

/-- As long as the expression matches somewhere, the matches are deleted. This ends at the
second text. -/
inductive StripsTo (e : Expression) : List Char → List Char → Prop where
  | done {s : List Char} : ¬ e.Matches s → StripsTo e s s
  | again {s t : List Char} : e.Matches s → StripsTo e (e.deleteOnce s) t → StripsTo e s t

section Rests

@[simp] theorem rest?_block (text s : List Char) :
    (block text).rest? s = dropPrefix? text s := by
  rw [rest?, rests, Option.head?_toList]

@[simp] theorem rest?_either (p q : Expression) (s : List Char) :
    (either p q).rest? s = (p.rest? s).or (q.rest? s) := by
  simp only [rest?, rests, List.head?_append]

theorem rest?_oneOf (alternatives : List Expression) (s : List Char) :
    (oneOf alternatives).rest? s = alternatives.findSome? fun e => e.rest? s := by
  induction alternatives with
  | nil => rfl
  | cons e alternatives ih =>
      rw [List.findSome?_cons, ← ih, oneOf, List.foldr_cons, rest?_either, oneOf]
      cases e.rest? s <;> rfl

/-- Of the ends of a text, the longest that starts with a block is tried first. -/
theorem findSome?_tails (text s : List Char) :
    (s.tails.findSome? fun t => dropPrefix? text t) = Comment.afterFirst? text s := by
  induction s with
  | nil =>
      rw [List.tails, Comment.afterFirst?, List.findSome?_cons]
      cases dropPrefix? text [] <;> rfl
  | cons c s ih =>
      rw [List.tails_cons, List.findSome?_cons, ih, Comment.afterFirst?]
      cases dropPrefix? text (c :: s) <;> rfl

/-- Two blocks with anything between them. -/
theorem rest?_between (opening closing s : List Char) :
    (both (both (block opening) anything) (block closing)).rest? s =
      (dropPrefix? opening s).bind (Comment.afterFirst? closing) := by
  have hclosing : (fun t => ((block closing).rests t).head?) = dropPrefix? closing :=
    funext (rest?_block closing)
  rw [rest?, rests, rests, List.flatMap_assoc, List.head?_flatMap]
  cases hopening : dropPrefix? opening s with
  | none => simp [rests, hopening]
  | some inner =>
      rw [Option.bind_some, ← findSome?_tails, rests, hopening, Option.toList_some,
        List.findSome?_singleton, List.head?_flatMap, hclosing, rests]

end Rests

end Expression

/-! ### The expression of a delimiter -/

/-- The closing marker cut at each byte behind which it may start inside the opening marker, the
longest front first. -/
def byteOverlaps (opening closing : List Char) : List (List Char × List Char) :=
  (List.range' 1 (min (byteLength closing) (byteLength opening) - 1)).reverse.filterMap fun k =>
    (cutBytes? k closing).filter fun cut => cut.1.isSuffixOf opening

/-- The opening marker with the rest of a closing marker that starts inside it, or else both
markers with anything between them. -/
def Delimiter.expression (d : Delimiter) : Expression :=
  let opening := d.opening.toList
  let closing := d.closing.toList
  let overlapping := (byteOverlaps opening closing).map fun cut => .block (opening ++ cut.2)
  .oneOf (overlapping ++ [.both (.both (.block opening) .anything) (.block closing)])

/-- The comments of any of the delimiters, the first delimiter before the others. -/
def Expression.ofDelimiters (ds : List Delimiter) : Expression :=
  .oneOf (ds.map Delimiter.expression)

/-- The expression for documentation blocks as it is written by hand. -/
def Expression.docBlock : Expression :=
  .either (.block "/**/".toList)
    (.both (.both (.block "/**".toList) .anything) (.block "*/".toList))

namespace Comment

def delimiter (c : Comment) : Delimiter :=
  ⟨String.ofList c.opening, String.ofList c.closing⟩

section Overlaps

variable {c : Comment} {cut : List Char × List Char} {s : List Char}

/-- Bounds on the bytes of an overlap say that it is a part of both markers and neither of them. -/
theorem byteLength_overlap_iff {front back lead : List Char} :
    (1 ≤ byteLength front ∧
      byteLength front < 1 + (min (byteLength (front ++ back)) (byteLength (lead ++ front)) - 1)) ↔
      front ≠ [] ∧ back ≠ [] ∧ lead ≠ [] := by
  rw [byteLength_append, byteLength_append, ← byteLength_pos_iff, ← byteLength_pos_iff,
    ← byteLength_pos_iff]
  omega

theorem exists_overlaps_iff {front back : List Char} :
    (∃ k, c.Overlaps k ∧ front = c.closing.take k ∧ back = c.closing.drop k) ↔
      ∃ lead, c.closing = front ++ back ∧ lead ++ front = c.opening ∧
        front ≠ [] ∧ back ≠ [] ∧ lead ≠ [] := by
  constructor
  · rintro ⟨k, ⟨hpos, hclosing, hopening, lead, hlead⟩, rfl, rfl⟩
    have htake : (c.closing.take k).length = k := List.length_take_of_le hclosing.le
    have hlength := congrArg List.length hlead
    rw [List.length_append, htake] at hlength
    refine ⟨lead, (List.take_append_drop k c.closing).symm, hlead, ?_, ?_, ?_⟩
    · exact List.ne_nil_of_length_pos (htake.symm ▸ hpos)
    · exact List.ne_nil_of_length_pos (by rw [List.length_drop]; omega)
    · exact List.ne_nil_of_length_pos (by omega)
  · rintro ⟨lead, hclosing, hopening, hfront, hback, hlead⟩
    rw [← List.length_pos_iff] at hfront hback hlead
    have htake : c.closing.take front.length = front := by rw [hclosing, List.take_left]
    refine ⟨front.length, ⟨hfront, ?_, ?_, lead, ?_⟩, htake.symm, ?_⟩
    · rw [hclosing, List.length_append]
      omega
    · rw [← hopening, List.length_append]
      omega
    · rw [htake, hopening]
    · rw [hclosing, List.drop_left]

theorem mem_byteOverlaps_iff :
    cut ∈ byteOverlaps c.opening c.closing ↔
      ∃ k, c.Overlaps k ∧ cut = (c.closing.take k, c.closing.drop k) := by
  obtain ⟨front, back⟩ := cut
  simp only [byteOverlaps, List.mem_filterMap, List.mem_reverse, List.mem_range'_1,
    Option.filter_eq_some_iff, cutBytes?_eq_some_iff, List.isSuffixOf_iff_suffix, Prod.mk.injEq,
    exists_overlaps_iff]
  constructor
  · rintro ⟨k, hk, ⟨hclosing, rfl⟩, lead, hopening⟩
    rw [hclosing, ← hopening] at hk
    exact ⟨lead, hclosing, hopening, byteLength_overlap_iff.mp hk⟩
  · rintro ⟨lead, hclosing, hopening, hparts⟩
    refine ⟨byteLength front, ?_, ⟨hclosing, rfl⟩, lead, hopening⟩
    rw [hclosing, ← hopening]
    exact byteLength_overlap_iff.mpr hparts

/-- A longer front has more bytes. -/
theorem byteLength_take_lt {k l : Nat} (hkl : k < l) (hl : l ≤ s.length) :
    byteLength (s.take k) < byteLength (s.take l) := by
  have hsplit : s.take l = s.take k ++ (s.take l).drop k := by
    have htake : (s.take l).take k = s.take k := by rw [List.take_take, Nat.min_eq_left hkl.le]
    rw [← htake, List.take_append_drop]
  have hpos : 0 < byteLength ((s.take l).drop k) := by
    apply byteLength_pos_iff.mpr
    apply List.length_pos_iff.mp
    rw [List.length_drop, List.length_take]
    omega
  rw [hsplit, byteLength_append]
  omega

/-- Cutting the closing marker at bytes cuts it at characters. -/
theorem byteOverlaps_eq (c : Comment) :
    byteOverlaps c.opening c.closing =
      c.overlaps.map fun k => (c.closing.take k, c.closing.drop k) := by
  -- Both lists are sorted by the bytes of the fronts and have the same members.
  let R : List Char × List Char → List Char × List Char → Prop :=
    fun cut cut' => byteLength cut'.1 < byteLength cut.1
  have hbytes : (byteOverlaps c.opening c.closing).Pairwise R := by
    rw [byteOverlaps, List.pairwise_filterMap, List.pairwise_reverse]
    have hrange : (List.range' 1 (min (byteLength c.closing) (byteLength c.opening) - 1)).Pairwise
        (· < ·) := List.pairwise_lt_range'
    apply hrange.imp
    intro k l hkl cut hcut cut' hcut'
    obtain ⟨-, hk⟩ := cutBytes?_eq_some_iff.mp (Option.filter_eq_some_iff.mp hcut).1
    obtain ⟨-, hl⟩ := cutBytes?_eq_some_iff.mp (Option.filter_eq_some_iff.mp hcut').1
    change byteLength cut'.1 < byteLength cut.1
    omega
  have hchars : (c.overlaps.map fun k => (c.closing.take k, c.closing.drop k)).Pairwise R := by
    rw [List.pairwise_map]
    apply (pairwise_overlaps c).imp_of_mem
    intro k l hk _ hkl
    exact byteLength_take_lt hkl (mem_overlaps_iff.mp hk).2.1.le
  have : Std.Irrefl R := ⟨fun _ => lt_irrefl _⟩
  have : Std.Antisymm R := ⟨fun _ _ hab hba => absurd hab hba.not_gt⟩
  refine hbytes.eq_of_mem_iff hchars fun cut => ?_
  rw [mem_byteOverlaps_iff, List.mem_map]
  simp only [mem_overlaps_iff, eq_comm]

end Overlaps

/-! ### Delimiters and their comments -/

section Delimiters

variable {c : Comment} {d : Delimiter}

theorem ofDelimiter_eq_ok_iff : ofDelimiter d = .ok c ↔ c.delimiter = d := by
  obtain ⟨opening, closing⟩ := d
  constructor
  · intro h
    rw [ofDelimiter, ofDelimiter?] at h
    split_ifs at h
    cases h
    simp [delimiter]
  · intro h
    obtain ⟨rfl, rfl⟩ := Delimiter.mk.inj h
    have hopening := c.opening_ne
    have hclosing := c.closing_ne
    simp [ofDelimiter, ofDelimiter?, hopening, hclosing]

theorem dropPrefix?_append (front back s : List Char) :
    dropPrefix? (front ++ back) s = (dropPrefix? front s).bind (dropPrefix? back) := by
  apply Option.ext
  intro rest
  simp only [Option.bind_eq_some_iff, dropPrefix?_eq_some_iff, List.append_assoc]
  constructor
  · rintro rfl
    exact ⟨_, rfl, rfl⟩
  · rintro ⟨inner, rfl, rfl⟩
    rfl

/-- The expression of a delimiter matches what its comment is. -/
theorem rest?_expression (c : Comment) (s : List Char) :
    c.delimiter.expression.rest? s = c.after? s := by
  have hrests : (byteOverlaps c.opening c.closing).map
      (fun cut => Expression.block (c.opening ++ cut.2)) =
        c.sharedRests.map fun shared => Expression.block (c.opening ++ shared) := by
    rw [byteOverlaps_eq, sharedRests_eq, List.map_map, List.map_map]
    rfl
  simp only [Delimiter.expression, delimiter, String.toList_ofList, hrests,
    Expression.rest?_oneOf, List.findSome?_append, List.findSome?_map, List.findSome?_singleton,
    Expression.rest?_between, Function.comp_def, Expression.rest?_block, dropPrefix?_append]
  rw [after?]
  cases dropPrefix? c.opening s with
  | none => simp
  | some inner =>
      simp only [Option.bind_some]
      cases c.sharedRests.findSome? fun shared => dropPrefix? shared inner <;> rfl

end Delimiters

end Comment

/-! ### Passes -/

namespace Expression

/-- The expression matches at the front of a text what a comment is there. -/
def Finds (e : Expression) (comments : List Comment) : Prop :=
  ∀ s, e.rest? s = Comment.afterAny? comments s

namespace Finds

variable {e : Expression} {comments : List Comment} {s t : List Char}

theorem deleteOnce_eq (h : e.Finds comments) (s : List Char) :
    e.deleteOnce s = Comment.removeOnce comments s := by
  induction s using Comment.removeOnce.induct comments with
  | case1 => rw [deleteOnce, Comment.removeOnce_nil]
  | case2 c s rest hrest ih =>
      -- A comment is no match of nothing, so it passes the filter.
      have hmatch : (e.rest? (c :: s)).filter (fun rest => rest.length < (c :: s).length) =
          some rest := by
        rw [h, hrest]
        simpa using Comment.length_afterAny?_lt hrest
      rw [Comment.removeOnce_of_some hrest, ← ih, deleteOnce]
      split
      · rename_i rest' hrest'
        rw [hmatch] at hrest'
        cases hrest'
        rfl
      · rename_i hnone
        rw [hmatch] at hnone
        cases hnone
  | case3 c s hnone ih =>
      rw [Comment.removeOnce_of_none hnone, ← ih, deleteOnce]
      split
      · rename_i rest' hrest'
        rw [h, hnone] at hrest'
        cases hrest'
      · rfl

theorem matches_iff (h : e.Finds comments) : e.Matches s ↔ ¬ Comment.NoSpan comments s := by
  rw [Comment.noSpan_iff, not_forall]
  apply exists_congr
  intro i
  rw [h, Option.isSome_iff_ne_none]

/-- The passes end, and they end at the text without comments. -/
theorem stripsTo_iff (h : e.Finds comments) :
    e.StripsTo s t ↔ t = Comment.removeAll comments s := by
  constructor
  · intro hstrips
    induction hstrips with
    | done hmatches =>
        rw [h.matches_iff, not_not] at hmatches
        rw [Comment.removeAll_of_noSpan hmatches]
    | again hmatches _ ih =>
        rw [h.matches_iff, ← Comment.removeOnce_eq_self_iff] at hmatches
        rw [ih, h.deleteOnce_eq, ← Comment.removeAll_of_ne hmatches]
  · rintro rfl
    refine Comment.removeAll_induction (motive := e.StripsTo) (fun s hs => ?_) ?_ s
    · refine .done fun hmatches => h.matches_iff.mp hmatches ?_
      exact Comment.removeOnce_eq_self_iff.mp hs
    · intro s t hs ht
      rw [← h.deleteOnce_eq] at ht
      refine .again ?_ ht
      rwa [h.matches_iff, ← Comment.removeOnce_eq_self_iff]

end Finds

/-- The expression of some delimiters finds the comments of any of them. -/
theorem finds_ofDelimiters (comments : List Comment) :
    (ofDelimiters (comments.map Comment.delimiter)).Finds comments := by
  intro s
  rw [ofDelimiters, rest?_oneOf, List.map_map, List.findSome?_map, Comment.afterAny?]
  simp only [Function.comp_def, Comment.rest?_expression]

/-- The expression that is written by hand finds documentation blocks. -/
theorem finds_docBlock : docBlock.Finds [.docBlock] := by
  intro s
  have hoverlaps : byteOverlaps "/**".toList "*/".toList = [(['*'], ['/'])] := by decide
  have hexpression : Delimiter.docBlock.expression = oneOf [.block "/**/".toList,
      .both (.both (.block "/**".toList) .anything) (.block "*/".toList)] := by
    rw [Delimiter.expression, Delimiter.docBlock, hoverlaps]
    rfl
  have hfinds : Delimiter.docBlock.expression.rest? s = Comment.docBlock.after? s :=
    Comment.docBlock.rest?_expression s
  rw [hexpression, rest?_oneOf, List.findSome?_cons, List.findSome?_singleton] at hfinds
  rw [docBlock, rest?_either, Comment.afterAny?, List.findSome?_singleton, ← hfinds]
  cases (block "/**/".toList).rest? s <;> rfl

end Expression

namespace Normalizer

variable {ds : List Delimiter} {n : Normalizer}

/-- A normalizer made of delimiters removes their comments. -/
theorem ofDelimiters_eq_ok_iff :
    ofDelimiters ds = .ok n ↔ n.comments.map Comment.delimiter = ds := by
  have hpairs {comments : List Comment} :
      ds.mapM Comment.ofDelimiter = .ok comments ↔ comments.map Comment.delimiter = ds := by
    rw [mapM_eq_ok_iff, eq_comm, ← List.forall₂_eq_eq_eq, List.forall₂_map_right_iff]
    simp only [Comment.ofDelimiter_eq_ok_iff]
    constructor <;> exact List.Forall₂.imp fun _ _ => Eq.symm
  rw [ofDelimiters_eq_bind, bind_eq_ok_iff]
  simp only [hpairs]
  constructor
  · rintro ⟨comments, hcomments, hn⟩
    cases hn
    exact hcomments
  · intro h
    exact ⟨n.comments, h, rfl⟩

end Normalizer

/-- Removal deletes the spans of comments.

A normalizer is made of delimiters exactly when no marker is empty, and then its comments have
just these markers. One pass over the matches of the expression of the delimiters deletes the
spans from left to right, at each place that of the first delimiter that has one there, and
passes are made until nothing matches, which leaves what the normalizer strips a text to. The
expression that is written by hand for documentation blocks deletes the same, so the default
normalizer is the one of this delimiter, and a session with the default settings is the one
that is made without settings. -/
theorem removal_deletes_spans [CallerTypes] :
    (∀ ds, (∃ n, Normalizer.ofDelimiters ds = .ok n) ↔ ∀ d ∈ ds, d.Marked) ∧
    (∀ ds n, Normalizer.ofDelimiters ds = .ok n →
      n.comments.map Comment.delimiter = ds ∧ ∀ s t,
        (t = (Expression.ofDelimiters ds).deleteOnce s ↔ Comment.Scan n.comments s 0 t) ∧
        ((Expression.ofDelimiters ds).StripsTo s t ↔ t = n.strip s)) ∧
    (∀ s t, Expression.docBlock.deleteOnce s =
        (Expression.ofDelimiters [.docBlock]).deleteOnce s ∧
      (Expression.docBlock.StripsTo s t ↔ t = (default : Normalizer).strip s)) ∧
    Normalizer.ofDelimiters [.docBlock] = .ok default ∧
    ∀ resolvers, Session.ofSettings resolvers {} = .ok (Session.new resolvers) := by
  have hblock : Normalizer.ofDelimiters [.docBlock] = .ok default :=
    Normalizer.ofDelimiters_eq_ok_iff.mpr rfl
  refine ⟨fun ds => Normalizer.ofDelimiters_succeeds_iff, ?_, ?_, hblock, ?_⟩
  · intro ds n hn
    obtain rfl := Normalizer.ofDelimiters_eq_ok_iff.mp hn
    have hfinds := Expression.finds_ofDelimiters n.comments
    refine ⟨rfl, fun s t => ⟨?_, hfinds.stripsTo_iff⟩⟩
    rw [hfinds.deleteOnce_eq, Comment.scan_iff, List.drop_zero]
  · intro s t
    have hfinds := Expression.finds_ofDelimiters [.docBlock]
    refine ⟨?_, Expression.finds_docBlock.stripsTo_iff⟩
    rw [Expression.finds_docBlock.deleteOnce_eq]
    exact (hfinds.deleteOnce_eq s).symm
  · intro resolvers
    have hchecked : ({} : Settings).checked = .ok {} := by
      rw [Settings.checked, if_neg (by decide), if_neg (by decide), if_neg (by decide)]
    rw [Session.ofSettings_of_checked hchecked]
    change (Normalizer.ofDelimiters [.docBlock]).mapError .emptyMarker >>= _ = _
    rw [hblock]
    rfl

/-- Two delimiters, the first with a character of several bytes: its comments `€*€` close inside
their opening marker. -/
theorem removal_deletes_spans_overlapping :
    let ds : List Delimiter := [⟨"€*", "*€"⟩, ⟨"ab", "b"⟩]
    let s := "x€*€*€yab-b€*".toList
    let t := "x*€y€*".toList
    ∃ n, Normalizer.ofDelimiters ds = .ok n ∧ n.comments.map Comment.delimiter = ds ∧
      t = (Expression.ofDelimiters ds).deleteOnce s ∧ Comment.Scan n.comments s 0 t ∧
        (Expression.ofDelimiters ds).StripsTo s (n.strip s) := by
  intro ds s t
  obtain ⟨n, hn⟩ := (removal_deletes_spans.1 ds).mpr (by decide)
  obtain ⟨hcomments, hspans⟩ := removal_deletes_spans.2.1 ds n hn
  have hdeleted : t = (Expression.ofDelimiters ds).deleteOnce s := by decide +kernel
  exact ⟨n, hn, hcomments, hdeleted, (hspans s t).1.mp hdeleted, (hspans s _).2.mpr rfl⟩

end Galley
