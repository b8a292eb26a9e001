import Galley.Proofs.CommentRemoval
import Galley.Proofs.Lines

/-!
Texts that differ in insignificant blanks.

`Respaced s t` says that two texts differ only in the blanks in front of their line
feeds, blank lines included, and in blanks at their ends. Such a gap holds a line feed
on both sides and no character of a marker, so a comment covers it in both texts or in
none: one pass of removal, and so all of them, keep the texts respaced
(`removeOnce_respaced`, `removeAll_respaced`), also where pieces of different lines join
to a new comment. And respaced texts have the same lines of content
(`contentLines_eq_of_respaced`, `contentLines_strip_of_respaced`).
-/

namespace Galley

open Text

namespace Text

def AllBlank (s : List Char) : Prop :=
  ∀ c ∈ s, isBlank c = true

def NoBlank (s : List Char) : Prop :=
  ∀ c ∈ s, isBlank c = false

instance (s : List Char) : Decidable (AllBlank s) :=
  List.decidableBAll _ s

instance (s : List Char) : Decidable (NoBlank s) :=
  List.decidableBAll _ s

theorem AllBlank.nil : AllBlank [] :=
  List.forall_mem_nil _

theorem AllBlank.append {s t : List Char} (hs : AllBlank s) (ht : AllBlank t) :
    AllBlank (s ++ t) :=
  List.forall_mem_append.mpr ⟨hs, ht⟩

theorem allBlank_newline : AllBlank ['\n'] := by
  decide

theorem allBlank_append_newline {v : List Char} (hv : AllBlank v) : AllBlank (v ++ ['\n']) :=
  hv.append allBlank_newline

/-! ### Respaced texts -/

/-- The two texts differ in the blanks in front of their line feeds, with whole lines of
blanks among them, and in blanks at their ends. -/
inductive Respaced : List Char → List Char → Prop where
  | ends {v w : List Char} : AllBlank v → AllBlank w → Respaced v w
  | keep (c : Char) {s t : List Char} : Respaced s t → Respaced (c :: s) (c :: t)
  | gap {v w s t : List Char} : AllBlank v → AllBlank w → Respaced s t →
      Respaced (v ++ '\n' :: s) (w ++ '\n' :: t)

namespace Respaced

variable {s t : List Char}

theorem symm (h : Respaced s t) : Respaced t s := by
  induction h with
  | ends hv hw => exact .ends hw hv
  | keep c _ ih => exact .keep c ih
  | gap hv hw _ ih => exact .gap hw hv ih

theorem append_left (l : List Char) (h : Respaced s t) : Respaced (l ++ s) (l ++ t) := by
  induction l with
  | nil => exact h
  | cons c l ih => exact .keep c ih

/-- In front of a line feed there may be more blanks. -/
theorem widen {w : List Char} (h : Respaced s ('\n' :: t)) (hw : AllBlank w) :
    Respaced s (w ++ '\n' :: t) := by
  generalize ht : '\n' :: t = t' at h
  cases h with
  | ends hv hw' =>
      subst ht
      exact .ends hv (hw.append hw')
  | keep c h =>
      cases ht
      exact .gap .nil hw h
  | gap hv hw' h =>
      rw [← List.append_assoc]
      exact .gap hv (hw.append hw') h

/-- A text respaced to one of blanks only holds only blanks. -/
theorem allBlank (h : Respaced s t) (hs : AllBlank s) : AllBlank t := by
  induction h with
  | ends _ hw => exact hw
  | keep c _ ih =>
      obtain ⟨hc, hs⟩ := List.forall_mem_cons.mp hs
      exact List.forall_mem_cons.mpr ⟨hc, ih hs⟩
  | gap _ hw _ ih =>
      obtain ⟨-, hs⟩ := List.forall_mem_append.mp hs
      obtain ⟨hfeed, hs⟩ := List.forall_mem_cons.mp hs
      exact hw.append (List.forall_mem_cons.mpr ⟨hfeed, ih hs⟩)

end Respaced

end Text

namespace Comment

/-! ### Markers in respaced texts -/

/-- The markers hold no blank. -/
def Solid (c : Comment) : Prop :=
  NoBlank c.opening ∧ NoBlank c.closing

instance (c : Comment) : Decidable c.Solid :=
  inferInstanceAs (Decidable (NoBlank c.opening ∧ NoBlank c.closing))

section Markers

variable {block s t : List Char}

/-- A block without blanks does not start where a blank or nothing stands. -/
theorem dropPrefix?_of_blank (hne : block ≠ []) (hblock : NoBlank block)
    (hs : ∀ c, s.head? = some c → isBlank c = true) : dropPrefix? block s = none := by
  obtain ⟨b, block, rfl⟩ := List.exists_cons_of_ne_nil hne
  rw [dropPrefix?_eq_none_iff]
  rintro ⟨rest, rfl⟩
  have hb : isBlank b = false := hblock b List.mem_cons_self
  exact Bool.false_ne_true (hb.symm.trans (hs b rfl))

theorem afterFirst?_cons (block : List Char) (c : Char) (s : List Char) :
    afterFirst? block (c :: s) = (dropPrefix? block (c :: s)).or (afterFirst? block s) := by
  rw [afterFirst?]
  cases dropPrefix? block (c :: s) <;> rfl

/-- A block without blanks is not found before the blanks at the front end. -/
theorem afterFirst?_blanks_append {v : List Char} (hne : block ≠ []) (hblock : NoBlank block)
    (hv : AllBlank v) (s : List Char) : afterFirst? block (v ++ s) = afterFirst? block s := by
  induction v with
  | nil => rfl
  | cons c v ih =>
      obtain ⟨hc, hv⟩ := List.forall_mem_cons.mp hv
      have hnone : dropPrefix? block (c :: (v ++ s)) = none :=
        dropPrefix?_of_blank hne hblock (by simpa using hc)
      rw [List.cons_append, afterFirst?_cons, hnone, ih hv]
      rfl

theorem afterFirst?_of_allBlank (hne : block ≠ []) (hblock : NoBlank block) (hs : AllBlank s) :
    afterFirst? block s = none := by
  have h := afterFirst?_blanks_append hne hblock hs []
  rw [List.append_nil] at h
  rw [h, afterFirst?]
  exact dropPrefix?_of_blank hne hblock (by simp)

/-- The front of a respaced text holds a block without blanks when the text does. -/
theorem dropPrefix?_respaced (h : Respaced s t) (hblock : NoBlank block) :
    (dropPrefix? block s).Rel Respaced (dropPrefix? block t) := by
  induction block generalizing s t with
  | nil => exact .some h
  | cons b block ih =>
      obtain ⟨hb, hrest⟩ := List.forall_mem_cons.mp hblock
      cases h with
      | ends hv hw =>
          rw [dropPrefix?_of_blank (by simp) hblock fun c hc => hv c (List.mem_of_mem_head? hc),
            dropPrefix?_of_blank (by simp) hblock fun c hc => hw c (List.mem_of_mem_head? hc)]
          exact .none
      | keep c h =>
          rw [dropPrefix?, dropPrefix?]
          split
          · exact ih h hrest
          · exact .none
      | @gap v w s t hv hw h =>
          -- Both texts go on with a blank, if only the line feed, and no block starts with one.
          have hfront : ∀ u, AllBlank u → ∀ (r : List Char) (c : Char),
              (u ++ '\n' :: r).head? = some c → isBlank c = true := by
            intro u hu r c hc
            cases u with
            | nil =>
                cases hc
                rfl
            | cons d u =>
                cases hc
                exact hu c List.mem_cons_self
          rw [dropPrefix?_of_blank (by simp) hblock (hfront v hv s),
            dropPrefix?_of_blank (by simp) hblock (hfront w hw t)]
          exact .none

/-- What stands behind the first occurrence of a block without blanks is respaced. -/
theorem afterFirst?_respaced (h : Respaced s t) (hne : block ≠ []) (hblock : NoBlank block) :
    (afterFirst? block s).Rel Respaced (afterFirst? block t) := by
  induction h with
  | ends hv hw =>
      rw [afterFirst?_of_allBlank hne hblock hv, afterFirst?_of_allBlank hne hblock hw]
      exact .none
  | @keep c s t h ih =>
      rw [afterFirst?_cons, afterFirst?_cons]
      have hfront := dropPrefix?_respaced (.keep c h) hblock
      generalize dropPrefix? block (c :: s) = x at hfront ⊢
      generalize dropPrefix? block (c :: t) = y at hfront ⊢
      cases hfront with
      | some hrest => exact .some hrest
      | none => exact ih
  | @gap v w s t hv hw _ ih =>
      have hskip : ∀ u, AllBlank u → ∀ r : List Char,
          afterFirst? block (u ++ '\n' :: r) = afterFirst? block r := by
        intro u hu r
        have := afterFirst?_blanks_append hne hblock (allBlank_append_newline hu) r
        rwa [List.append_assoc] at this
      rw [hskip v hv, hskip w hw]
      exact ih

end Markers

/-! ### Comments in respaced texts -/

section Comments

variable {s t : List Char} {comments : List Comment}

/-- Searches that are related item by item come to related outcomes. -/
theorem findSome?_rel {α β : Type} {R : β → β → Prop} {f g : α → Option β} {xs : List α}
    (h : ∀ x ∈ xs, (f x).Rel R (g x)) : (xs.findSome? f).Rel R (xs.findSome? g) := by
  induction xs with
  | nil => exact .none
  | cons x xs ih =>
      obtain ⟨hx, hxs⟩ := List.forall_mem_cons.mp h
      rw [List.findSome?_cons, List.findSome?_cons]
      generalize f x = y at hx ⊢
      generalize g x = z at hx ⊢
      cases hx with
      | some hrest => exact .some hrest
      | none => exact ih hxs

theorem noBlank_of_mem_sharedRests {c : Comment} (hc : c.Solid) {shared : List Char}
    (h : shared ∈ c.sharedRests) : NoBlank shared := by
  obtain ⟨k, -, rfl⟩ := List.mem_map.mp h
  intro d hd
  exact hc.2 d ((List.drop_subset k c.closing) hd)

/-- A comment at the front of a text is one at the front of a respaced text. -/
theorem after?_respaced {c : Comment} (hc : c.Solid) (h : Respaced s t) :
    (c.after? s).Rel Respaced (c.after? t) := by
  rw [after?, after?]
  have hopening := dropPrefix?_respaced h hc.1
  generalize dropPrefix? c.opening s = x at hopening ⊢
  generalize dropPrefix? c.opening t = y at hopening ⊢
  cases hopening with
  | none => exact .none
  | @some s' t' h' =>
      have hshared : (c.sharedRests.findSome? fun shared => dropPrefix? shared s').Rel Respaced
          (c.sharedRests.findSome? fun shared => dropPrefix? shared t') :=
        findSome?_rel fun shared hmem =>
          dropPrefix?_respaced h' (noBlank_of_mem_sharedRests hc hmem)
      dsimp only
      generalize (c.sharedRests.findSome? fun shared => dropPrefix? shared s') = x at hshared ⊢
      generalize (c.sharedRests.findSome? fun shared => dropPrefix? shared t') = y at hshared ⊢
      cases hshared with
      | some hrest => exact .some hrest
      | none => exact afterFirst?_respaced h' c.closing_ne hc.2

theorem afterAny?_respaced (hcomments : ∀ c ∈ comments, c.Solid) (h : Respaced s t) :
    (afterAny? comments s).Rel Respaced (afterAny? comments t) :=
  findSome?_rel fun c hc => after?_respaced (hcomments c hc) h

/-- No comment starts at a blank. -/
theorem afterAny?_of_blank (hcomments : ∀ c ∈ comments, c.Solid) {c : Char}
    (hc : isBlank c = true) (s : List Char) : afterAny? comments (c :: s) = none := by
  apply afterAny?_eq_none
  intro d hd
  rw [← dropPrefix?_eq_none_iff]
  exact dropPrefix?_of_blank d.opening_ne (hcomments d hd).1 (by simpa using hc)

/-- A pass keeps the blanks at the front. -/
theorem removeOnce_blanks_append (hcomments : ∀ c ∈ comments, c.Solid) {v : List Char}
    (hv : AllBlank v) (s : List Char) :
    removeOnce comments (v ++ s) = v ++ removeOnce comments s := by
  induction v with
  | nil => rfl
  | cons c v ih =>
      obtain ⟨hc, hv⟩ := List.forall_mem_cons.mp hv
      rw [List.cons_append, removeOnce_of_none (afterAny?_of_blank hcomments hc _), ih hv]
      rfl

theorem removeOnce_of_allBlank (hcomments : ∀ c ∈ comments, c.Solid) (hs : AllBlank s) :
    removeOnce comments s = s := by
  have h := removeOnce_blanks_append hcomments hs []
  rwa [removeOnce_nil, List.append_nil] at h

theorem removeOnce_gap (hcomments : ∀ c ∈ comments, c.Solid) {v : List Char} (hv : AllBlank v)
    (s : List Char) :
    removeOnce comments (v ++ '\n' :: s) = v ++ '\n' :: removeOnce comments s := by
  have h := removeOnce_blanks_append hcomments (allBlank_append_newline hv) s
  rwa [List.append_assoc, List.append_assoc] at h

/-- One pass keeps texts respaced, and it changes both or none. The induction is on the
length, as a comment may end in the middle of what follows. -/
theorem removeOnce_respaced (hcomments : ∀ c ∈ comments, c.Solid) (h : Respaced s t) :
    Respaced (removeOnce comments s) (removeOnce comments t) ∧
      (removeOnce comments s = s → removeOnce comments t = t) := by
  induction hlength : s.length using Nat.strong_induction_on generalizing s t with
  | _ length ih =>
      cases h with
      | ends hv hw =>
          rw [removeOnce_of_allBlank hcomments hv, removeOnce_of_allBlank hcomments hw]
          exact ⟨.ends hv hw, fun _ => rfl⟩
      | @keep c s t h =>
          have hany := afterAny?_respaced hcomments (.keep c h)
          generalize hs : afterAny? comments (c :: s) = found at hany
          generalize ht : afterAny? comments (c :: t) = found' at hany
          cases hany with
          | some hrest =>
              -- Both texts lose a comment here, so neither stays as it was.
              have hlt := length_afterAny?_lt hs
              rw [removeOnce_of_some hs, removeOnce_of_some ht]
              refine ⟨(ih _ (hlength ▸ hlt) hrest rfl).1, fun hsame => ?_⟩
              rw [← removeOnce_of_some hs] at hsame
              exact absurd hsame (removeOnce_ne_of_some hs)
          | none =>
              have hlt : s.length < length := by simp [← hlength]
              obtain ⟨hrest, hsame⟩ := ih _ hlt h rfl
              rw [removeOnce_of_none hs, removeOnce_of_none ht]
              refine ⟨.keep c hrest, fun heq => ?_⟩
              rw [hsame (List.cons.inj heq).2]
      | @gap v w s t hv hw h =>
          have hlt : s.length < length := by
            rw [← hlength, List.length_append, List.length_cons]
            omega
          obtain ⟨hrest, hsame⟩ := ih _ hlt h rfl
          rw [removeOnce_gap hcomments hv, removeOnce_gap hcomments hw]
          refine ⟨.gap hv hw hrest, fun heq => ?_⟩
          have htail := List.append_cancel_left heq
          rw [hsame (List.cons.inj htail).2]

/-- All passes keep texts respaced. -/
theorem removeAll_respaced (hcomments : ∀ c ∈ comments, c.Solid) (h : Respaced s t) :
    Respaced (removeAll comments s) (removeAll comments t) := by
  induction hlength : s.length using Nat.strong_induction_on generalizing s t with
  | _ length ih =>
      obtain ⟨honce, hsame⟩ := removeOnce_respaced hcomments h
      obtain ⟨-, hback⟩ := removeOnce_respaced hcomments h.symm
      by_cases hs : removeOnce comments s = s
      · rw [removeAll_of_eq hs, removeAll_of_eq (hsame hs)]
        exact h
      · have ht : removeOnce comments t ≠ t := fun ht => hs (hback ht)
        rw [removeAll_of_ne hs, removeAll_of_ne ht]
        exact ih _ (hlength ▸ length_removeOnce_lt hs) honce rfl

/-- No pass touches the blanks at the front. -/
theorem removeAll_blanks_append (hcomments : ∀ c ∈ comments, c.Solid) {v : List Char}
    (hv : AllBlank v) (s : List Char) :
    removeAll comments (v ++ s) = v ++ removeAll comments s := by
  induction hlength : s.length using Nat.strong_induction_on generalizing s with
  | _ length ih =>
      have honce := removeOnce_blanks_append hcomments hv s
      by_cases hs : removeOnce comments s = s
      · rw [removeAll_of_eq hs, removeAll_of_eq (by rw [honce, hs])]
      · have hne : removeOnce comments (v ++ s) ≠ v ++ s := by
          intro heq
          rw [honce] at heq
          exact hs (List.append_cancel_left heq)
        rw [removeAll_of_ne hs, removeAll_of_ne hne, honce]
        exact ih _ (hlength ▸ length_removeOnce_lt hs) _ rfl

end Comments

end Comment

namespace Normalizer

open Comment

/-! ### Lines of content -/

theorem contentLines_append_blanks (front : List Char) {v : List Char} (hv : AllBlank v) :
    contentLines (front ++ v) = contentLines front := by
  induction v generalizing front with
  | nil => rw [List.append_nil]
  | cons c v ih =>
      obtain ⟨hc, hv⟩ := List.forall_mem_cons.mp hv
      by_cases hfeed : c = '\n'
      · have hnone : contentLines v = [] := ih [] hv
        rw [hfeed, contentLines_append_newline, hnone, List.append_nil]
      · have hsplit := ih (front ++ [c]) hv
        rw [List.append_assoc, List.singleton_append] at hsplit
        rw [hsplit]
        exact contentLines_concat front hc hfeed

/-- Respaced texts have the same lines of content, whatever stands in front of them. -/
theorem contentLines_eq_of_respaced {s t : List Char} (h : Respaced s t) (front : List Char) :
    contentLines (front ++ s) = contentLines (front ++ t) := by
  induction h generalizing front with
  | ends hv hw => rw [contentLines_append_blanks front hv, contentLines_append_blanks front hw]
  | keep c _ ih =>
      have hrest := ih (front ++ [c])
      rwa [List.append_assoc, List.append_assoc] at hrest
  | @gap v w s t hv hw _ ih =>
      have hrest : contentLines s = contentLines t := ih []
      rw [← List.append_assoc, ← List.append_assoc, contentLines_append_newline,
        contentLines_append_newline, contentLines_append_blanks front hv,
        contentLines_append_blanks front hw, hrest]

/-- Texts that are respaced behind a line feed have the same lines in their normal forms. -/
theorem contentLines_strip_of_respaced {n : Normalizer} (hn : ∀ c ∈ n.comments, c.Solid)
    {s t : List Char} (h : Respaced ('\n' :: s) ('\n' :: t)) :
    contentLines (n.strip s) = contentLines (n.strip t) := by
  have hdrop : ∀ u, contentLines (removeAll n.comments ('\n' :: u)) = contentLines (n.strip u) := by
    intro u
    have hkeep := removeAll_blanks_append hn allBlank_newline u
    have hline := contentLines_append_newline [] (removeAll n.comments u)
    rw [List.singleton_append] at hkeep
    rw [hkeep]
    exact hline
  rw [← hdrop s, ← hdrop t]
  exact contentLines_eq_of_respaced (removeAll_respaced hn h) []

end Normalizer

end Galley
