import Galley.Text.Blank
import Galley.Text.Quoted

/-!
Comments and their removal.

A comment starts with an opening marker and ends with the first closing marker
behind it. The closing marker may share characters with the opening one as long
as it ends behind it. `Comment.after?` is what is left of a text behind a
comment at its front, `removeOnce` deletes the leftmost comments in one go, and
`removeAll` repeats this until none is left.
-/

namespace Galley

/-- The markers of a comment as a setting gives them. -/
structure Delimiter where
  opening : String
  closing : String
  deriving DecidableEq, Inhabited

namespace Delimiter

/-- The delimiter of documentation blocks. -/
def docBlock : Delimiter := ⟨"/**", "*/"⟩

def shown (d : Delimiter) : String :=
  Text.recorded "CommentDelimiter"
    [("open", Text.quoted d.opening), ("close", Text.quoted d.closing)]

end Delimiter

/-- A kind of comment: two markers that are not empty. -/
structure Comment where
  opening : List Char
  closing : List Char
  opening_ne : opening ≠ []
  closing_ne : closing ≠ []
  deriving DecidableEq

namespace Comment

/-- The kind of comment of a delimiter; nothing when a marker is empty. -/
def ofDelimiter? (d : Delimiter) : Option Comment :=
  if h : d.opening.toList ≠ [] ∧ d.closing.toList ≠ [] then
    some ⟨d.opening.toList, d.closing.toList, h.1, h.2⟩
  else none

def docBlock : Comment :=
  ⟨['/', '*', '*'], ['*', '/'], by simp, by simp⟩

/-! ### One comment -/

/-- What is left behind the first occurrence of a block. -/
def afterFirst? (block : List Char) : List Char → Option (List Char)
  | [] => Text.dropPrefix? block []
  | c :: cs =>
    match Text.dropPrefix? block (c :: cs) with
    | some rest => some rest
    | none => afterFirst? block cs

/-- The rests of the closing marker that close a comment right behind its opening
marker, the shortest first: the closing marker without a front that ends the
opening marker. -/
def sharedRests (c : Comment) : List (List Char) :=
  ((List.range (min c.closing.length c.opening.length)).reverse.filter fun k =>
    0 < k && (c.closing.take k).isSuffixOf c.opening).map fun k => c.closing.drop k

def after? (c : Comment) (s : List Char) : Option (List Char) :=
  match Text.dropPrefix? c.opening s with
  | none => none
  | some rest =>
    match c.sharedRests.findSome? fun shared => Text.dropPrefix? shared rest with
    | some behind => some behind
    | none => afterFirst? c.closing rest

/-- What is left behind the first kind of comment that a text starts with. -/
def afterAny? (comments : List Comment) (s : List Char) : Option (List Char) :=
  comments.findSome? fun c => c.after? s

/-! ### Lengths -/

theorem length_of_dropPrefix? {block s rest : List Char}
    (h : Text.dropPrefix? block s = some rest) : s.length = block.length + rest.length := by
  induction block generalizing s with
  | nil => simp_all [Text.dropPrefix?]
  | cons b bs ih =>
    cases s with
    | nil => simp [Text.dropPrefix?] at h
    | cons c cs =>
      simp only [Text.dropPrefix?] at h
      split at h
      · simp [ih h]
        omega
      · simp at h

theorem length_afterFirst? {block s rest : List Char}
    (h : afterFirst? block s = some rest) : rest.length ≤ s.length := by
  induction s with
  | nil =>
    have := length_of_dropPrefix? (show Text.dropPrefix? block [] = some rest from h)
    simp only [List.length_nil] at this ⊢
    omega
  | cons c cs ih =>
    simp only [afterFirst?] at h
    split at h
    · rename_i r hr
      have := length_of_dropPrefix? hr
      cases h
      omega
    · have := ih h
      simp
      omega

/-- A comment is not empty. -/
theorem length_after?_lt {c : Comment} {s rest : List Char}
    (h : c.after? s = some rest) : rest.length < s.length := by
  have hpos : 0 < c.opening.length := List.length_pos_iff.2 c.opening_ne
  simp only [after?] at h
  split at h
  · simp at h
  · rename_i r hr
    have hr := length_of_dropPrefix? hr
    split at h
    · rename_i b hb
      obtain ⟨shared, _, hs⟩ := List.exists_of_findSome?_eq_some hb
      have := length_of_dropPrefix? hs
      cases h
      omega
    · have := length_afterFirst? h
      omega

theorem length_afterAny?_lt {comments : List Comment} {s rest : List Char}
    (h : afterAny? comments s = some rest) : rest.length < s.length := by
  obtain ⟨c, _, hc⟩ := List.exists_of_findSome?_eq_some h
  exact length_after?_lt hc

/-! ### All comments -/

/-- Deletes the leftmost comments, each behind the one before. -/
def removeOnce (comments : List Comment) : List Char → List Char
  | [] => []
  | c :: cs =>
    match _h : afterAny? comments (c :: cs) with
    | some rest => removeOnce comments rest
    | none => c :: removeOnce comments cs
termination_by s => s.length
decreasing_by
  · exact length_afterAny?_lt _h
  · simp

/-- Deletes comments until none is left. -/
def removeAll (comments : List Comment) (s : List Char) : List Char :=
  let once := removeOnce comments s
  if once.length < s.length then removeAll comments once else s
termination_by s.length

end Comment

end Galley
