import Galley.Files.Tree

/-!
Texts of paths.

A path is read in pieces between slashes (`pathPieces_append_slash`). Its parts are those of
its pieces, behind a slash or a dot at the front (`FilePath.parts_named`), so that a name
appended to a path is one part more (`FilePath.parts_joinText`). The parts tell where the path
leads (`FilePath.foldl_nextNames_parts`).
-/

namespace Galley

/-! ### Pieces of paths -/

theorem pathPieces_ne_nil (cs : List Char) : pathPieces cs ≠ [] := by
  cases cs with
  | nil => simp [pathPieces]
  | cons c cs =>
      rw [pathPieces]
      split
      · simp
      · split <;> simp

theorem pathPieces_append_slash (front back : List Char) :
    pathPieces (front ++ '/' :: back) = pathPieces front ++ pathPieces back := by
  induction front with
  | nil => simp [pathPieces]
  | cons c front ih =>
      rw [List.cons_append, pathPieces, pathPieces, ih]
      split
      · rfl
      · cases h : pathPieces front with
        | nil => exact absurd h (pathPieces_ne_nil front)
        | cons p ps => rfl

theorem pathPieces_of_no_slash {cs : List Char} (h : '/' ∉ cs) : pathPieces cs = [cs] := by
  induction cs with
  | nil => rfl
  | cons c cs ih =>
      obtain ⟨hc, hcs⟩ := not_or.mp (mt List.mem_cons.mpr h)
      rw [pathPieces, if_neg (Ne.symm hc), ih hcs]

/-- A name that a file or directory can have. -/
structure IsFileName (name : String) : Prop where
  /-- It is not empty, and neither one dot nor two. -/
  part : PathPart.ofPiece? name.toList = some (.name name)
  noSlash : '/' ∉ name.toList
  noZero : '\x00' ∉ name.toList
  short : name.utf8ByteSize ≤ FileTree.nameLimit

namespace FilePath

variable {text name : String}

/-- A name is appended behind a slash, which may stand there already. -/
theorem toList_joinText (text name : String) :
    (text = "" ∧ joinText text name = name) ∨
    ∃ front : List Char, (text.toList = front ∨ text.toList = front ++ ['/']) ∧
      text ≠ "" ∧ (joinText text name).toList = front ++ '/' :: name.toList := by
  rw [joinText]
  split
  · rename_i hlast
    exact .inl ⟨String.toList_eq_nil_iff.mp (List.getLast?_eq_none_iff.mp hlast), rfl⟩
  · rename_i hlast
    obtain ⟨front, hfront⟩ := List.getLast?_eq_some_iff.mp hlast
    exact .inr ⟨front, .inr hfront, by rintro rfl; simp at hfront, by simp [hfront]⟩
  · rename_i hlast
    exact .inr ⟨text.toList, .inl rfl, by rintro rfl; simp at hlast, by simp⟩

/-- The pieces of a text with a name appended. -/
theorem pathPieces_joinText (hname : IsFileName name) (htext : text ≠ "") :
    ∃ front, front ≠ [] ∧
      (pathPieces text.toList = front ∨ pathPieces text.toList = front ++ [[]]) ∧
      pathPieces (joinText text name).toList = front ++ [name.toList] := by
  rcases toList_joinText text name with ⟨hempty, -⟩ | ⟨front, hfront, -, hjoin⟩
  · exact absurd hempty htext
  · refine ⟨pathPieces front, pathPieces_ne_nil front, ?_, ?_⟩
    · rcases hfront with hfront | hfront
      · exact .inl (by rw [hfront])
      · exact .inr (by rw [hfront, pathPieces_append_slash]; rfl)
    · rw [hjoin, pathPieces_append_slash, pathPieces_of_no_slash hname.noSlash]

theorem head?_joinText (htext : text ≠ "") :
    (joinText text name).toList.head? = text.toList.head? := by
  rcases toList_joinText text name with ⟨hempty, -⟩ | ⟨front, hfront, -, hjoin⟩
  · exact absurd hempty htext
  · rw [hjoin]
    rcases hfront with hfront | hfront <;> rw [hfront] <;> cases front <;> simp_all

theorem joinText_ne_empty (htext : text ≠ "") : joinText text name ≠ "" := by
  intro hjoin
  have hhead : (joinText text name).toList.head? = text.toList.head? := head?_joinText htext
  rw [hjoin] at hhead
  exact htext (String.toList_eq_nil_iff.mp (List.head?_eq_none_iff.mp hhead.symm))

/-- The parts of a path are those of its pieces, behind a slash or a dot at the front. -/
theorem parts_named (text : String) :
    (named text).parts =
      (if text.toList.head? = some '/' then [.root]
        else if (pathPieces text.toList).head? = some ['.'] then [.here] else []) ++
      (pathPieces text.toList).filterMap PathPart.ofPiece? := by
  rw [parts]
  congr 1
  split
  · rename_i hslash
    simp [hslash]
  · rename_i hdot hslash
    have hhead : text.toList.head? ≠ some '/' := fun h =>
      hslash _ (List.head?_eq_some_iff.mp h).choose_spec
    simp [hhead, hdot]
  · rename_i hslash hdot
    have hhead : text.toList.head? ≠ some '/' := fun h =>
      hslash _ (List.head?_eq_some_iff.mp h).choose_spec
    have hpiece : (pathPieces text.toList).head? ≠ some ['.'] := fun h =>
      hdot _ (List.head?_eq_some_iff.mp h).choose_spec
    simp [hhead, hpiece]

/-- A name appended to a path is one part more. -/
theorem parts_joinText (hname : IsFileName name) (htext : text ≠ "") :
    (named (joinText text name)).parts = (named text).parts ++ [.name name] := by
  obtain ⟨front, hne, hpieces, hjoin⟩ := pathPieces_joinText hname htext
  have hfirst : (front ++ [name.toList]).head? = (pathPieces text.toList).head? := by
    obtain ⟨piece, rest, rfl⟩ := List.exists_cons_of_ne_nil hne
    rcases hpieces with hpieces | hpieces <;> rw [hpieces] <;> rfl
  have hparts : (front ++ [name.toList]).filterMap PathPart.ofPiece? =
      (pathPieces text.toList).filterMap PathPart.ofPiece? ++ [.name name] := by
    have hlast : [name.toList].filterMap PathPart.ofPiece? = [.name name] := by
      rw [List.filterMap_cons_some hname.part, List.filterMap_nil]
    rw [List.filterMap_append, hlast]
    rcases hpieces with hpieces | hpieces <;> rw [hpieces]
    simp [PathPart.ofPiece?]
  rw [parts_named, parts_named, head?_joinText htext, hjoin, hfirst, hparts, List.append_assoc]

/-- A piece of a path leads up, or it is a name, or it does not count. -/
theorem ofPiece?_cases (piece : List Char) :
    PathPart.ofPiece? piece = none ∨ PathPart.ofPiece? piece = some .up ∨
      ∃ s, PathPart.ofPiece? piece = some (.name s) := by
  rw [PathPart.ofPiece?]
  split
  · exact .inl rfl
  · split
    · exact .inr (.inl rfl)
    · exact .inr (.inr ⟨_, rfl⟩)

theorem scratch_notMem_parts (text : String) (serial : Nat) :
    .scratch serial ∉ (named text).parts := by
  rw [parts_named, List.mem_append, not_or]
  constructor
  · split
    · simp
    · split <;> simp
  · rw [List.mem_filterMap]
    rintro ⟨piece, -, hpiece⟩
    rcases ofPiece?_cases piece with hnone | hup | ⟨s, hname⟩ <;> simp_all

/-! ### Where paths lead -/

theorem foldl_nextNames (front names : List String) :
    (names.map PathPart.name).foldl nextNames front = front ++ names := by
  induction names generalizing front with
  | nil => simp
  | cons name names ih => simp [ih, nextNames]

/-- A path that starts with a slash leads from the root, and any other from a directory. -/
theorem foldl_nextNames_parts (home : List String) (text : String) :
    (named text).parts.foldl nextNames home =
      ((pathPieces text.toList).filterMap PathPart.ofPiece?).foldl nextNames
        (if text.toList.head? = some '/' then [] else home) := by
  rw [parts_named, List.foldl_append]
  split
  · rfl
  · split <;> rfl

end FilePath

end Galley
