import Galley.Json.Reader
import Galley.Template.Syntax
import Galley.Text.Blank

/-!
Reading paths, literals and invocations.

A reader takes the front of a text and returns what it read with the rest. A
path is tried after a literal, so that `5` is a number and `5a` a path. The
fuel of the nested readers bounds the nesting and the number of arguments; the
length of the text is always enough.
-/

namespace Galley.Template

/-! ### Characters -/

def isGap (c : Char) : Bool :=
  c == ' ' || c == '\t' || c == '\n' || c == '\r'

def skipGap (s : List Char) : List Char :=
  s.dropWhile isGap

/-- The characters of a word; beyond ASCII every character is one. -/
def isWordChar (c : Char) : Bool :=
  c.isAlphanum || c == '_' || c == '-' || c == '$' || 0x7F < c.toNat

/-- The characters of the name of a kept template. -/
def isNameChar (c : Char) : Bool :=
  c.isAlphanum || c == '_' || c == '-' || c == '/' || c == '.' || 0x7F < c.toNat

def atWordEnd : List Char → Bool
  | [] => true
  | c :: _ => !isWordChar c

/-- What `rest` leaves of a text that ends with it. -/
def before (s rest : List Char) : List Char :=
  s.take (s.length - rest.length)

/-- Removes an expected character behind white space. -/
def dropMark? (c : Char) (s : List Char) : Option (List Char) :=
  Text.dropPrefix? [c] (skipGap s)

def readWord? (s : List Char) : Option (List Char × List Char) :=
  match s.span isWordChar with
  | ([], _) => none
  | word => some word

/-! ### Paths -/

/-- Removes the sign between two steps of a path. -/
def dropStep? : List Char → Option (List Char)
  | '.' :: s | '/' :: s => some s
  | _ => none

/-- One name in a path: a word, or any characters in square brackets. -/
def readName? (s : List Char) : Option (List Char × List Char) :=
  match s with
  | '[' :: s =>
    match s.span (· ≠ ']') with
    | (name, ']' :: rest) => some (name, rest)
    | _ => none
  | s => readWord? s

/-- The further names of a path. -/
def readNames : Nat → List Char → List (List Char) × List Char
  | 0, s => ([], s)
  | n + 1, s =>
    match (dropStep? s).bind readName? with
    | none => ([], s)
    | some (name, rest) =>
      let (names, rest) := readNames n rest
      (name :: names, rest)

/-- The steps out of blocks at the front of a path. -/
def readUps : Nat → List Char → Nat × List Char
  | 0, s => (0, s)
  | n + 1, s =>
    match (Text.dropPrefix? ['.', '.'] s).bind dropStep? with
    | none => (0, s)
    | some rest =>
      let (ups, rest) := readUps n rest
      (ups + 1, rest)

/-- Removes a keyword and the sign behind it from the front of a path. -/
def dropKeyword? (keyword : String) (s : List Char) : Option (List Char) :=
  (Text.dropPrefix? keyword.toList s).bind dropStep?

/-- A path. The name `this` stands for no step at all, and a path of variables
that names none is the current value. -/
def readPath? (s : List Char) : Option (Path × List Char) := do
  let start := ((dropKeyword? "this" s).orElse fun _ => Text.dropPrefix? ['.', '/'] s).getD s
  let (absolute, s₁) := match dropKeyword? "@root" start with
    | some rest => (true, rest)
    | none => (false, start)
  let (marked, s₂) := match s₁ with
    | '@' :: rest => (true, rest)
    | s₁ => (false, s₁)
  let (ups, s₃) := readUps s₂.length s₂
  let (first, s₄) ← readName? s₃
  let (others, rest) := readNames s₄.length s₄
  let names := ((first :: others).map String.ofList).filter (· ≠ "this")
  let isVariable := marked && !absolute && !names.isEmpty
  return ({ text := String.ofList (before s rest), absolute, isVariable,
            ups := if marked && !isVariable then 0 else ups, names }, rest)

/-! ### Literals -/

def skipQuoted? (quote : Char) : List Char → Option (List Char)
  | [] => none
  | '\\' :: c :: rest =>
    if c = quote || c ∈ ['\\', '/', 'b', 'f', 'n', 'r', 't'] then skipQuoted? quote rest
    else
      match c, rest with
      | 'u', d₁ :: d₂ :: d₃ :: d₄ :: rest =>
        if [d₁, d₂, d₃, d₄].all fun d => (Number.digitValue? 16 d).isSome then
          skipQuoted? quote rest
        else none
      | _, _ => none
  | c :: rest => if c = quote then some rest else if c = '\\' then none else skipQuoted? quote rest

def skipDigits (s : List Char) : List Char :=
  s.dropWhile Char.isDigit

def skipSomeDigits? : List Char → Option (List Char)
  | c :: rest => if c.isDigit then some (skipDigits rest) else none
  | [] => none

def skipNumber? (s : List Char) : Option (List Char) := do
  let s₁ ← skipSomeDigits? ((Text.dropPrefix? ['-'] s).getD s)
  let s₂ := skipDigits ((Text.dropPrefix? ['.'] s₁).getD s₁)
  let rest := ((Text.dropPrefix? ['E'] s₂).bind fun t =>
    skipSomeDigits? ((Text.dropPrefix? ['-'] t).getD t)).getD s₂
  if atWordEnd rest then some rest else none

def skipKeyword? (keyword : String) (s : List Char) : Option (List Char) :=
  match Text.dropPrefix? keyword.toList s with
  | some rest => if atWordEnd rest then some rest else none
  | none => none

def skipText? : List Char → Option (List Char)
  | '"' :: s => skipQuoted? '"' s
  | '\x27' :: s => skipQuoted? '\x27' s
  | _ => none

mutual

def skipLiteral? : Nat → List Char → Option (List Char)
  | 0, _ => none
  | n + 1, s =>
    match s with
    | '[' :: s =>
      let s := (skipLiteral? n (skipGap s)).getD s
      dropMark? ']' (skipItems n s)
    | '\x7b' :: s =>
      let s := (skipField? n (skipGap s)).getD s
      dropMark? '\x7d' (skipFields n s)
    | s =>
      (skipText? s).orElse fun _ => (skipNumber? s).orElse fun _ =>
        ["null", "true", "false"].findSome? fun k => skipKeyword? k s

def skipItems : Nat → List Char → List Char
  | 0, s => s
  | n + 1, s =>
    match (dropMark? ',' s).bind fun t => skipLiteral? n (skipGap t) with
    | some rest => skipItems n rest
    | none => s

def skipField? : Nat → List Char → Option (List Char)
  | 0, _ => none
  | n + 1, s =>
    ((skipText? s).bind (dropMark? ':')).bind fun t => skipLiteral? n (skipGap t)

def skipFields : Nat → List Char → List Char
  | 0, s => s
  | n + 1, s =>
    match (dropMark? ',' s).bind fun t => skipField? n (skipGap t) with
    | some rest => skipFields n rest
    | none => s

end

/-- The inside of a text in single quotes, as it stands in double quotes. -/
def requote : List Char → List Char
  | [] => []
  | '\\' :: '\x27' :: rest => '\x27' :: requote rest
  | '"' :: rest => '\\' :: '"' :: requote rest
  | c :: rest => c :: requote rest

/-- The value of the text of a literal. -/
def literalValue? (s : List Char) : Option Json :=
  match s with
  | '\x27' :: inner => Json.read? (String.ofList ('"' :: requote inner.dropLast ++ ['"']))
  | s => Json.read? (String.ofList s)

/-- A literal. One that has no value leaves nothing to read, so that no tag with
it is complete. -/
def readLiteral? (s : List Char) : Option (Operand × List Char) :=
  match skipLiteral? (s.length + 1) s with
  | none => none
  | some rest =>
    match literalValue? (before s rest) with
    | some v => some (.literal v, rest)
    | none => some (.literal .null, [])

/-! ### Invocations -/

/-- Whether a keyword stands here that is no operand. -/
def atKeyword (s : List Char) : Bool :=
  ["as", "else"].any fun k =>
    match Text.dropPrefix? k.toList s with
    | some rest => atWordEnd (skipGap rest)
    | none => false

/-- A word as the head of an invocation. -/
def Operand.word (s : List Char) : Operand :=
  .literal (.text (String.ofList s))

/-- A word with an equals sign behind it. -/
def readLabel? (s : List Char) : Option (String × List Char) := do
  let (label, rest) ← readWord? s
  let rest ← dropMark? '=' rest
  return (String.ofList label, skipGap rest)

mutual

def readOperand? : Nat → List Char → Option (Operand × List Char)
  | 0, _ => none
  | n + 1, s =>
    if atKeyword s then none
    else
      (readLiteral? s).orElse fun _ =>
        match readPath? s with
        | some (p, rest) => some (.path p, rest)
        | none => readCall? n s

/-- A call in parentheses: a word with arguments, or a path alone. -/
def readCall? : Nat → List Char → Option (Operand × List Char)
  | 0, _ => none
  | n + 1, s => do
    let inside ← Text.dropPrefix? ['('] s
    let inside := skipGap inside
    let full : Option (Operand × List Char) := do
      let (word, rest) ← readWord? inside
      let (arguments, named, rest) := readArguments n (skipGap rest)
      if arguments.isEmpty && named.isEmpty then none
      else some (.call (.word word) arguments (Fields.ofPairs named), rest)
    let (call, rest) ← full.orElse fun _ =>
      (readPath? inside).map fun (p, rest) => (.call (.path p) [] [], rest)
    return (call, ← dropMark? ')' rest)

def readArguments :
    Nat → List Char → List Operand × List (String × Operand) × List Char
  | 0, s => ([], [], s)
  | n + 1, s =>
    let field : Option (String × Operand × List Char) := do
      let (label, rest) ← readLabel? s
      let (v, rest) ← readOperand? n rest
      return (label, v, rest)
    match field with
    | some (label, v, rest) =>
      let (arguments, named, rest) := readArguments n (skipGap rest)
      (arguments, (label, v) :: named, rest)
    | none =>
      match readOperand? n s with
      | some (v, rest) =>
        let (arguments, named, rest) := readArguments n (skipGap rest)
        (v :: arguments, named, rest)
      | none => ([], [], s)

end

/-- A head that is a path or a call. -/
def readHead? (s : List Char) : Option (Operand × List Char) :=
  (readCall? (s.length + 1) s).orElse fun _ =>
    (readPath? s).map fun (p, rest) => (.path p, rest)

/-- The arguments behind a head. -/
def readApplied (head : Operand) (s : List Char) : Invocation × List Char :=
  let (arguments, named, rest) := readArguments (s.length + 1) (skipGap s)
  ({ head, arguments, named := Fields.ofPairs named }, rest)

def readValue? (s : List Char) : Option (Invocation × List Char) :=
  let full : Option (Invocation × List Char) := do
    let (word, rest) ← readWord? s
    let (i, rest) := readApplied (.word word) rest
    if i.isBare then none else some (i, rest)
  full.orElse fun _ => (readHead? s).map fun (head, rest) => ({ head }, rest)

/-- The names that a block gives to its value and its position. -/
def readParameters? (s : List Char) : Option (List String × List Char) := do
  let s ← Text.dropPrefix? ['a', 's'] (skipGap s)
  let s ← dropMark? '|' s
  let (first, s) ← readWord? (skipGap s)
  let (names, s) := match readWord? (skipGap s) with
    | some (second, s) => ([first, second], s)
    | none => ([first], s)
  return (names.map String.ofList, ← dropMark? '|' s)

/-- The invocation of a block or a decorator: a word, arguments and names. -/
def readBlockHead? (s : List Char) : Option (Invocation × List Char) := do
  let (word, rest) ← readWord? s
  let (i, rest) := readApplied (.word word) rest
  match readParameters? rest with
  | some (parameters, rest) => return ({ i with parameters }, rest)
  | none => return (i, rest)

/-- The inside of a name in single quotes, with the closing quote. -/
def readQuotedName? : List Char → Option (List Char × List Char)
  | [] => none
  | '\x27' :: rest => some (['\x27'], rest)
  | '\\' :: '\x27' :: rest => (readQuotedName? rest).map fun (name, rest) =>
    ('\\' :: '\x27' :: name, rest)
  | c :: rest => (readQuotedName? rest).map fun (name, rest) => (c :: name, rest)

def readTemplateName? (s : List Char) : Option (List Char × List Char) :=
  match s with
  | '\x27' :: '\x27' :: _ => none
  | '\x27' :: rest => (readQuotedName? rest).map fun (name, rest) => ('\x27' :: name, rest)
  | s =>
    match s.span isNameChar with
    | ([], _) => none
    | name => some name

def readInclusion? (s : List Char) : Option (Invocation × List Char) := do
  let ofName := (readTemplateName? s).map fun (name, rest) => (Operand.word name, rest)
  let (head, rest) ← ofName.orElse fun _ => readHead? s
  return readApplied head rest

end Galley.Template
