import Galley.Yaml.Token

/-!
The stream of tokens of a text, read on demand.

`TokenStream.peek` answers the next token and reads only as much text as is
needed to know it: a token that may turn out to be a key is held back until a
colon follows or can follow no more. A fault in the text is therefore reported
only when the reading gets there.
-/

namespace Galley.Yaml

/-- A position that may start a key. A required key is a fault when no colon
follows. -/
structure PendingKey where
  required : Bool
  number : Nat
  mark : Mark
  deriving Inhabited

structure TokenStream where
  cursor : Cursor
  queue : List Token := []
  /-- The number of tokens already taken. -/
  taken : Nat := 0
  ended : Bool := false
  /-- The column of the current block, `-1` outside of blocks. -/
  indent : Int := -1
  outer : List Int := []
  /-- The depth of flow nesting. -/
  flow : Nat := 0
  keyAllowed : Bool := true
  /-- The pending keys, innermost flow level first. -/
  keys : List (Option PendingKey) := [none]
  deriving Inhabited

namespace TokenStream

def ofText (text : List Char) : TokenStream :=
  { cursor := { rest := text } }

def push (s : TokenStream) (t : Token) : TokenStream :=
  { s with queue := s.queue ++ [t] }

/-- Appends a token of no width. -/
def pushAt (s : TokenStream) (kind : TokenKind) (m : Mark) : TokenStream :=
  s.push ⟨kind, m, m⟩

/-! ### Pending keys -/

/-- Whether a pending key can no longer be followed by its colon: it would span
lines or be too long. -/
def PendingKey.isStale (k : PendingKey) (now : Mark) : Bool :=
  k.mark.line < now.line || k.mark.index + 1024 < now.index

def dropStale (s : TokenStream) : Except Fault TokenStream := do
  let now := s.cursor.mark
  let stale (k : Option PendingKey) : Bool := k.any fun key => PendingKey.isStale key now
  if s.keys.any fun k => stale k && k.any PendingKey.required then s.cursor.fail
  else return { s with keys := s.keys.map fun k => if stale k then none else k }

def dropKey (s : TokenStream) : Except Fault TokenStream :=
  match s.keys with
  | some k :: rest => if k.required then s.cursor.fail else .ok { s with keys := none :: rest }
  | _ => .ok s

/-- Notes that the next token may be a key. -/
def saveKey (s : TokenStream) : Except Fault TokenStream := do
  if s.keyAllowed then
    let required := s.flow == 0 && s.indent == (s.cursor.mark.column : Int)
    let key : PendingKey := ⟨required, s.taken + s.queue.length, s.cursor.mark⟩
    let s' ← s.dropKey
    return { s' with keys := some key :: s'.keys.drop 1 }
  else return s

/-! ### Blocks -/

/-- Ends the blocks that are indented deeper than a column. -/
def closeBlocks (column : Int) : Nat → TokenStream → TokenStream
  | 0, s => s
  | fuel + 1, s =>
    if s.flow == 0 && s.indent > column then
      let s' := s.pushAt .blockEnd s.cursor.mark
      closeBlocks column fuel
        { s' with indent := s.outer.headD (-1), outer := s.outer.drop 1 }
    else s

def unindent (s : TokenStream) (column : Int) : TokenStream :=
  closeBlocks column (s.outer.length + 1) s

/-- Starts a block at a column that is deeper than the current one; the token
goes before token `number` when that is given. -/
def openBlock (s : TokenStream) (column : Nat) (kind : TokenKind) (number : Option Nat)
    (m : Mark) : TokenStream :=
  if s.flow == 0 && s.indent < (column : Int) then
    let s' := { s with indent := column, outer := s.indent :: s.outer }
    match number with
    | none => s'.pushAt kind m
    | some n => { s' with queue := s'.queue.insertIdx (n - s.taken) ⟨kind, m, m⟩ }
  else s

/-! ### Reading tokens -/

/-- Moves over blanks, comments and breaks. Tabs are blanks only where no key
may start. -/
def skipToToken : Nat → TokenStream → TokenStream
  | 0, s => s
  | fuel + 1, s =>
    let tabs := s.flow > 0 || !s.keyAllowed
    let c := s.cursor
    let c := if c.mark.column == 0 && c.is '\uFEFF' then c.skip else c
    let c := c.skipWhile fun ch => ch == ' ' || (tabs && ch == '\t')
    let c := if c.is '#' then c.skipToBreak else c
    if c.test isBreak then
      skipToToken fuel
        { s with cursor := c.skipLine, keyAllowed := if s.flow == 0 then true else s.keyAllowed }
    else { s with cursor := c }

/-- Appends a token of `n` characters at the position. -/
def pushHere (s : TokenStream) (kind : TokenKind) (n : Nat) : TokenStream :=
  let c := s.cursor.skipN n
  { s.push ⟨kind, s.cursor.mark, c.mark⟩ with cursor := c }

/-- Appends a token that a scan has read. -/
def pushScanned (s : TokenStream) (start : Mark) (kind : TokenKind) (stop : Mark) (c : Cursor) :
    TokenStream :=
  { s.push ⟨kind, start, stop⟩ with cursor := c }

def readStreamEnd (s : TokenStream) : Except Fault TokenStream := do
  let m := s.cursor.mark
  let m' : Mark := if m.column != 0 then { m with line := m.line + 1, column := 0 } else m
  let s := { s with cursor := { s.cursor with mark := m' } }
  let s ← (s.unindent (-1)).dropKey
  return { s.pushAt .streamEnd m' with keyAllowed := false, ended := true }

def readDirective (s : TokenStream) : Except Fault TokenStream := do
  let s ← (s.unindent (-1)).dropKey
  let (kind, c) ← scanDirective s.cursor
  return { s.pushScanned s.cursor.mark kind c.mark c with keyAllowed := false }

def readDocumentMarker (s : TokenStream) (kind : TokenKind) : Except Fault TokenStream := do
  let s ← (s.unindent (-1)).dropKey
  return { s.pushHere kind 3 with keyAllowed := false }

def readFlowStart (s : TokenStream) (kind : TokenKind) : Except Fault TokenStream := do
  let s ← s.saveKey
  return { s.pushHere kind 1 with keys := none :: s.keys, flow := s.flow + 1, keyAllowed := true }

def readFlowEnd (s : TokenStream) (kind : TokenKind) : Except Fault TokenStream := do
  let s ← s.dropKey
  let s := if s.flow > 0 then { s with flow := s.flow - 1, keys := s.keys.drop 1 } else s
  return { s.pushHere kind 1 with keyAllowed := false }

def readFlowEntry (s : TokenStream) : Except Fault TokenStream := do
  let s ← s.dropKey
  return { s.pushHere .flowEntry 1 with keyAllowed := true }

def readBlockEntry (s : TokenStream) : Except Fault TokenStream := do
  if s.flow == 0 && !s.keyAllowed then s.cursor.fail
  else
    let m := s.cursor.mark
    let s ← (s.openBlock m.column .blockSequenceStart none m).dropKey
    return { s.pushHere .blockEntry 1 with keyAllowed := true }

def readKey (s : TokenStream) : Except Fault TokenStream := do
  if s.flow == 0 && !s.keyAllowed then s.cursor.fail
  else
    let m := s.cursor.mark
    let s ← (s.openBlock m.column .blockMappingStart none m).dropKey
    return { s.pushHere .key 1 with keyAllowed := s.flow == 0 }

def readValue (s : TokenStream) : Except Fault TokenStream := do
  match s.keys with
  | some k :: rest =>
    let s := { s with queue := s.queue.insertIdx (k.number - s.taken) ⟨.key, k.mark, k.mark⟩ }
    let s := s.openBlock k.mark.column .blockMappingStart (some k.number) k.mark
    return { s.pushHere .value 1 with keys := none :: rest, keyAllowed := false }
  | _ =>
    if s.flow == 0 && !s.keyAllowed then s.cursor.fail
    else
      let m := s.cursor.mark
      let s := s.openBlock m.column .blockMappingStart none m
      return { s.pushHere .value 1 with keyAllowed := s.flow == 0 }

def readAnchor (s : TokenStream) (kind : String → TokenKind) : Except Fault TokenStream := do
  let s ← s.saveKey
  let (name, c) ← scanAnchorName s.cursor
  return { s.pushScanned s.cursor.mark (kind name) c.mark c with keyAllowed := false }

def readTag (s : TokenStream) : Except Fault TokenStream := do
  let s ← s.saveKey
  let (kind, c) ← scanTag (s.flow > 0) s.cursor
  return { s.pushScanned s.cursor.mark kind c.mark c with keyAllowed := false }

def readBlockScalar (s : TokenStream) (literal : Bool) : Except Fault TokenStream := do
  let s ← s.dropKey
  let ((text, stop), c) ← scanBlockScalar literal s.indent s.cursor
  return { s.pushScanned s.cursor.mark (.scalar text .quoted) stop c with keyAllowed := true }

def readQuoted (s : TokenStream) (single : Bool) : Except Fault TokenStream := do
  let s ← s.saveKey
  let (acc, c) ← scanQuotedRuns single (s.cursor.rest.length + 2) [] s.cursor.skip
  return { s.pushScanned s.cursor.mark (.scalar (String.ofList acc.reverse) .quoted) c.mark c with
    keyAllowed := false }

def readPlain (s : TokenStream) : Except Fault TokenStream := do
  let s ← s.saveKey
  let start := s.cursor.mark
  let ((acc, stop, broken), c) ←
    scanPlainRuns (s.flow > 0) (s.indent + 1) (s.cursor.rest.length + 2) [] {} start s.cursor
  return { s.pushScanned start (.scalar (String.ofList acc.reverse) .plain) stop c with
    keyAllowed := broken }

def startsPlain (s : TokenStream) : Bool :=
  let c := s.cursor
  let blankNext := (c.peek? 1).any isSpaceOrTab
  (!c.blankOrEndAt 0 && !c.test fun ch => "-?:,[]\x7b\x7d#&*!|>\x27\"%@\x60".toList.contains ch) ||
    (c.is '-' && !blankNext) ||
    (s.flow == 0 && (c.is '?' || c.is ':') && !c.blankOrEndAt 1)

/-- Reads the next token, with the tokens that it implies. -/
def readToken (s : TokenStream) : Except Fault TokenStream := do
  let s ← (skipToToken (s.cursor.rest.length + 1) s).dropStale
  let s := s.unindent s.cursor.mark.column
  let c := s.cursor
  let inFlow := s.flow > 0
  if c.atEnd then s.readStreamEnd
  else if c.mark.column == 0 && c.is '%' then s.readDirective
  else if c.atDocumentMarker then
    s.readDocumentMarker (if c.is '-' then .documentStart else .documentEnd)
  else if c.is '[' then s.readFlowStart .flowSequenceStart
  else if c.is '\x7b' then s.readFlowStart .flowMappingStart
  else if c.is ']' then s.readFlowEnd .flowSequenceEnd
  else if c.is '\x7d' then s.readFlowEnd .flowMappingEnd
  else if c.is ',' then s.readFlowEntry
  else if c.is '-' && c.blankOrEndAt 1 then s.readBlockEntry
  else if c.is '?' && (inFlow || c.blankOrEndAt 1) then s.readKey
  else if c.is ':' && (inFlow || c.blankOrEndAt 1) then s.readValue
  else if c.is '*' then s.readAnchor .alias
  else if c.is '&' then s.readAnchor .anchor
  else if c.is '!' then s.readTag
  else if c.is '|' && !inFlow then s.readBlockScalar true
  else if c.is '>' && !inFlow then s.readBlockScalar false
  else if c.is '\x27' then s.readQuoted true
  else if c.is '"' then s.readQuoted false
  else if s.startsPlain then s.readPlain
  else c.fail

/-- Whether more text must be read to know the next token. -/
def needsMore (s : TokenStream) : Bool :=
  s.queue.isEmpty || s.keys.any fun k => k.any fun key => key.number == s.taken

/-- Reads until the next token is known. -/
def settle : Nat → TokenStream → Except Fault TokenStream
  | 0, s => .ok s
  | fuel + 1, s => do
    if s.queue.isEmpty then settle fuel (← s.readToken)
    else
      let s ← s.dropStale
      if s.needsMore then settle fuel (← s.readToken) else return s

def peek (s : TokenStream) : Except Fault (Token × TokenStream) := do
  let s ← settle (s.cursor.rest.length + 2) s
  match s.queue with
  | t :: _ => return (t, s)
  | [] => s.cursor.fail

def take (s : TokenStream) : TokenStream :=
  { s with queue := s.queue.drop 1, taken := s.taken + 1 }

end TokenStream

end Galley.Yaml
