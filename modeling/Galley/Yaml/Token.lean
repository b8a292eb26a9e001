import Galley.Yaml.Cursor

/-!
The tokens of a YAML text.

Block structure is made explicit by tokens that start and end a block
collection. A key that is written without an indicator is found only when its
colon is met: until then its position is kept as a pending key, one for each
level of flow nesting, and the key token is inserted before the tokens read
since.
-/

namespace Galley.Yaml

inductive ScalarStyle where
  | plain
  | quoted
  deriving DecidableEq, Inhabited

inductive TokenKind where
  | streamEnd
  | versionDirective (major minor : Nat)
  | tagDirective (handle lead : String)
  | documentStart
  | documentEnd
  | blockSequenceStart
  | blockMappingStart
  | blockEnd
  | flowSequenceStart
  | flowSequenceEnd
  | flowMappingStart
  | flowMappingEnd
  | blockEntry
  | flowEntry
  | key
  | value
  | alias (name : String)
  | anchor (name : String)
  | tag (handle suffix : String)
  | scalar (text : String) (style : ScalarStyle)
  deriving DecidableEq, Inhabited

structure Token where
  kind : TokenKind
  start : Mark
  stop : Mark
  deriving Inhabited

/-! ### Scanning one token -/

def Cursor.fail {α : Type} (c : Cursor) : Except Fault α :=
  .error (Fault.at c.mark)

/-- The number of a version directive has one to nine digits. -/
def scanVersionNumber (c : Cursor) : Except Fault (Nat × Cursor) :=
  let (digits, c') := c.takeWhile Char.isDigit
  if digits.isEmpty then c.fail
  else if digits.length > 9 then (c.skipN 9).fail
  else .ok (digits.foldl (fun n d => n * 10 + (d.toNat - 48)) 0, c')

/-- A tag handle: `!`, `!!` or `!word!`. In a directive the last mark is required. -/
def scanTagHandle (directive : Bool) (c : Cursor) : Except Fault (List Char × Cursor) :=
  if !c.is '!' then c.fail
  else
    let (word, c') := c.skip.takeWhile isWordChar
    if c'.is '!' then .ok ('!' :: word ++ ['!'], c'.skip)
    else if directive && !word.isEmpty then c'.fail
    else .ok ('!' :: word, c')

/-- Reads the octets of one escaped character, `%` and two hexadecimal digits each. -/
def scanEscapedOctet (c : Cursor) : Except Fault (Nat × Cursor) :=
  match c.rest with
  | '%' :: a :: b :: _ =>
    match hexDigit? a, hexDigit? b with
    | some x, some y => .ok (x * 16 + y, c.skipN 3)
    | _, _ => c.fail
  | _ => c.fail

def scanTrailingOctets : Nat → Nat → Cursor → Except Fault (Nat × Cursor)
  | 0, code, c => .ok (code, c)
  | n + 1, code, c => do
    let (octet, c') ← scanEscapedOctet c
    if octet / 64 == 2 then scanTrailingOctets n (code * 64 + octet % 64) c'
    else c.fail

def scanUriEscape (c : Cursor) : Except Fault (Char × Cursor) := do
  let (octet, c') ← scanEscapedOctet c
  if octet < 0x80 then return (Char.ofNat octet, c')
  else if octet / 32 == 6 then
    let (code, c'') ← scanTrailingOctets 1 (octet % 32) c'
    return (Char.ofNat code, c'')
  else if octet / 16 == 14 then
    let (code, c'') ← scanTrailingOctets 2 (octet % 16) c'
    return (Char.ofNat code, c'')
  else if octet / 8 == 30 then
    let (code, c'') ← scanTrailingOctets 3 (octet % 8) c'
    return (Char.ofNat code, c'')
  else c.fail

def isTagChar (verbatim : Bool) (c : Char) : Bool :=
  isWordChar c || ";/?:@&=+$.!~*\x27()".toList.contains c || (verbatim && ",[]".toList.contains c)

def scanTagChars (verbatim : Bool) : Nat → List Char → Cursor → Except Fault (List Char × Cursor)
  | 0, acc, c => .ok (acc.reverse, c)
  | fuel + 1, acc, c =>
    match c.rest with
    | [] => .ok (acc.reverse, c)
    | ch :: _ =>
      if ch == '%' then do
        let (decoded, c') ← scanUriEscape c
        scanTagChars verbatim fuel (decoded :: acc) c'
      else if isTagChar verbatim ch then scanTagChars verbatim fuel (ch :: acc) c.skip
      else .ok (acc.reverse, c)

/-- A tag text after an already read head; it must not be empty. -/
def scanTagText (verbatim : Bool) (head : List Char) (c : Cursor) :
    Except Fault (List Char × Cursor) := do
  let (chars, c') ← scanTagChars verbatim (c.rest.length + 1) [] c
  if head.isEmpty && chars.isEmpty then c'.fail
  else return (head.drop 1 ++ chars, c')

/-- The two parts of a tag token. -/
def scanTag (inFlow : Bool) (c : Cursor) : Except Fault (TokenKind × Cursor) := do
  let (kind, c') ←
    if c.isAt 1 '<' then
      let (text, c') ← scanTagText true [] (c.skipN 2)
      if c'.is '>' then pure (TokenKind.tag "" (String.ofList text), c'.skip)
      else c'.fail
    else
      let (handle, c') ← scanTagHandle false c
      if handle.length > 1 && handle.getLast? == some '!' then
        let (text, c'') ← scanTagText false [] c'
        pure (TokenKind.tag (String.ofList handle) (String.ofList text), c'')
      else
        let (text, c'') ← scanTagText false handle c'
        if text.isEmpty then pure (TokenKind.tag "" "!", c'')
        else pure (TokenKind.tag "!" (String.ofList text), c'')
  if c'.blankOrEndAt 0 || (inFlow && c'.is ',') then return (kind, c')
  else c'.fail

def scanAnchorName (c : Cursor) : Except Fault (String × Cursor) :=
  let (name, c') := c.skip.takeWhile isWordChar
  let closes := c'.blankOrEndAt 0 || c'.test fun ch => "?:,]\x7d%@\x60".toList.contains ch
  if name.isEmpty || !closes then c'.fail else .ok (String.ofList name, c')

/-- A directive and the rest of its line. -/
def scanDirective (c : Cursor) : Except Fault (TokenKind × Cursor) := do
  let (name, c') := c.skip.takeWhile isWordChar
  if name.isEmpty || !c'.blankOrEndAt 0 then c'.fail
  else
    let (kind, c'') ←
      if name == "YAML".toList then
        let (major, c₁) ← scanVersionNumber (c'.skipWhile isSpaceOrTab)
        if !c₁.is '.' then c₁.fail
        else
          let (minor, c₂) ← scanVersionNumber c₁.skip
          pure (TokenKind.versionDirective major minor, c₂)
      else if name == "TAG".toList then
        let (handle, c₁) ← scanTagHandle true (c'.skipWhile isSpaceOrTab)
        if !c₁.test isSpaceOrTab then c₁.fail
        else
          let (lead, c₂) ← scanTagText true [] (c₁.skipWhile isSpaceOrTab)
          if !c₂.blankOrEndAt 0 then c₂.fail
          else pure (TokenKind.tagDirective (String.ofList handle) (String.ofList lead), c₂)
      else c'.fail
    let c₃ := c''.skipWhile isSpaceOrTab
    let c₄ := if c₃.is '#' then c₃.skipToBreak else c₃
    if c₄.breakOrEndAt 0 then return (kind, c₄.skipLine) else c₄.fail

/-! ### Scalars -/

/-- Line breaks between two parts of a scalar: one break is a space, further
breaks stay. -/
def foldBreaks (first more : List Char) : List Char :=
  if first == ['\n'] then (if more.isEmpty then [' '] else more) else first ++ more

/-- Blanks and breaks inside a scalar. -/
structure Gap where
  blanks : List Char := []
  first : List Char := []
  more : List Char := []
  broken : Bool := false

def Gap.text (g : Gap) : List Char :=
  if g.broken then foldBreaks g.first g.more else g.blanks

/-- Reads blanks and breaks; `refuses` may refuse a tab after a break. -/
def scanGap (refuses : Cursor → Bool) : Nat → Gap → Cursor → Except Fault (Gap × Cursor)
  | 0, g, c => .ok (g, c)
  | fuel + 1, g, c =>
    match c.rest with
    | [] => .ok (g, c)
    | ch :: _ =>
      if isSpaceOrTab ch then
        if g.broken && ch == '\t' && refuses c then c.fail
        else if g.broken then scanGap refuses fuel g c.skip
        else scanGap refuses fuel { g with blanks := g.blanks ++ [ch] } c.skip
      else if isBreak ch then
        if g.broken then scanGap refuses fuel { g with more := g.more ++ c.breakText } c.skipLine
        else
          scanGap refuses fuel { g with blanks := [], first := c.breakText, broken := true }
            c.skipLine
      else .ok (g, c)

/-- Whether a colon stands where a plain scalar in a flow collection refuses it. -/
def Cursor.colonBeforeIndicator (c : Cursor) : Bool :=
  c.is ':' && ((c.peek? 1).map fun ch => ",?[]\x7b\x7d".toList.contains ch) == some true

def Cursor.endsPlain (inFlow : Bool) (c : Cursor) : Bool :=
  (c.is ':' && c.blankOrEndAt 1) || (inFlow && c.test fun ch => ",[]\x7b\x7d".toList.contains ch)

/-- Reads the characters of a plain scalar up to a blank, a break or an end. -/
def scanPlainRun (inFlow : Bool) : Nat → List Char → Cursor → Except Fault (List Char × Cursor)
  | 0, acc, c => .ok (acc, c)
  | fuel + 1, acc, c =>
    if c.blankOrEndAt 0 then .ok (acc, c)
    else if inFlow && c.colonBeforeIndicator then c.fail
    else if c.endsPlain inFlow then .ok (acc, c)
    else
      match c.rest with
      | [] => .ok (acc, c)
      | ch :: _ => scanPlainRun inFlow fuel (ch :: acc) c.skip

/-- Reads a plain scalar: runs of characters with gaps between them. `acc` is
the text so far in reverse, `gap` the gap before the position, `stop` the end
of the last run. The answer tells whether the scalar ends after a break. -/
def scanPlainRuns (inFlow : Bool) (indent : Int) :
    Nat → List Char → Gap → Mark → Cursor → Except Fault ((List Char × Mark × Bool) × Cursor)
  | 0, acc, gap, stop, c => .ok ((acc, stop, gap.broken), c)
  | fuel + 1, acc, gap, stop, c => do
    if c.atDocumentMarker || c.is '#' then return ((acc, stop, gap.broken), c)
    else
      let (run, c') ← scanPlainRun inFlow (c.rest.length + 1) [] c
      let (acc', gap', stop') :=
        if run.isEmpty then (acc, gap, stop)
        else (run ++ gap.text.reverse ++ acc, ({} : Gap), c'.mark)
      if !c'.test (fun ch => isSpaceOrTab ch || isBreak ch) then
        return ((acc', stop', gap'.broken), c')
      else
        let refuses (at' : Cursor) := (at'.mark.column : Int) < indent
        let (gap'', c'') ← scanGap refuses (c'.rest.length + 1) gap' c'
        if !inFlow && (c''.mark.column : Int) < indent then
          return ((acc', stop', gap''.broken), c'')
        else scanPlainRuns inFlow indent fuel acc' gap'' stop' c''

def simpleEscape? (c : Char) : Option Char :=
  match c with
  | '0' => some (Char.ofNat 0)
  | 'a' => some (Char.ofNat 0x07)
  | 'b' => some (Char.ofNat 0x08)
  | 't' => some '\t'
  | '\t' => some '\t'
  | 'n' => some '\n'
  | 'v' => some (Char.ofNat 0x0B)
  | 'f' => some (Char.ofNat 0x0C)
  | 'r' => some '\r'
  | 'e' => some (Char.ofNat 0x1B)
  | ' ' => some ' '
  | '"' => some '"'
  | '/' => some '/'
  | '\\' => some '\\'
  | 'N' => some (Char.ofNat 0x85)
  | '_' => some (Char.ofNat 0xA0)
  | 'L' => some (Char.ofNat 0x2028)
  | 'P' => some (Char.ofNat 0x2029)
  | _ => none

def escapeLength? (c : Char) : Option Nat :=
  match c with
  | 'x' => some 2
  | 'u' => some 4
  | 'U' => some 8
  | _ => none

def scanEscape (c : Cursor) : Except Fault (Char × Cursor) :=
  match c.peek? 1 with
  | none => c.fail
  | some letter =>
    match simpleEscape? letter, escapeLength? letter with
    | some ch, _ => .ok (ch, c.skipN 2)
    | none, none => c.fail
    | none, some n =>
      let c' := c.skipN 2
      let digits := (c'.rest.take n).filterMap hexDigit?
      let code := digits.foldl (fun acc d => acc * 16 + d) 0
      if digits.length < n || (c'.rest.take n).any (fun ch => (hexDigit? ch).isNone) then c'.fail
      else if (0xD800 ≤ code && code ≤ 0xDFFF) || code > 0x10FFFF then c'.fail
      else .ok (Char.ofNat code, c'.skipN n)

/-- Reads a run of a quoted scalar up to a blank, a break, the closing quote or
an escaped line break; the flag tells of the last. -/
def scanQuotedRun (single : Bool) :
    Nat → List Char → Cursor → Except Fault ((List Char × Bool) × Cursor)
  | 0, acc, c => .ok ((acc, false), c)
  | fuel + 1, acc, c =>
    if c.blankOrEndAt 0 then .ok ((acc, false), c)
    else if single && c.is '\x27' && c.isAt 1 '\x27' then
      scanQuotedRun single fuel ('\x27' :: acc) (c.skipN 2)
    else if c.is (if single then '\x27' else '"') then .ok ((acc, false), c)
    else if !single && c.is '\\' then
      if ((c.peek? 1).map isBreak) == some true then .ok ((acc, true), c.skip.skipLine)
      else do
        let (ch, c') ← scanEscape c
        scanQuotedRun single fuel (ch :: acc) c'
    else
      match c.rest with
      | [] => .ok ((acc, false), c)
      | ch :: _ => scanQuotedRun single fuel (ch :: acc) c.skip

/-- Reads a quoted scalar up to its closing quote; `acc` is the text in reverse. -/
def scanQuotedRuns (single : Bool) : Nat → List Char → Cursor → Except Fault (List Char × Cursor)
  | 0, _, c => c.fail
  | fuel + 1, acc, c => do
    if c.atDocumentMarker || c.atEnd then c.fail
    else
      let ((acc', escapedBreak), c') ← scanQuotedRun single (c.rest.length + 1) acc c
      if c'.is (if single then '\x27' else '"') then return (acc', c'.skip)
      else
        let (gap, c'') ←
          scanGap (fun _ => false) (c'.rest.length + 1) { broken := escapedBreak } c'
        scanQuotedRuns single fuel (gap.text.reverse ++ acc') c''

/-- What happens to the line breaks at the end of a block scalar. -/
inductive Chomping where
  | strip
  | clip
  | keep
  deriving DecidableEq

def chompingSign? (c : Cursor) : Option Chomping :=
  if c.is '+' then some .keep else if c.is '-' then some .strip else none

/-- The indentation digit of a block scalar; zero is refused. -/
def scanIndentDigit (c : Cursor) : Except Fault (Nat × Cursor) :=
  match c.rest with
  | ch :: _ =>
    if ch == '0' then c.fail
    else if ch.isDigit then .ok (ch.toNat - 48, c.skip)
    else .ok (0, c)
  | [] => .ok (0, c)

/-- The header of a block scalar: a sign and a digit in either order. -/
def scanBlockHeader (c : Cursor) : Except Fault ((Chomping × Nat) × Cursor) := do
  match chompingSign? c with
  | some sign =>
    let (n, c') ← scanIndentDigit c.skip
    return ((sign, n), c')
  | none =>
    let (n, c') ← scanIndentDigit c
    if n == 0 then return ((.clip, 0), c')
    else
      match chompingSign? c' with
      | some sign => return ((sign, n), c'.skip)
      | none => return ((.clip, n), c')

/-- Reads indentation and empty lines before a line of a block scalar. `indent`
is zero while it is not known; `widest` is the widest indentation seen. The
breaks are collected. -/
def scanIndentation (indent : Nat) :
    Nat → Nat → List Char → Mark → Cursor → Except Fault ((Nat × List Char × Mark) × Cursor)
  | 0, widest, breaks, stop, c => .ok ((widest, breaks, stop), c)
  | fuel + 1, widest, breaks, stop, c =>
    let spaces := c.rest.takeWhile (· == ' ')
    let n := if indent == 0 then spaces.length
      else min spaces.length (indent - c.mark.column)
    let c' := c.skipN n
    let widest' := max widest c'.mark.column
    if (indent == 0 || c'.mark.column < indent) && c'.is '\t' then c'.fail
    else if c'.test isBreak then
      let c'' := c'.skipLine
      scanIndentation indent fuel widest' (breaks ++ c'.breakText) c''.mark c''
    else .ok ((widest', breaks, stop), c')

def scanBlockLines (literal : Bool) (indent : Nat) :
    Nat → List Char → List Char → List Char → Bool → Mark → Cursor →
      Except Fault ((List Char × List Char × List Char × Mark) × Cursor)
  | 0, acc, lead, breaks, _, stop, c => .ok ((acc, lead, breaks, stop), c)
  | fuel + 1, acc, lead, breaks, afterBlank, stop, c => do
    if c.mark.column != indent || c.atEnd then return ((acc, lead, breaks, stop), c)
    else
      let blank := c.test isSpaceOrTab
      let joint :=
        if !literal && lead == ['\n'] && !afterBlank && !blank then
          (if breaks.isEmpty then [' '] else [])
        else lead
      let (line, c₁) := c.takeWhile fun ch => !isBreak ch
      let acc' := line.reverse ++ breaks.reverse ++ joint.reverse ++ acc
      let lead' := c₁.breakText
      let c₂ := c₁.skipLine
      let ((_, breaks', stop'), c₃) ← scanIndentation indent (c₂.rest.length + 1) 0 [] c₂.mark c₂
      scanBlockLines literal indent fuel acc' lead' breaks' blank stop' c₃

/-- A block scalar; `parent` is the indentation of the enclosing block. -/
def scanBlockScalar (literal : Bool) (parent : Int) (c : Cursor) :
    Except Fault ((String × Mark) × Cursor) := do
  let ((chomping, increment), c₁) ← scanBlockHeader c.skip
  let c₂ := c₁.skipWhile isSpaceOrTab
  let c₃ := if c₂.is '#' then c₂.skipToBreak else c₂
  if !c₃.breakOrEndAt 0 then c₃.fail
  else
    let c₄ := c₃.skipLine
    let known :=
      if increment == 0 then 0
      else if parent ≥ 0 then parent.toNat + increment else increment
    let ((widest, breaks, stop), c₅) ←
      scanIndentation known (c₄.rest.length + 1) 0 [] c₄.mark c₄
    let indent := if known != 0 then known else max (max widest (parent + 1).toNat) 1
    let ((acc, lead, tail, stop'), c₆) ←
      scanBlockLines literal indent (c₅.rest.length + 1) [] [] breaks false stop c₅
    let text := acc.reverse ++ (if chomping == .strip then [] else lead) ++
      (if chomping == .keep then tail else [])
    return ((String.ofList text, stop'), c₆)

end Galley.Yaml
