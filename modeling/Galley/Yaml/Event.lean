import Galley.Yaml.TokenStream

/-!
The events of a YAML text.

An event is a step through the tree of a document: a scalar, an alias, or the
start or end of a collection. The grammar is a machine with a stack of states;
`EventStream.next` makes one step.
-/

namespace Galley.Yaml

inductive EventKind where
  | streamEnd
  | documentStart
  | documentEnd
  | alias (name : String)
  | scalar (anchor tag : Option String) (text : String) (style : ScalarStyle)
  | seqStart (anchor tag : Option String)
  | seqEnd
  | mapStart (anchor tag : Option String)
  | mapEnd
  deriving DecidableEq, Inhabited

structure Event where
  kind : EventKind
  mark : Mark
  deriving Inhabited

/-- What the grammar expects next. -/
inductive Expect where
  | implicitDocument
  | document
  | documentContent
  | documentEnd
  | blockNode
  | blockEntry (first : Bool)
  | indentlessEntry
  | blockKey (first : Bool)
  | blockValue
  | flowEntry (first : Bool)
  | flowPairKey
  | flowPairValue
  | flowPairEnd
  | flowKey (first : Bool)
  | flowValue (empty : Bool)
  | nothing
  deriving DecidableEq, Inhabited

structure EventStream where
  tokens : TokenStream
  expect : Expect := .implicitDocument
  stack : List Expect := []
  /-- The tag handles in force, with what they stand for. -/
  handles : List (String × String) := []
  deriving Inhabited

namespace EventStream

def ofText (text : List Char) : EventStream :=
  { tokens := TokenStream.ofText text }

/-- One step: the event and the machine after it. -/
abbrev Step := Except Fault (Event × EventStream)

def peek (p : EventStream) : Except Fault (Token × EventStream) := do
  let (t, tokens) ← p.tokens.peek
  return (t, { p with tokens := tokens })

/-- Takes the token that was looked at. -/
def take (p : EventStream) : EventStream :=
  { p with tokens := p.tokens.take }

def pop (p : EventStream) : EventStream :=
  { p with expect := p.stack.headD .nothing, stack := p.stack.drop 1 }

def goto (p : EventStream) (e : Expect) : EventStream :=
  { p with expect := e }

def pushState (p : EventStream) (e : Expect) : EventStream :=
  { p with stack := e :: p.stack }

def emit (p : EventStream) (kind : EventKind) (m : Mark) : Step :=
  .ok (⟨kind, m⟩, p)

/-- The scalar of a place where nothing is written. -/
def emitEmpty (p : EventStream) (m : Mark) : Step :=
  p.emit (.scalar none none "" .plain) m

def resolveTag (p : EventStream) (handle suffix : String) (m : Mark) : Except Fault String :=
  if handle.isEmpty then .ok suffix
  else
    match p.handles.find? fun h => h.1 == handle with
    | some (_, lead) => .ok (lead ++ suffix)
    | none => .error (Fault.at m)

/-- The properties before a node: its anchor and its tag, in either order, and
the mark of the first of them. -/
structure Properties where
  anchor : Option String := none
  tag : Option (String × String × Mark) := none
  start : Option Mark := none

def readAnchor? (p : EventStream) (props : Properties) :
    Except Fault (Properties × EventStream) := do
  let (t, p) ← p.peek
  match t.kind with
  | .anchor name =>
    return ({ props with anchor := some name, start := props.start <|> some t.start }, p.take)
  | _ => return (props, p)

def readTag? (p : EventStream) (props : Properties) : Except Fault (Properties × EventStream) := do
  let (t, p) ← p.peek
  match t.kind with
  | .tag handle suffix =>
    return ({ props with
        tag := some (handle, suffix, t.start), start := props.start <|> some t.start }, p.take)
  | _ => return (props, p)

def readProperties (p : EventStream) : Except Fault (Properties × EventStream) := do
  let (props, p) ← p.readAnchor? {}
  let (props, p) ← p.readTag? props
  if props.anchor.isSome then return (props, p) else p.readAnchor? props

/-- A node: an alias, a scalar, the start of a collection, or nothing after
properties. -/
def node (p : EventStream) (block indentless : Bool) : Step := do
  let (t, p) ← p.peek
  match t.kind with
  | .alias name => p.take.pop.emit (.alias name) t.start
  | _ =>
    let (props, p) ← p.readProperties
    let (t, p) ← p.peek
    let start := props.start.getD t.start
    let tag ← match props.tag with
      | none => pure none
      | some (handle, suffix, m) => some <$> p.resolveTag handle suffix m
    match t.kind with
    | .scalar text style => p.take.pop.emit (.scalar props.anchor tag text style) start
    | .flowSequenceStart => (p.goto (.flowEntry true)).emit (.seqStart props.anchor tag) start
    | .flowMappingStart => (p.goto (.flowKey true)).emit (.mapStart props.anchor tag) start
    | kind =>
      if indentless && kind == .blockEntry then
        (p.goto .indentlessEntry).emit (.seqStart props.anchor tag) start
      else if block && kind == .blockSequenceStart then
        (p.goto (.blockEntry true)).emit (.seqStart props.anchor tag) start
      else if block && kind == .blockMappingStart then
        (p.goto (.blockKey true)).emit (.mapStart props.anchor tag) start
      else if props.anchor.isSome || tag.isSome then
        p.pop.emit (.scalar props.anchor tag "" .plain) start
      else .error (Fault.at t.start)

/-! ### Documents -/

/-- Adds a tag handle; a handle that is written twice is a fault. -/
def addHandle (p : EventStream) (handle lead : String) (m : Mark) : Except Fault EventStream :=
  if p.handles.any fun h => h.1 == handle then .error (Fault.at m)
  else .ok { p with handles := p.handles ++ [(handle, lead)] }

/-- Reads directives; at most one names a version. -/
def readDirectives : Nat → Bool → EventStream → Except Fault EventStream
  | 0, _, p => .ok p
  | fuel + 1, versioned, p => do
    let (t, p) ← p.peek
    match t.kind with
    | .versionDirective major minor =>
      if versioned || major != 1 || (minor != 1 && minor != 2) then .error (Fault.at t.start)
      else readDirectives fuel true p.take
    | .tagDirective handle lead =>
      readDirectives fuel versioned (← p.take.addHandle handle lead t.start)
    | _ =>
      let builtin := [("!", "!"), ("!!", "tag:yaml.org,2002:")].filter fun h =>
        !p.handles.any fun h' => h'.1 == h.1
      return { p with handles := p.handles ++ builtin }

def skipDocumentEnds : Nat → EventStream → Except Fault EventStream
  | 0, p => .ok p
  | fuel + 1, p => do
    let (t, p) ← p.peek
    if t.kind == .documentEnd then skipDocumentEnds fuel p.take else return p

/-- An upper bound on the number of tokens that are left. -/
def fuel (p : EventStream) : Nat :=
  p.tokens.cursor.rest.length + p.tokens.queue.length + 2

def document (p : EventStream) (implicit : Bool) : Step := do
  let p ← if implicit then pure p else p.skipDocumentEnds p.fuel
  let (t, p) ← p.peek
  let explicit := match t.kind with
    | .versionDirective _ _ | .tagDirective _ _ | .documentStart => true
    | _ => false
  if t.kind == .streamEnd then (p.take.goto .nothing).emit .streamEnd t.start
  else if implicit && !explicit then
    let p ← p.readDirectives p.fuel false
    ((p.pushState .documentEnd).goto .blockNode).emit .documentStart t.start
  else
    let p ← p.readDirectives p.fuel false
    let (t', p) ← p.peek
    if t'.kind == .documentStart then
      ((p.take.pushState .documentEnd).goto .documentContent).emit .documentStart t.start
    else .error (Fault.at t'.start)

def documentContent (p : EventStream) : Step := do
  let (t, p) ← p.peek
  match t.kind with
  | .versionDirective _ _ | .tagDirective _ _ | .documentStart | .documentEnd | .streamEnd =>
    p.pop.emitEmpty t.start
  | _ => p.node true false

def documentEnd (p : EventStream) : Step := do
  let (t, p) ← p.peek
  let p := if t.kind == .documentEnd then p.take else p
  ({ p with handles := [] }.goto .document).emit .documentEnd t.start

/-! ### Block collections -/

/-- Takes the token that opens a collection when it has not been taken yet. -/
def takeOpening (p : EventStream) (first : Bool) : Except Fault EventStream := do
  if first then
    let (_, p) ← p.peek
    return p.take
  else return p

def blockEntry (p : EventStream) (first : Bool) : Step := do
  let p ← p.takeOpening first
  let (t, p) ← p.peek
  match t.kind with
  | .blockEntry =>
    let (t', p) ← p.take.peek
    if t'.kind == .blockEntry || t'.kind == .blockEnd then
      (p.goto (.blockEntry false)).emitEmpty t.stop
    else (p.pushState (.blockEntry false)).node true false
  | .blockEnd => p.take.pop.emit .seqEnd t.start
  | _ => .error (Fault.at t.start)

def indentlessEntry (p : EventStream) : Step := do
  let (t, p) ← p.peek
  match t.kind with
  | .blockEntry =>
    let (t', p) ← p.take.peek
    match t'.kind with
    | .blockEntry | .key | .value | .blockEnd => (p.goto .indentlessEntry).emitEmpty t.stop
    | _ => (p.pushState .indentlessEntry).node true false
  | _ => p.pop.emit .seqEnd t.start

def blockKey (p : EventStream) (first : Bool) : Step := do
  let p ← p.takeOpening first
  let (t, p) ← p.peek
  match t.kind with
  | .key =>
    let (t', p) ← p.take.peek
    match t'.kind with
    | .key | .value | .blockEnd => (p.goto .blockValue).emitEmpty t.stop
    | _ => (p.pushState .blockValue).node true true
  | .blockEnd => p.take.pop.emit .mapEnd t.start
  | _ => .error (Fault.at t.start)

def blockValue (p : EventStream) : Step := do
  let (t, p) ← p.peek
  match t.kind with
  | .value =>
    let (t', p) ← p.take.peek
    match t'.kind with
    | .key | .value | .blockEnd => (p.goto (.blockKey false)).emitEmpty t.stop
    | _ => (p.pushState (.blockKey false)).node true true
  | _ => (p.goto (.blockKey false)).emitEmpty t.start

/-! ### Flow collections -/

/-- Reads the separator before every entry but the first; a fault when neither
it nor the closing token follows. -/
def readSeparator (p : EventStream) (first : Bool) (closing : TokenKind) :
    Except Fault EventStream := do
  let (t, p) ← p.peek
  if first || t.kind == closing then return p
  else if t.kind == .flowEntry then
    let (_, p) ← p.take.peek
    return p
  else .error (Fault.at t.start)

def flowEntry (p : EventStream) (first : Bool) : Step := do
  let p ← p.takeOpening first
  let p ← p.readSeparator first .flowSequenceEnd
  let (t, p) ← p.peek
  match t.kind with
  | .flowSequenceEnd => p.take.pop.emit .seqEnd t.start
  | .key => (p.take.goto .flowPairKey).emit (.mapStart none none) t.start
  | _ => (p.pushState (.flowEntry false)).node false false

def flowPairKey (p : EventStream) : Step := do
  let (t, p) ← p.peek
  match t.kind with
  | .value | .flowEntry | .flowSequenceEnd => (p.take.goto .flowPairValue).emitEmpty t.stop
  | _ => (p.pushState .flowPairValue).node false false

def flowPairValue (p : EventStream) : Step := do
  let (t, p) ← p.peek
  match t.kind with
  | .value =>
    let (t', p) ← p.take.peek
    match t'.kind with
    | .flowEntry | .flowSequenceEnd => (p.goto .flowPairEnd).emitEmpty t'.start
    | _ => (p.pushState .flowPairEnd).node false false
  | _ => (p.goto .flowPairEnd).emitEmpty t.start

def flowPairEnd (p : EventStream) : Step := do
  let (t, p) ← p.peek
  (p.goto (.flowEntry false)).emit .mapEnd t.start

def flowKey (p : EventStream) (first : Bool) : Step := do
  let p ← p.takeOpening first
  let p ← p.readSeparator first .flowMappingEnd
  let (t, p) ← p.peek
  match t.kind with
  | .flowMappingEnd => p.take.pop.emit .mapEnd t.start
  | .key =>
    let (t', p) ← p.take.peek
    match t'.kind with
    | .value | .flowEntry | .flowMappingEnd => (p.goto (.flowValue false)).emitEmpty t'.start
    | _ => (p.pushState (.flowValue false)).node false false
  | _ => (p.pushState (.flowValue true)).node false false

def flowValue (p : EventStream) (empty : Bool) : Step := do
  let (t, p) ← p.peek
  if empty then (p.goto (.flowKey false)).emitEmpty t.start
  else
    match t.kind with
    | .value =>
      let (t', p) ← p.take.peek
      match t'.kind with
      | .flowEntry | .flowMappingEnd => (p.goto (.flowKey false)).emitEmpty t'.start
      | _ => (p.pushState (.flowKey false)).node false false
    | _ => (p.goto (.flowKey false)).emitEmpty t.start

def next (p : EventStream) : Step :=
  match p.expect with
  | .implicitDocument => p.document true
  | .document => p.document false
  | .documentContent => p.documentContent
  | .documentEnd => p.documentEnd
  | .blockNode => p.node true false
  | .blockEntry first => p.blockEntry first
  | .indentlessEntry => p.indentlessEntry
  | .blockKey first => p.blockKey first
  | .blockValue => p.blockValue
  | .flowEntry first => p.flowEntry first
  | .flowPairKey => p.flowPairKey
  | .flowPairValue => p.flowPairValue
  | .flowPairEnd => p.flowPairEnd
  | .flowKey first => p.flowKey first
  | .flowValue empty => p.flowValue empty
  | .nothing => p.emit .streamEnd p.tokens.cursor.mark

end EventStream

end Galley.Yaml
