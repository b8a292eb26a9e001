import Galley.Template.Helper
import Galley.Template.Layout

/-!
The output of a template.

Rendering carries a scope: the blocks around a tag, the templates defined in
passing, and the indentation of included text. A failure is reported at the line
of the innermost tag that has one.
-/

namespace Galley.Template

/-- What the tags around a tag have set up. -/
structure Scope where
  blocks : List Block := [{}]
  /-- The templates defined in passing. -/
  defined : List (String × List (Option Nat × Element)) := []
  /-- The contents that including tags have handed over, last first. -/
  contents : List (List (Option Nat × Element)) := []
  /-- How many of the contents are in use already. -/
  used : Nat := 0
  /-- The name of the template being rendered. -/
  template : Option String := none
  indent : List Char := []
  deriving Inhabited

/-- A tag that could not be rendered. -/
structure Failure where
  line : Option Nat := none
  reason : Reason
  deriving Inhabited

abbrev Rendering (α : Type) := StateT Scope (Except Failure) α

/-- What stays the same while a template is rendered. -/
structure Setting where
  isStrict : Bool
  templates : List (String × Template)
  root : Json

namespace Rendering

def fail {α : Type} (reason : Reason) : Rendering α :=
  throw { reason }

/-- Goes on with a value or fails for the reason given. -/
def settle {α : Type} (x : Except Reason α) : Rendering α :=
  match x with
  | .ok a => pure a
  | .error reason => fail reason

/-- Reports failures at a line unless they have one. -/
def atLine {α : Type} (line : Option Nat) (x : Rendering α) : Rendering α :=
  fun s =>
    match x.run s with
    | .ok r => .ok r
    | .error f => .error { f with line := f.line.orElse fun _ => line }

/-- Renders in a scope of its own. -/
def apart {α : Type} (scope : Scope) (x : Rendering α) : Rendering α := do
  let here ← get
  set scope
  let a ← x
  set here
  return a

/-- Renders in a further block. -/
def inBlock {α : Type} (block : Option Block) (x : Rendering α) : Rendering α :=
  match block with
  | none => x
  | some b => do
    modify fun s => { s with blocks := b :: s.blocks }
    let a ← x
    modify fun s => { s with blocks := s.blocks.tail }
    return a

end Rendering

open Rendering

/-- Indents all lines of a piece of output but the first. -/
def indented (indent : List Char) : List Char → List Char
  | [] => []
  | [c] => [c]
  | c :: d :: rest =>
    if c = '\n' then c :: (indent ++ indented indent (d :: rest))
    else c :: indented indent (d :: rest)

def write (s : List Char) : Rendering String := do
  return String.ofList (indented (← get).indent s)

variable (setting : Setting)

def evaluate (o : Operand) : Rendering Found := do
  settle (o.evaluate setting.isStrict setting.root (← get).blocks)

def call (i : Invocation) : Rendering Call := do
  let blocks := (← get).blocks
  let name ← settle (i.head.name setting.isStrict setting.root blocks)
  let arguments ← settle (Operand.evaluateAll setting.isStrict setting.root blocks i.arguments)
  let named ← settle (Operand.evaluateNamed setting.isStrict setting.root blocks i.named)
  return { name, arguments, named, parameters := i.parameters }

/-- Defines a template in passing, or does whatever else a decorator does. -/
def decorate (i : Invocation) (body : Option (List (Option Nat × Element))) :
    Rendering String := do
  let c ← call setting i
  if c.name ≠ "inline" then fail (.noDecorator c.name)
  let name ← settle (c.argument 0)
  match name.value, body with
  | .text name, some body =>
    modify fun s => { s with defined := Fields.insert name body s.defined }
    return ""
  | .text _, none => fail .noBlock
  | _, _ => fail .nameNotText

/-- Carries out the decorators among elements. -/
def decorateAll : List (Option Nat × Element) → Rendering Unit
  | [] => pure ()
  | (line, .decorator i body) :: rest => do
    let _ ← atLine line (decorate setting i body)
    decorateAll rest
  | _ :: rest => decorateAll rest

/-- The name of the content that an including tag has handed over. -/
def contentName : String := "@partial-block"

/-- The template to include under a name, with the name it is kept under. -/
def findTemplate (name : String) (body : Option (List (Option Nat × Element))) :
    Rendering Template := do
  let s ← get
  let here := if name == contentName then s.contents[s.used]? else Fields.find? name s.defined
  match here, Fields.find? name setting.templates, body with
  | some elements, _, _ => return { elements }
  | none, some t, _ => return t
  | none, none, some elements => return { elements }
  | none, none, none => fail (.noPartial name)

/-- The block in which an included template is rendered, if it is not rendered in
the blocks of the including tag. -/
def inclusionBlock (c : Call) : Rendering (Option Block) := do
  let blocks := (← get).blocks
  let placed := (c.arguments.head?.bind fun a => a.found.path?).map fun path => ({ path } : Block)
  if c.named.isEmpty then return placed
  let b := (placed.orElse fun _ => blocks.head?).getD {}
  let current ← settle (findPath setting.root [b] { text := "" })
  let fields := match current.value with
    | .object fields => fields
    | _ => []
  let named := c.named.map fun (k, a) => (k, a.value)
  return some { b with value := some (.object (Fields.insertAll fields named)) }

/-- The scope in which an included template is rendered. -/
def inclusionScope (c : Call) (indent : List Char)
    (body : Option (List (Option Nat × Element))) : Rendering Scope := do
  let s ← get
  let block ← inclusionBlock setting c
  return { s with
    blocks := block.elim s.blocks fun b => [b]
    contents := body.toList ++ s.contents
    used := if c.name == contentName then s.used + 1 else s.used - 1
    indent := s.indent ++ indent }

mutual

/-- The output of elements; the fuel bounds the nesting. -/
def renderAll : Nat → Template → Rendering String
  | 0, _ => fail .tooDeep
  | n + 1, t => do
    modify fun s => { s with template := t.name }
    t.elements.foldlM (fun out e => do return out ++ (← atLine e.1 (renderElement n e.2))) ""

def renderElement : Nat → Element → Rendering String
  | 0, _ => fail .tooDeep
  | n + 1, e =>
    match e with
    | .text s => write s
    | .comment => return ""
    | .value i => do
      if i.isBare then
        let name ← settle (i.head.name setting.isStrict setting.root (← get).blocks)
        if Call.isHelper name then renderCall n (← call setting i) none none
        else
          match ← evaluate setting i.head with
          | .missing =>
            if setting.isStrict then fail (.noValue (some name)) else return ""
          | found => write found.value.printed.toList
      else renderCall n (← call setting i) none none
    | .block i body inverse => do renderCall n (← call setting i) (some body) inverse
    | .decorator i body => decorate setting i body
    | .inclusion i indent body => do
      decorateAll setting (body.getD [])
      let c ← call setting i
      if (← get).template = some c.name then fail .selfInclusion
      let t ← findTemplate setting c.name body
      let scope ← inclusionScope setting c indent body
      apart scope (renderAll n t)

def renderCall : Nat → Call → Option (List (Option Nat × Element)) →
    Option (List (Option Nat × Element)) → Rendering String
  | 0, _, _, _ => fail .tooDeep
  | n + 1, c, body, inverse => do
    let c := { c with hasBody := body.isSome, hasInverse := inverse.isSome }
    match ← settle (c.outcome setting.isStrict), body, inverse with
    | .print v, _, _ => write v.printed.toList
    | .body blocks, some elements, _ =>
      blocks.foldlM (fun out b => do return out ++ (← inBlock b (renderAll n { elements }))) ""
    | .inverse, _, some elements => renderAll n { elements }
    | _, _, _ => return ""

end

/-- Bounds the nesting of tags and included templates. -/
def depthLimit : Nat := 3000

def render (t : Template) : Except Fault String :=
  match (renderAll setting depthLimit t).run {} with
  | .ok (out, _) => .ok out
  | .error f => .error (.failed (f.line.getD 0) f.reason)

end Galley.Template
