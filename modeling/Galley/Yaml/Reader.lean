import Galley.Yaml.Event
import Galley.Yaml.Scalar

/-!
From a YAML text to its value.

`Recording.ofStream` keeps the events of the first document, with every alias
resolved to the place of its anchor; a fault in the text ends the recording and
is reported only when the value needs what comes after it. `readValue` builds
the value: collections nest at most `depthLimit` deep, keys of a mapping differ,
and aliases are followed a bounded number of times. A `Schema` says what scalars
stand for and whether the value shows tags.
-/

namespace Galley.Yaml

/-- The greatest depth of nested collections. -/
def depthLimit : Nat := 128

inductive Step where
  | alias (id : Nat)
  | scalar (tag : Option String) (text : String) (style : ScalarStyle)
  | seqStart (tag : Option String)
  | seqEnd
  | mapStart (tag : Option String)
  | mapEnd
  deriving Inhabited

/-- The events of one document. -/
structure Recording where
  steps : Array (Step × Mark) := #[]
  /-- The place of each anchor, by its number. -/
  places : List (Nat × Nat) := []
  /-- The fault that ended the recording. -/
  fault : Option Fault := none
  deriving Inhabited

namespace Recording

/-- The anchors seen so far. A name that is used again gets a new number. -/
abbrev Anchors := List (String × Nat)

def addStep (r : Recording) (s : Step) (m : Mark) : Recording :=
  { r with steps := r.steps.push (s, m) }

/-- Notes that the next step carries an anchor. The new number is the number of
different names so far. -/
def addAnchor (r : Recording) (anchors : Anchors) (name : Option String) : Recording × Anchors :=
  match name with
  | none => (r, anchors)
  | some name =>
    let id := anchors.length
    let anchors' := (name, id) :: anchors.filter fun a => a.1 != name
    ({ r with places := (id, r.steps.size) :: r.places }, anchors')

/-- Records until the end of the document. The answer has the machine after it,
or nothing when the stream is over or a fault was met. -/
def collect : Nat → Anchors → Recording → EventStream → Recording × Option EventStream
  | 0, _, r, _ => (r, none)
  | fuel + 1, anchors, r, p =>
    match p.next with
    | .error f => ({ r with fault := some f }, none)
    | .ok (e, p) =>
      match e.kind with
      | .streamEnd => (r, none)
      | .documentStart => collect fuel anchors r p
      | .documentEnd => (r, some p)
      | .alias name =>
        match anchors.find? fun a => a.1 == name with
        | some (_, id) => collect fuel anchors (r.addStep (.alias id) e.mark) p
        | none => ({ r with fault := some (Fault.at e.mark) }, none)
      | .scalar anchor tag text style =>
        let (r, anchors) := r.addAnchor anchors anchor
        collect fuel anchors (r.addStep (.scalar tag text style) e.mark) p
      | .seqStart anchor tag =>
        let (r, anchors) := r.addAnchor anchors anchor
        collect fuel anchors (r.addStep (.seqStart tag) e.mark) p
      | .mapStart anchor tag =>
        let (r, anchors) := r.addAnchor anchors anchor
        collect fuel anchors (r.addStep (.mapStart tag) e.mark) p
      | .seqEnd => collect fuel anchors (r.addStep .seqEnd e.mark) p
      | .mapEnd => collect fuel anchors (r.addStep .mapEnd e.mark) p

def ofText (text : List Char) : Recording × Option EventStream :=
  if text.all isAllowed then
    collect (16 * (text.length + 4)) [] {} (EventStream.ofText text)
  else ({ fault := some ⟨1⟩ }, none)

end Recording

/-! ### Building the value -/

/-- The position in a recording and the number of aliases followed so far. -/
structure Place where
  at' : Nat
  jumps : Nat
  deriving Inhabited

/-- The tag that is shown in the value: one that starts with `!`, without that
mark unless it is all there is. -/
def shownTag? (tag : Option String) : Option String :=
  match tag.map String.toList with
  | some ['!'] => some "!"
  | some ('!' :: rest) => some (String.ofList rest)
  | _ => none

/-- The step at a place; behind the last one lies the fault that ended the
recording. -/
def Recording.step (r : Recording) (i : Nat) : Except Fault (Step × Mark) :=
  match r.steps[i]? with
  | some s => .ok s
  | none => .error (r.fault.getD ⟨0⟩)

/-- What scalars stand for, given their tag unless the value shows it, and
whether the value shows tags. A scalar may be refused. -/
structure Schema where
  scalar : Option String → String → ScalarStyle → Option Value
  showsTags : Bool

def Schema.core : Schema where
  scalar tag text style :=
    match tag with
    | some t => Scalar.core? t text.toList
    | none => if style == .plain then Scalar.plain? text.toList else some (.text text)
  showsTags := true

variable (schema : Schema)

/-- The tag of a value that is shown in it, unless it has been read already. -/
def Schema.ownTag? (tagged : Bool) (tag : Option String) : Option String :=
  if tagged || !schema.showsTags then none else shownTag? tag

def scalarValue (tag : Option String) (tagged : Bool) (text : String) (style : ScalarStyle)
    (m : Mark) : Except Fault Value :=
  match schema.scalar (if tagged then none else tag) text style with
  | some v => .ok v
  | none => .error (Fault.at m)

mutual

/-- The value at a place. `tagged` says that its tag has been read already. -/
def buildValue (r : Recording) : Nat → Nat → Bool → Place → Except Fault (Value × Place)
  | 0, _, _, _ => .error ⟨0⟩
  | fuel + 1, depth, tagged, p => do
    let (s, m) ← r.step p.at'
    let next : Place := { p with at' := p.at' + 1 }
    match s with
    | .alias id =>
      if p.jumps + 1 > r.steps.size * 100 then .error ⟨0⟩
      else
        match r.places.find? fun a => a.1 == id with
        | none => .error ⟨0⟩
        | some (_, i) =>
          let (v, q) ← buildValue r fuel depth false ⟨i, p.jumps + 1⟩
          return (v, { next with jumps := q.jumps })
    | .scalar tag text style =>
      match schema.ownTag? tagged tag with
      | some t =>
        let (v, q) ← buildValue r fuel depth true p
        return (.tagged t v, q)
      | none => return (← scalarValue schema tag tagged text style m, next)
    | .seqStart tag =>
      match schema.ownTag? tagged tag with
      | some t =>
        let (v, q) ← buildValue r fuel depth true p
        return (.tagged t v, q)
      | none =>
        match depth with
        | 0 => .error (Fault.at m)
        | depth + 1 =>
          let (items, q) ← buildItems r fuel depth [] next
          return (.seq items, q)
    | .mapStart tag =>
      match schema.ownTag? tagged tag with
      | some t =>
        let (v, q) ← buildValue r fuel depth true p
        return (.tagged t v, q)
      | none =>
        match depth with
        | 0 => .error (Fault.at m)
        | depth + 1 =>
          let (pairs, q) ← buildPairs r fuel depth m [] next
          return (.map pairs, q)
    | .seqEnd | .mapEnd => .error ⟨0⟩

/-- The items up to the end of a sequence; `acc` holds those read, in reverse. -/
def buildItems (r : Recording) : Nat → Nat → List Value → Place → Except Fault (List Value × Place)
  | 0, _, _, _ => .error ⟨0⟩
  | fuel + 1, depth, acc, p => do
    match ← r.step p.at' with
    | (.seqEnd, _) => return (acc.reverse, { p with at' := p.at' + 1 })
    | _ =>
      let (v, q) ← buildValue r fuel depth false p
      buildItems r fuel depth (v :: acc) q

/-- The pairs up to the end of a mapping that starts at `start`; `acc` holds
those read, in reverse. -/
def buildPairs (r : Recording) : Nat → Nat → Mark → Pairs → Place → Except Fault (Pairs × Place)
  | 0, _, _, _, _ => .error ⟨0⟩
  | fuel + 1, depth, start, acc, p => do
    match ← r.step p.at' with
    | (.mapEnd, _) => return (acc.reverse, { p with at' := p.at' + 1 })
    | _ =>
      let (k, q) ← buildValue r fuel depth false p
      if acc.contains k then .error (Fault.at start)
      else
        let (v, q) ← buildValue r fuel depth false q
        buildPairs r fuel depth start ((k, v) :: acc) q

end

def Recording.value? (r : Recording) : Except Fault (Option Value) :=
  if r.steps.isEmpty then
    match r.fault with
    | some f => .error f
    | none => .ok none
  else
    (buildValue schema r (136 * (r.steps.size + 4)) depthLimit false ⟨0, 0⟩).map
      fun v => some v.1

/-- The value of a text that holds at most one document; none if it holds no
document. -/
def readDocument (text : String) : Except Fault (Option Value) := do
  let (r, rest) := Recording.ofText text.toList
  let v ← r.value? schema
  match r.fault with
  | some f => .error f
  | none =>
    match rest with
    | none => return v
    | some p =>
      match p.next with
      | .ok (e, _) => if e.kind == .streamEnd then return v else .error ⟨0⟩
      | .error _ => .error ⟨0⟩

/-- The value of a text that holds at most one document, null if it holds none. -/
def readValue (text : String) : Except Fault Value :=
  (readDocument .core text).map fun v => v.getD .null

end Galley.Yaml
