import Galley.CheckFault
import Galley.Log
import Galley.Template.Render

/-!
Rendering template texts against a context.

What renders templates is up to the caller. The engine is a renderer that keeps
templates under names for others to include. In strict mode a path that leads
nowhere is a fault; otherwise it prints nothing.
-/

namespace Galley

/-- Renders the text of a template, which has a name, against a context. A renderer compares no
outputs, so what goes wrong in it is no failed comparison. -/
structure Renderer where
  render : (name text : String) → (context : Json) → Logged (Except CheckFault String)
  isFailure_of_render : ∀ {name text context e},
    (render name text context).value = .error e → e.isFailure = false

/-- A renderer with the templates it keeps. -/
structure Engine where
  isStrict : Bool := false
  templates : List (String × Template) := []
  deriving Inhabited

namespace Engine

def names (r : Engine) : List String :=
  Fields.keys r.templates

def keep (r : Engine) (name text : String) : Except CheckFault Engine :=
  match Template.ofText? text (some name) with
  | some t => .ok { r with templates := Fields.insert name t r.templates }
  | none => .error (.render name .notTemplate)

def keepAll (r : Engine) (entries : List (String × String)) : Except CheckFault Engine :=
  entries.foldlM (fun r e => r.keep e.1 e.2) r

/-- The output of a template text; the name stands for it in faults. -/
def output (r : Engine) (name text : String) (context : Json) : Except CheckFault String :=
  match Template.ofText? text with
  | none => .error (.render name .notTemplate)
  | some t =>
    (t.render { isStrict := r.isStrict, templates := r.templates, root := context }).mapError
      (.render name)

theorem isFailure_of_output {r : Engine} {name text : String} {context : Json} {e : CheckFault}
    (h : r.output name text context = .error e) : e.isFailure = false := by
  rw [output] at h
  split at h
  · cases h
    rfl
  · generalize Template.render _ _ = rendered at h
    cases rendered with
    | error cause =>
        cases h
        rfl
    | ok text => cases h

/-- The engine as a renderer; it logs what it renders. -/
def renderer (r : Engine) : Renderer where
  render name text context := do
    Logged.detail ("Rendering template " ++ name)
    return r.output name text context
  isFailure_of_render := isFailure_of_output

end Engine

instance : Inhabited Renderer :=
  ⟨({} : Engine).renderer⟩

end Galley
