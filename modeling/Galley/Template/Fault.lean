import Galley.Text.Quoted

/-!
What can go wrong when a template is rendered.
-/

namespace Galley.Template

/-- Why a tag of a template could not be rendered. -/
inductive Reason where
  | noHelper (name : String)
  | noDecorator (name : String)
  | noPartial (name : String)
  | noValue (path : Option String)
  | textIndex (key : String)
  | noParam (helper : String) (index : Nat)
  | noNamedParam (helper name : String)
  | wrongParam (helper name type : String)
  | nameNotText
  | noBlock
  | noLogLevel (name : String)
  | selfInclusion
  | tooDeep
  deriving DecidableEq, Inhabited

def Reason.message : Reason → String
  | noHelper name => "Helper not found " ++ name
  | noDecorator name => "Decorator not found " ++ name
  | noPartial name => "Partial not found " ++ name
  | noValue path =>
    "Failed to access variable in strict mode " ++ Text.optional (path.map Text.quoted)
  | textIndex key => "Cannot access array/vector with string index, " ++ key
  | noParam helper index =>
    "Helper/Decorator " ++ helper ++ " param at index " ++ toString index ++
      " required but not found"
  | noNamedParam helper name =>
    "Helper/Decorator " ++ helper ++ " param with name " ++ name ++ " required but not found"
  | wrongParam helper name type =>
    "Helper/Decorator " ++ helper ++ " param with name " ++ name ++ " type mismatch for " ++ type
  | nameNotText => "Invalid param type, String expected"
  | noBlock => "Block content required"
  | noLogLevel name => "Invalid logging level: " ++ name
  | selfInclusion => "Can not include current template in partial"
  | tooDeep => "Templates are nested too deeply"

/-- Why a template has no output: it is no template, or the tag at a line could
not be rendered. A renderer of a caller tells it in its own words. -/
inductive Fault where
  | notTemplate
  | failed (line : Nat) (reason : Reason)
  | custom (message : String)
  deriving DecidableEq, Inhabited

def Fault.message : Fault → String
  | notTemplate | failed _ _ => "<handlebars>"
  | custom message => message

end Galley.Template
