import Galley.Files.Tree
import Galley.Log
import Galley.Yaml.Show

/-!
What can go wrong between model files and a model.

`ModelFault` lists the causes and `ModelFault.message` their wording. Causes that
come from outside, such as a loader, a resolver or a type of values of a caller,
have a wording of their own. The text of a syntax fault, of a pattern fault and of
a fault of the operating system about a scratch file is not told apart: a word in
angle brackets stands for it. `Attempt` is a computation that keeps a log and may
end in a fault.
-/

namespace Galley

/-- What a decoder met in place of what it expected. -/
inductive Met where
  | unit
  | boolean (b : Bool)
  | whole (n : Int)
  | binary (x : Binary64)
  | text (s : String)
  | sequence
  | mapping
  | tag
  deriving DecidableEq, Inhabited

def Met.shown : Met → String
  | unit => "unit value"
  | boolean b => Text.entries "boolean \x60" "\x60" [if b then "true" else "false"]
  | whole n => Text.entries "integer \x60" "\x60" [Number.renderWhole n]
  | binary x => Text.entries "floating point \x60" "\x60" [Number.renderPointed x]
  | text s => "string " ++ Text.quoted s
  | sequence => "sequence"
  | mapping => "map"
  | tag => "enum"

/-- Why a section of a document could not be decoded. -/
inductive DecodeFault where
  | wrongKind (met : Met) (expected : String)
  | outOfRange (n : Int) (expected : String)
  | missingField (name : String)
  | repeatedField (name : String)
  /-- A tag inside an attribute that is passed through. -/
  | tagInside
  | notSequence (kind : String)
  | custom (message : String)
  deriving DecidableEq, Inhabited

def DecodeFault.message : DecodeFault → String
  | wrongKind met expected => "invalid type: " ++ met.shown ++ ", expected " ++ expected
  | outOfRange n expected =>
    "invalid value: " ++ (Met.whole n).shown ++ ", expected " ++ expected
  | missingField name => Text.entries "missing field \x60" "\x60" [name]
  | repeatedField name => Text.entries "duplicate field \x60" "\x60" [name]
  | tagInside => "untagged and internally tagged enums do not support enum input"
  | notSequence kind => "expected a sequence, found " ++ kind
  | custom message => message

/-- Why a value has no plain form. -/
inductive PlainFault where
  | keyNotText
  | keyNotFinite
  | custom (message : String)
  deriving DecidableEq, Inhabited

def PlainFault.message : PlainFault → String
  | keyNotText => "key must be a string"
  | keyNotFinite => "float key must be finite (got NaN or +/-inf)"
  | custom message => message

/-- Why a text is no document. -/
inductive DocumentFault where
  | notYaml (line : Nat)
  | keyNotText (key : Yaml.Value)
  | notMapping (kind : String)
  | custom (line : Nat) (message : String)
  deriving Inhabited

namespace DocumentFault

/-- The line at which a fault is reported, zero when none is known. -/
def line : DocumentFault → Nat
  | notYaml line | custom line _ => line
  | _ => 0

def message : DocumentFault → String
  | notYaml _ => "<yaml>"
  | keyNotText key => "top-level keys must be strings, found " ++ key.shown
  | notMapping kind => "top-level value must be a mapping, found " ++ kind
  | custom _ message => message

end DocumentFault

/-- A step of a build that came out of order. -/
inductive OrderFault where
  | filesAfterBuild
  | resolversAfterBuild
  | secondBuild
  | beforeBuild
  | afterFailure (reason : String)
  | noModel
  | custom (message : String)
  deriving DecidableEq, Inhabited

def OrderFault.message : OrderFault → String
  | filesAfterBuild => "cannot add model files after build()"
  | resolversAfterBuild => "cannot add resolvers after build()"
  | secondBuild => "cannot call build() again after build()"
  | beforeBuild => "model accessed before build()"
  | afterFailure reason => "model unavailable, build failed: " ++ reason
  | noModel => "No model loaded; call with_model() first"
  | custom message => message

/-- What can go wrong between model files and a model. -/
inductive ModelFault where
  | missing (path : FilePath)
  | unreadable (path : FilePath) (cause : ReadFault)
  | malformed (path : FilePath) (cause : DocumentFault)
  | order (cause : OrderFault)
  | unresolved (resolver key : String) (cause : DecodeFault)
  | badPattern (pattern : String) (message : String := "<glob>")
  | notSearched (root : FilePath) (message : String)
  | notPlain (cause : PlainFault)
  | io (message : String := "<io>")
  deriving Inhabited

namespace ModelFault

def message : ModelFault → String
  | missing path => "Model file not found: " ++ path.shown
  | unreadable path cause =>
    "Failed to read model file " ++ path.shown ++ ": " ++ cause.message
  | malformed path cause =>
    "Malformed model file " ++ path.shown ++ ":" ++ toString cause.line ++ ": " ++ cause.message
  | order cause => "Build sequence error: " ++ cause.message
  | unresolved resolver key cause =>
    "Resolver " ++ resolver ++ " failed on key '" ++ key ++ "': " ++ cause.message
  | badPattern pattern message => "Invalid model file pattern '" ++ pattern ++ "': " ++ message
  | notSearched root message => "Model discovery failed under " ++ root.shown ++ ": " ++ message
  | notPlain cause => "Serialization error: " ++ cause.message
  | io message => "IO error: " ++ message

def isLoadFault : ModelFault → Bool
  | missing _ | unreadable _ _ | malformed _ _ => true
  | _ => false

def path? : ModelFault → Option FilePath
  | missing path | unreadable path _ | malformed path _ => some path
  | _ => none

end ModelFault

/-- A computation that keeps a log and may end in a fault. -/
abbrev Attempt := ExceptT ModelFault Logged

namespace Attempt

variable {α : Type}

def fail (f : ModelFault) : Attempt α :=
  throw f

def write (level : LogLevel) (text : String) : Attempt Unit :=
  liftM (Logged.write level text)

def ofExcept (x : Except ModelFault α) : Attempt α :=
  ExceptT.mk (pure x)

def outcome (x : Attempt α) : Except ModelFault α :=
  (ExceptT.run x).value

def lines (x : Attempt α) : List LogLine :=
  (ExceptT.run x).lines

end Attempt

end Galley
