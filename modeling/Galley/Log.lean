/-!
Computations that keep a log.

A `Logged` value comes with the lines written on the way to it. Running one
computation after another appends their lines, and nothing ever removes a line.
-/

namespace Galley

/-- The levels of a log, from the most detailed. -/
inductive LogLevel where
  | trace
  | debug
  | info
  | warn
  | error
  deriving DecidableEq, Inhabited

namespace LogLevel

def name : LogLevel → String
  | .trace => "TRACE"
  | .debug => "DEBUG"
  | .info => "INFO"
  | .warn => "WARN"
  | .error => "ERROR"

/-- The level of a name in upper or lower case. -/
def ofName? (s : String) : Option LogLevel :=
  [trace, debug, info, warn, error].find? fun l => l.name.toList == s.toList.map Char.toUpper

/-- Every level is found by its name. -/
theorem ofName?_name (l : LogLevel) : ofName? l.name = some l := by
  cases l <;> rfl

end LogLevel

structure LogLine where
  level : LogLevel
  text : String
  deriving DecidableEq, Inhabited

/-- A value and the log lines written on the way to it. -/
@[ext] structure Logged (α : Type) where
  value : α
  lines : List LogLine := []

namespace Logged

variable {α β : Type}

instance [Inhabited α] : Inhabited (Logged α) := ⟨{ value := default }⟩

instance : Monad Logged where
  pure a := { value := a }
  bind x f := { value := (f x.value).value, lines := x.lines ++ (f x.value).lines }

@[simp] theorem value_pure (a : α) : (pure a : Logged α).value = a := rfl

@[simp] theorem lines_pure (a : α) : (pure a : Logged α).lines = [] := rfl

@[simp] theorem value_bind (x : Logged α) (f : α → Logged β) :
    (x >>= f).value = (f x.value).value := rfl

@[simp] theorem lines_bind (x : Logged α) (f : α → Logged β) :
    (x >>= f).lines = x.lines ++ (f x.value).lines := rfl

instance : LawfulMonad Logged :=
  LawfulMonad.mk' Logged
    (fun x => by ext1 <;> simp [Functor.map])
    (fun a f => by ext1 <;> simp)
    (fun x f g => by ext1 <;> simp)

def write (level : LogLevel) (text : String) : Logged Unit :=
  { value := (), lines := [⟨level, text⟩] }

def detail (text : String) : Logged Unit :=
  write .debug text

@[simp] theorem lines_write (level : LogLevel) (text : String) :
    (write level text).lines = [⟨level, text⟩] := rfl

/-- The outcome of a computation that may fail and goes on with its result. -/
theorem value_run_bind {ε : Type} (x : ExceptT ε Logged α) (f : α → ExceptT ε Logged β) :
    (x >>= f).run.value =
      match x.run.value with
      | .ok a => (f a).run.value
      | .error e => .error e := by
  rw [ExceptT.run_bind, value_bind]
  cases x.run.value <;> rfl

end Logged

end Galley
