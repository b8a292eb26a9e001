import Galley.Text.Hidden

/-!
Quoted texts as messages show them.

A quoted text stands between double quotes. The quote and the backslash are
escaped, tab, carriage return, line feed and the zero character have letters,
and a hidden character is shown by its number. `entries` lays out the parts of
a composite value on one line.
-/

namespace Galley.Text

def hexDigits (n : Nat) : List Char :=
  Nat.toDigits 16 n

/-- What stands for a character between quotes. -/
def quoteChar (c : Char) : List Char :=
  match c with
  | '"' => ['\\', '"']
  | '\\' => ['\\', '\\']
  | '\t' => ['\\', 't']
  | '\r' => ['\\', 'r']
  | '\n' => ['\\', 'n']
  | '\x00' => ['\\', '0']
  | c => if isHidden c then ['\\', 'u', '\x7b'] ++ hexDigits c.toNat ++ ['\x7d'] else [c]

def quoted (s : String) : String :=
  String.ofList ('"' :: s.toList.flatMap quoteChar ++ ['"'])

/-- Parts between an opening and a closing bracket. -/
def entries (opening closing : String) (parts : List String) : String :=
  opening ++ String.intercalate ", " parts ++ closing

def listed (parts : List String) : String :=
  entries "[" "]" parts

def mapped (parts : List (String × String)) : String :=
  entries "\x7b" "\x7d" (parts.map fun kv => kv.1 ++ ": " ++ kv.2)

def recorded (name : String) (parts : List (String × String)) : String :=
  entries (name ++ " \x7b ") " \x7d" (parts.map fun kv => kv.1 ++ ": " ++ kv.2)

def optional (shown : Option String) : String :=
  match shown with
  | none => "None"
  | some s => entries "Some(" ")" [s]

end Galley.Text
