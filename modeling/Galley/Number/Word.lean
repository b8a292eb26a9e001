/-!
The whole numbers that fit words of a given number of bits.
-/

namespace Galley.Number

def wordCount (bits : Nat) : Nat :=
  Nat.pow 2 bits

/-- Whether a number is the value of a word without a sign. -/
def fitsUnsigned (bits : Nat) (n : Int) : Bool :=
  0 ≤ n && n < wordCount bits

/-- Whether a number is the value of a word with a sign. -/
def fitsSigned (bits : Nat) (n : Int) : Bool :=
  -(wordCount (bits - 1) : Int) ≤ n && n < wordCount (bits - 1)

end Galley.Number
