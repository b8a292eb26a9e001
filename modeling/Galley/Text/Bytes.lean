/-!
Texts in bytes, by UTF-8.

`repaired` reads any bytes. Where they do not go on as a character does, the
replacement character stands for the bytes read so far, and reading starts again
at the byte that did not fit.
-/

namespace Galley.Text

/-- The character that stands for bytes which are none. -/
def replacement : Char := '\ufffd'

/-- The form of a character in several bytes. -/
structure ByteForm where
  /-- The number of bytes after the first. -/
  length : Nat
  /-- The bounds of the second byte. -/
  low : Nat
  high : Nat
  /-- The bits in the first byte. -/
  bits : Nat

/-- The form that a first byte tells. The bounds of the second byte leave out
long spellings, surrogates, and all beyond the last character. -/
def ByteForm.ofFirst? (n : Nat) : Option ByteForm :=
  if 0xC2 ≤ n && n ≤ 0xDF then some ⟨1, 0x80, 0xBF, n - 0xC0⟩
  else if 0xE0 ≤ n && n ≤ 0xEF then
    some ⟨2, if n == 0xE0 then 0xA0 else 0x80, if n == 0xED then 0x9F else 0xBF, n - 0xE0⟩
  else if 0xF0 ≤ n && n ≤ 0xF4 then
    some ⟨3, if n == 0xF0 then 0x90 else 0x80, if n == 0xF4 then 0x8F else 0xBF, n - 0xF0⟩
  else none

/-- Reads `length` more bytes of a character, the next of them within bounds. -/
def readBytes : (length low high bits : Nat) → List UInt8 → Char × List UInt8
  | 0, _, _, bits, s => (Char.ofNat bits, s)
  | _ + 1, _, _, _, [] => (replacement, [])
  | length + 1, low, high, bits, b :: s =>
    if low ≤ b.toNat && b.toNat ≤ high then
      readBytes length 0x80 0xBF (bits * 0x40 + (b.toNat - 0x80)) s
    else (replacement, b :: s)

/-- Reading a character gives no bytes back that were not there. -/
theorem readBytes_length_le (length low high bits : Nat) (s : List UInt8) :
    (readBytes length low high bits s).2.length ≤ s.length := by
  induction s generalizing length low high bits with
  | nil => cases length <;> simp [readBytes]
  | cons b s ih =>
    cases length with
    | zero => simp [readBytes]
    | succ length =>
      simp only [readBytes]
      split
      · exact Nat.le_succ_of_le (ih ..)
      · exact Nat.le_refl _

/-- The first character of bytes, and the bytes behind it. -/
def readChar (b : UInt8) (s : List UInt8) : Char × List UInt8 :=
  if b.toNat < 0x80 then (Char.ofNat b.toNat, s)
  else
    match ByteForm.ofFirst? b.toNat with
    | some f => readBytes f.length f.low f.high f.bits s
    | none => (replacement, s)

theorem readChar_length_le (b : UInt8) (s : List UInt8) :
    (readChar b s).2.length ≤ s.length := by
  unfold readChar
  split
  · exact Nat.le_refl _
  · split
    · exact readBytes_length_le ..
    · exact Nat.le_refl _

def repaired : List UInt8 → List Char
  | [] => []
  | b :: s =>
    have := readChar_length_le b s
    (readChar b s).1 :: repaired (readChar b s).2
termination_by s => s.length
decreasing_by simp only [List.length_cons]; omega

end Galley.Text
