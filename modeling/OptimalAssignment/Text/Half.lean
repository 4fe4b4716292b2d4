/-!
Halves of characters. The numbers from `0xD800` to `0xDFFF` stand for no characters, but for halves
of some; an escape may name one of them all the same. In texts they are kept as characters of a
range that is free for private use, and shown by their own numbers.
-/
namespace OptimalAssignment.Text

def halfCount : Nat := 0x800

def firstHalf : Nat := 0xD800

/-- The code point of the character that the first half is kept as. -/
def halfRoom : Nat := 0xFA000

def isHalf (c : Char) : Bool :=
  halfRoom ≤ c.toNat && c.toNat < halfRoom + halfCount

/-- The character that a number is kept as. -/
def ofCode (n : Nat) : Char :=
  if firstHalf ≤ n ∧ n < firstHalf + halfCount then Char.ofNat (n - firstHalf + halfRoom)
  else Char.ofNat n

/-- The number that a character is shown by. -/
def code (c : Char) : Nat :=
  if isHalf c then c.toNat - halfRoom + firstHalf else c.toNat

end OptimalAssignment.Text
