/-!
Bytes written with sixty-four characters, four for three bytes. Characters that are none of them do
not count. Equals signs that complete a group of four end the text.
-/
namespace OptimalAssignment.Text

def sextetChars : List Char :=
  "ABCDEFGHIJKLMNOPQRSTUVWXYZabcdefghijklmnopqrstuvwxyz0123456789+/".toList

def sextet? (c : Char) : Option Nat :=
  sextetChars.idxOf? c

/-- The bytes that characters spell from inside a group on: a number of characters of the group are
read, their bits beyond whole bytes are kept, and so many equals signs came last. -/
def bytesFrom : Nat → Nat → Nat → List UInt8 → List Char → Option (List UInt8)
  | place, _, _, bytes, [] => if place = 0 then some bytes else none
  | place, kept, signs, bytes, c :: cs =>
    if c == '=' then
      if 2 ≤ place then
        if 4 ≤ place + signs + 1 then some bytes else bytesFrom place kept (signs + 1) bytes cs
      else bytesFrom place kept signs bytes cs
    else
      match sextet? c with
      | none => bytesFrom place kept signs bytes cs
      | some n =>
        match place with
        | 0 => bytesFrom 1 n 0 bytes cs
        | 1 => bytesFrom 2 (n % 16) 0 (bytes ++ [UInt8.ofNat (kept * 4 + n / 16)]) cs
        | 2 => bytesFrom 3 (n % 4) 0 (bytes ++ [UInt8.ofNat (kept * 16 + n / 4)]) cs
        | _ => bytesFrom 0 0 0 (bytes ++ [UInt8.ofNat (kept * 64 + n)]) cs

def ofBase64? (s : String) : Option (List UInt8) :=
  bytesFrom 0 0 0 [] s.toList

/-- The characters of up to three bytes: six bits each, and equals signs for what is missing. -/
def groupOf (bytes : List UInt8) : List Char :=
  let bits := (bytes.map UInt8.toNat).foldl (fun n b => 256 * n + b) 0 * Nat.pow 256 (3 - bytes.length)
  let chars := [bits / 262144, bits / 4096, bits / 64, bits].map fun n =>
    sextetChars.getD (n % 64) 'A'
  chars.take (bytes.length + 1) ++ List.replicate (3 - bytes.length) '='

def toBase64 : List UInt8 → List Char
  | a :: b :: c :: rest => groupOf [a, b, c] ++ toBase64 rest
  | [] => []
  | rest => groupOf rest

end OptimalAssignment.Text
