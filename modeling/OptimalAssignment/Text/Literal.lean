import OptimalAssignment.Text.Half
import OptimalAssignment.Text.Printable

/-!
Text literals. A text stands between quotes: single ones, unless it holds a single and no double
quote. Quotes, backslashes and unprintable characters are escaped. Bytes are shown in the same way
behind a letter.
-/
namespace OptimalAssignment.Text

/-- The digits of a number to base sixteen, in lower case, padded with zeros to a width. -/
def hexPadded (width n : Nat) : String :=
  let cs := Nat.toDigits 16 n
  String.ofList (List.replicate (width - cs.length) '0' ++ cs)

/-- One character of a literal between the given quotes. -/
def escape (quote c : Char) : String :=
  if c == quote || c == '\\' then "\\" ++ String.singleton c
  else if c == '\n' then "\\n"
  else if c == '\r' then "\\r"
  else if c == '\t' then "\\t"
  else if isPrintable c then String.singleton c
  else if code c < 0x100 then "\\x" ++ hexPadded 2 (code c)
  else if code c < 0x10000 then "\\u" ++ hexPadded 4 (code c)
  else "\\U" ++ hexPadded 8 (code c)

def quoteFor (cs : List Char) : Char :=
  if cs.contains '\'' && !cs.contains '"' then '"' else '\''

def literal (s : String) : String :=
  let cs := s.toList
  let quote := quoteFor cs
  String.singleton quote ++ String.join (cs.map (escape quote)) ++ String.singleton quote

/-- One byte of a literal between the given quotes; beyond plain characters it is a number. -/
def escapeByte (quote : Char) (b : UInt8) : String :=
  if b < 127 then escape quote (Char.ofNat b.toNat) else "\\x" ++ hexPadded 2 b.toNat

def bytesLiteral (bytes : List UInt8) : String :=
  let quote := quoteFor (bytes.map fun b => Char.ofNat b.toNat)
  "b" ++ String.singleton quote ++ String.join (bytes.map (escapeByte quote))
    ++ String.singleton quote

end OptimalAssignment.Text
