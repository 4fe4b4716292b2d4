import OptimalAssignment.Text.Base64
import OptimalAssignment.Value
import OptimalAssignment.Yaml.Cursor

/-!
Tags say what a node is. A plain scalar without a tag is what its text looks like: a truth value, a
float, a whole number, a moment, nothing, or one of two marks with a meaning of their own; any other
text is a text. Numbers may have underscores and parts to base sixty.
-/
namespace OptimalAssignment.Yaml

inductive Tag where
  | null
  | truth
  | integer
  | real
  | moment
  | text
  | bytes
  | sequence
  | mapping
  | set
  /-- A sequence of pairs, each written as a mapping with one entry. -/
  | pairs
  /-- The mark of a key whose value is merged into the mapping. -/
  | merge
  /-- The mark of a key that holds the value of a mapping. -/
  | value
  | unknown
deriving Repr, DecidableEq, Inhabited

namespace Tag

/-- The addresses of the tags in common use. -/
def names : List (String × Tag) :=
  [("null", null), ("bool", truth), ("int", integer), ("float", real), ("timestamp", moment),
    ("str", text), ("binary", bytes), ("seq", sequence), ("map", mapping), ("set", set),
    ("omap", pairs), ("pairs", pairs), ("merge", merge), ("value", value)]

def ofAddress (s : String) : Tag :=
  ((names.find? fun (name, _) => "tag:yaml.org,2002:" ++ name == s).map (·.2)).getD unknown

end Tag

/-! ### The looks of plain scalars -/

def unsigned (cs : List Char) : List Char :=
  (Decimal.splitSign cs).2

def isDigitOrLow (c : Char) : Bool :=
  c.isDigit || c == '_'

/-- Words for truth values, as they are written small. -/
def truthWords : List (String × Bool) :=
  [("yes", true), ("no", false), ("true", true), ("false", false), ("on", true), ("off", false)]

/-- A word small, with a capital, and in capitals. -/
def spellings (s : String) : List String :=
  match s.toList with
  | [] => [s]
  | c :: cs => [s, String.ofList (c.toUpper :: cs), String.ofList ((c :: cs).map Char.toUpper)]

def looksTrue (s : String) : Bool :=
  truthWords.any fun (word, _) => (spellings word).contains s

def looksNull (s : String) : Bool :=
  s == "" || s == "~" || (spellings "null").contains s

/-- Parts behind colons, each of one digit, or of two of which the first is below six; what is left
behind them if there is at least one. -/
def sixties : List Char → Option (List Char)
  | ':' :: a :: b :: rest =>
    if '0' ≤ a && a ≤ '5' && b.isDigit then some ((sixties rest).getD rest)
    else if a.isDigit then some ((sixties (b :: rest)).getD (b :: rest))
    else none
  | [':', a] => if a.isDigit then some [] else none
  | _ => none

/-- Whether a text looks like a whole number: to base two, eight, ten, sixteen or sixty. -/
def looksInteger (s : String) : Bool :=
  match unsigned s.toList with
  | [] => false
  | ['0'] => true
  | '0' :: 'b' :: rest => !rest.isEmpty && rest.all fun c => c == '0' || c == '1' || c == '_'
  | '0' :: 'x' :: rest => !rest.isEmpty && rest.all fun c => isHexLow c
  | '0' :: rest => rest.all fun c => ('0' ≤ c && c ≤ '7') || c == '_'
  | first :: rest =>
    first.isDigit &&
      (let tail := rest.dropWhile isDigitOrLow
       tail.isEmpty || sixties tail == some [])
where
  /-- Whether a character is a hexadecimal digit or an underscore. -/
  isHexLow (c : Char) : Bool :=
    c.isDigit || ('a' ≤ c && c ≤ 'f') || ('A' ≤ c && c ≤ 'F') || c == '_'

/-- Whether a text is nothing or an exponent with a sign. -/
def looksExponent : List Char → Bool
  | [] => true
  | e :: sign :: digits =>
    (e == 'e' || e == 'E') && (sign == '+' || sign == '-') && !digits.isEmpty
      && digits.all Char.isDigit
  | _ => false

/-- Whether a text looks like a float: it has a point, and an exponent only with a sign. -/
def looksReal (s : String) : Bool :=
  let cs := s.toList
  let body := unsigned cs
  let endless := [".inf", ".Inf", ".INF"]
  let undefined := [".nan", ".NaN", ".NAN"]
  endless.contains (String.ofList body) || undefined.contains s ||
    match body with
    | '.' :: first :: rest =>
      body.length == cs.length && first.isDigit && looksExponent (rest.dropWhile isDigitOrLow)
    | first :: rest =>
      first.isDigit &&
        match rest.dropWhile isDigitOrLow with
        | '.' :: tail => looksExponent (tail.dropWhile isDigitOrLow)
        | tail =>
          match sixties tail with
          | some ('.' :: tail) => tail.all isDigitOrLow
          | _ => false
    | [] => false

/-- Digits at the head of a text, between a least and a greatest count, and the rest. -/
def someDigits (least most : Nat) (cs : List Char) : Option (Nat × List Char) :=
  let ds := (cs.take most).takeWhile Char.isDigit
  if least ≤ ds.length then some (Decimal.numberOf ds, cs.drop ds.length) else none

/-- A character at the head of a text. -/
def after (c : Char) : List Char → Option (List Char)
  | d :: rest => if c == d then some rest else none
  | [] => none

/-- The first six digits of a fraction of a second, as millionths. -/
def micros (ds : List Char) : Nat :=
  let kept := ds.take 6
  Decimal.numberOf (kept ++ List.replicate (6 - kept.length) '0')

/-- The distance from universal time at the end of a moment, in seconds. -/
def zone? (cs : List Char) : Option (Option Int) :=
  let cs' := cs.dropWhile fun c => c == ' ' || c == '\t'
  match cs' with
  | [] => if cs.isEmpty then some none else none
  | ['Z'] => some (some 0)
  | sign :: rest => do
    if sign != '+' && sign != '-' then none
    let (hours, rest) ← someDigits 1 2 rest
    let minutes ←
      match rest with
      | [] => some 0
      | rest => do
        let (minutes, rest) ← someDigits 2 2 (← after ':' rest)
        if rest.isEmpty then some minutes else none
    let n : Int := 3600 * hours + 60 * minutes
    return some (if sign == '-' then -n else n)

def clock? (cs : List Char) : Option Clock := do
  let rest ←
    match cs with
    | 'T' :: rest => some rest
    | 't' :: rest => some rest
    | c :: _ =>
      if c == ' ' || c == '\t' then some (cs.dropWhile fun c => c == ' ' || c == '\t') else none
    | [] => none
  let (hour, rest) ← someDigits 1 2 rest
  let (minute, rest) ← someDigits 2 2 (← after ':' rest)
  let (second, rest) ← someDigits 2 2 (← after ':' rest)
  let (fraction, rest) :=
    match rest with
    | '.' :: rest => (rest.takeWhile Char.isDigit, rest.dropWhile Char.isDigit)
    | rest => ([], rest)
  let offset ← zone? rest
  return ⟨hour, minute, second, micros fraction, offset⟩

/-- A moment: year, month and day, and perhaps a time. It need not lie within the calendar. -/
def moment? (s : String) : Option Moment := do
  let (year, rest) ← someDigits 4 4 s.toList
  let (month, rest) ← someDigits 1 2 (← after '-' rest)
  let (day, rest) ← someDigits 1 2 (← after '-' rest)
  match rest with
  | [] => return ⟨year, month, day, none⟩
  | rest => return ⟨year, month, day, some (← clock? rest)⟩

/-- Whether a text looks like a moment; a day alone has two digits for month and day. -/
def looksMoment (s : String) : Bool :=
  match moment? s with
  | some m => m.clock.isSome || s.length == 10
  | none => false

def withoutFeed (s : String) : String :=
  let cs := s.toList
  bif cs.getLast? == some '\n' then String.ofList cs.dropLast else s

def Tag.ofLooks (s : String) : Tag :=
  bif looksNull s then .null
  else bif looksTrue s then .truth
  else bif looksReal s then .real
  else bif looksInteger s then .integer
  else bif s == "<<" then .merge
  else bif looksMoment s then .moment
  else bif s == "=" then .value
  else bif s == "!" || s == "&" || s == "*" then .unknown
  else .text

/-- The tag of a scalar that is told by its looks; a line feed at its end does not count. -/
def Tag.ofPlain (s : String) : Tag :=
  bif s == "\n" then .text else ofLooks (withoutFeed s)

/-! ### The values of scalars -/

def withoutLow (s : String) : List Char :=
  s.toList.filter (· != '_')

def colonParts (cs : List Char) : List String :=
  (String.ofList cs).splitOn ":"

/-- The whole number that a text without underscores and sign spells. -/
def wholeNumber? (cs : List Char) : Option Int :=
  match cs with
  | ['0'] => some 0
  | '0' :: 'b' :: rest => Decimal.integerTo? 2 'b' 'B' (String.ofList rest)
  | '0' :: 'x' :: rest => Decimal.integerTo? 16 'x' 'X' (String.ofList rest)
  | '0' :: _ => Decimal.integerTo? 8 'o' 'O' (String.ofList cs)
  | _ =>
    if cs.contains ':' then
      ((colonParts cs).mapM Decimal.integer?).map fun parts =>
        parts.foldl (fun n part => 60 * n + part) 0
    else Decimal.integer? (String.ofList cs)

/-- What an optional result comes to when it is missing. -/
def orFault {α : Type} (fault : YamlFault) : Option α → Except YamlFault α
  | some a => .ok a
  | none => .error fault

def integerOf (s : String) : Except YamlFault Int := do
  let (negative, body) := Decimal.splitSign (withoutLow s)
  if body.isEmpty then throw .noCharacters
  let n ← orFault .noSuchValue (wholeNumber? body)
  return if negative then -n else n

/-- The sum of parts to base sixty, the last part first; the sixties of too many parts are beyond
all floats. -/
def sixtySum (parts : List Float) : Except YamlFault Float :=
  if 174 < parts.length then .error .outOfReach
  else
    .ok ((parts.reverse.zipIdx.map fun (part, k) => part * Float.ofNat (Nat.pow 60 k)).foldl (· + ·) 0.0)

/-- The float that a scalar spells. The undefined float is one thing if it is named, and a new one
if it is read off digits. -/
def realOf (s : String) : Except YamlFault Atom := do
  let cs := (withoutLow s).map Char.toLower
  if cs.isEmpty then throw .noCharacters
  let (negative, body) := Decimal.splitSign cs
  let signed (x : Float) : Atom := .real (Decimal.signed negative x)
  if String.ofList body == ".inf" then return signed Decimal.infinity
  else if String.ofList body == ".nan" then return .undefined
  else if body.contains ':' then
    let parts ← orFault .noSuchValue ((colonParts body).mapM Decimal.float?)
    return signed (← sixtySum parts)
  else return signed (← orFault .noSuchValue (Decimal.float? (String.ofList body)))

def truthOf (s : String) : Except YamlFault Bool :=
  orFault .noSuchWord (truthWords.lookup (s.map Char.toLower))

/-- The moment that a scalar spells; it has to lie within the calendar. -/
def momentOf (s : String) : Except YamlFault Moment := do
  let m ← orFault .noMoment (moment? (withoutFeed s))
  if m.isValid then return m else throw .noSuchValue

def bytesOf (s : String) : Except YamlFault (List UInt8) :=
  if s.toList.all fun c => c.toNat < 128 then orFault .malformed (Text.ofBase64? s)
  else .error .malformed

end OptimalAssignment.Yaml
