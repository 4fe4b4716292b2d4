import OptimalAssignment.Cost.Element

/-!
Reading tables from values. Nested lists become rows of floats. An array is built from nested values
whose depth and lengths agree. In the strict manner the first part on each level shows the lengths,
and nothing is looked at if one of them is zero.
-/
namespace OptimalAssignment.Table

/-- The greatest number of axes of an array that is built in the lenient manner. -/
def lenientAxes : Nat := 64

/-- The greatest number of axes of an array that is built in the strict manner. -/
def strictAxes : Nat := 128

/-- The lengths of the axes of a nested list, as the first item on each level shows them. -/
def listShape : Value → List Nat
  | .list [] => [0]
  | .list (first :: rest) => (rest.length + 1) :: listShape first
  | _ => []

/-- Whether a value is a nested list with axes of given lengths and no further ones. -/
def hasShape : List Nat → Value → Bool
  | [], .list _ => false
  | [], _ => true
  | n :: shape, .list items => items.length == n && items.all (hasShape shape)
  | _ :: _, _ => false

/-- The values at the ends of a nested list with a given number of axes. -/
def leaves : Nat → Value → List Value
  | axes + 1, .list items => items.flatMap (leaves axes)
  | _, v => [v]

/-- An array built in the lenient manner. All lengths are compared before a value is looked at. -/
def lenientArray (kind : Element) (v : Value) : Except Rejection (List Nat × List Float) := do
  let shape := listShape v
  if lenientAxes < shape.length || !hasShape shape v then throw .uneven
  return (shape, ← (leaves shape.length v).mapM kind.keepLenient)

/-- The lengths of the axes of an array, as the first part on each level shows them. The first part
of a text is a text again, without end. -/
def strictShape (v : Value) : Except Rejection (List Nat) :=
  match firstText? v with
  | some "" => .ok (listShape v ++ [0])
  | some _ => .error .notNumeral
  | none => if strictAxes < (listShape v).length then .error .uneven else .ok (listShape v)
where
  /-- The text that is the first part of the first part, and so on. -/
  firstText? : Value → Option String
    | .list (first :: _) => firstText? first
    | .text s => some s
    | _ => none

/-- The cells of an array of a given shape in row-major order, when single values are kept in a
given way. -/
def strictCells (keep : Value → Except Rejection Float) :
    List Nat → Value → Except Rejection (List Float)
  | [], v => do return [← keep v]
  | n :: shape, v =>
    match v.parts? with
    | none => .error .notNumber
    | some parts =>
      if parts.length = n then return (← parts.mapM (strictCells keep shape)).flatten
      else .error .uneven

/-- An array built in the strict manner, when single values are kept in a given way. -/
def strictArrayBy (keep : Value → Except Rejection Float) (v : Value) :
    Except Rejection (List Nat × List Float) := do
  let shape ← strictShape v
  if extent shape = 0 then return (shape, []) else return (shape, ← strictCells keep shape v)

/-- An array built in the strict manner. A text alone is no array. -/
def strictArray (kind : Element) (v : Value) : Except Rejection (List Nat × List Float) :=
  match v with
  | .text _ => .error .notNumber
  | v => strictArrayBy kind.keepStrict v

/-- Give cells another shape; one length of it may be left open as `-1`. -/
def reshape (cells : List Float) (lengths : List Int) : Except Rejection (List Nat) :=
  let known := (lengths.filter (· ≠ -1)).foldl (fun n k => n * k.toNat) 1
  let unknown := lengths.count (-1)
  let fits :=
    if unknown = 0 then known = cells.length
    else unknown = 1 ∧ known ≠ 0 ∧ cells.length % known = 0
  if fits ∧ ∀ k ∈ lengths, -1 ≤ k then
    .ok (lengths.map fun k => if k = -1 then cells.length / known else k.toNat)
  else .error .unfilled

def builtArray (lenient : Bool) (kind : Element) (v : Value) :
    Except Rejection (List Nat × List Float) :=
  if lenient then lenientArray kind v else strictArray kind v

/-- An array built from nested values, with another shape if one is given. -/
def arrayOf (lenient : Bool) (kind : Element) (shape : Option (List Int)) (v : Value) :
    Except Rejection (List Nat × List Float) := do
  let (own, cells) ← builtArray lenient kind v
  match shape with
  | none => return (own, cells)
  | some lengths => return (← reshape cells lengths, cells)

/-- A float, if a value is a number within reach. -/
def number? : Value → Option Float
  | .atom (.truth b) => some (Element.ofFlag b)
  | .atom (.integer n) => (Element.widen n).toOption
  | .atom (.real x) => some x
  | _ => none

def numbers? : Value → Option (List Float)
  | .list items => items.mapM number?
  | _ => none

def ofResult {α : Type} : Except Rejection (Table α) → Table α
  | .ok table => table
  | .error reason => unreadable reason

/-- The table in rows that are not all lists of numbers, when single values are kept in a given way.
The lengths of the rows are looked at before their parts; a row that is a text or a table stands for
the list of its parts. -/
def ofIrregular (keep : Value → Except Rejection Float) (rows : List Value) :
    Except Rejection (Table Float) := do
  checkLengths (rows.map fun row => row.parts?.map List.length)
  let nested := Value.list (rows.map fun row => .list (row.parts?.getD []))
  let (shape, cells) ← strictArrayBy keep nested
  return array shape cells

def ofRows (rows : List Value) : Table Float :=
  match rows.mapM numbers? with
  | some lists => .rows lists
  | none => ofResult (ofIrregular (Element.keepStrict .double) rows)

def ofValue (v : Value) : Table Float :=
  match v.parts? with
  | none => unreadable .noRows
  | some parts => ofRows parts

/-- The table that a value holds, each row of which has to have parts. -/
def ofTuples (v : Value) : Table Float :=
  match v.parts? with
  | none => unreadable .noRows
  | some parts => if parts.all (·.parts?.isSome) then ofRows parts else unreadable .noRows

/-- The table that a value spells when its cells are put in one by one. The first row says how wide
it is; cells that are missing are nothing. -/
def ofCells (v : Value) : Table Float :=
  match v.parts? with
  | none => unreadable .noRows
  | some [] => unreadable .beyondRow
  | some (first :: rest) =>
    match (first :: rest).mapM Value.parts? with
    | none => unreadable .notNumber
    | some lists =>
      let width := (lists.headD []).length
      if lists.any fun row => width < row.length then unreadable .beyondRow
      else ofRows (lists.map fun row => .list (row ++ List.replicate (width - row.length) .null))

def ofArray (lenient : Bool) (kind : Element) (shape : Option (List Int)) (v : Value) :
    Table Float :=
  ofResult ((arrayOf lenient kind shape v).map fun (shape, cells) => array shape cells)

/-! ### Rows that are arrays -/

/-- The nested value that an array of a given shape spells. -/
def nest : List Nat → List Float → Value
  | [], cells => .real (cells.headD 0.0)
  | n :: shape, cells =>
    .list ((pieces (extent shape) n cells).map (nest shape))

/-- The single number in a nested array, if it has just one cell. -/
def onlyCell? : Value → Option Float
  | .real x => some x
  | .list [v] => onlyCell? v
  | _ => none

/-- Check that rows have an axis and are as long as there are rows; the first one that is not so
counts. -/
def checkRowArrays (size : Nat) : Nat → List (List Nat) → Except Rejection Unit
  | _, [] => .ok ()
  | _, [] :: _ => .error .noRows
  | i, (k :: _) :: rest =>
    if k = size then checkRowArrays size (i + 1) rest else .error (.rowLength i k size)

/-- The table whose rows are arrays. Those built in the lenient manner are nested lists, and where a
number is wanted an array of one cell stands for it; of the others each part has to be a number or
an array of one cell. -/
def ofArrays (lenient : Bool) (built : List (List Nat × List Float)) :
    Except Rejection (Table Float) := do
  if built.isEmpty then throw .empty
  checkRowArrays built.length 0 (built.map (·.1))
  let rows := built.map fun (shape, cells) => nest shape cells
  let cell (reason : Rejection) (v : Value) : Except Rejection Float :=
    ((onlyCell? v).map Except.ok).getD (.error reason)
  if lenient then
    let (shape, cells) ← strictArrayBy (cell .notNumber) (.list rows)
    return array shape cells
  else
    let cells ← rows.mapM fun row => ((row.parts?).getD []).mapM (cell .uneven)
    return array [built.length, built.length] cells.flatten

/-- The table whose rows are arrays built from the parts of a value. -/
def ofRowArrays (lenient : Bool) (kind : Element) (v : Value) : Table Float :=
  match v.parts? with
  | none => unreadable .noRows
  | some parts =>
    ofResult do ofArrays lenient (← parts.mapM (builtArray lenient kind))

end OptimalAssignment.Table
