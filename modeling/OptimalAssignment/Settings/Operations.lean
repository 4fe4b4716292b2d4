import OptimalAssignment.Value

/-!
Names of the operations that things have by their kind. A chain of attributes meets them before
anything that is kept under the same name.
-/
namespace OptimalAssignment.Settings

def commonOperations : List String :=
  ["__class__", "__delattr__", "__dir__", "__eq__", "__format__", "__ge__", "__getattribute__",
    "__getstate__", "__gt__", "__hash__", "__init__", "__init_subclass__", "__le__", "__lt__",
    "__ne__", "__new__", "__reduce__", "__reduce_ex__", "__repr__", "__setattr__", "__sizeof__",
    "__str__", "__subclasshook__"]

def topOperations : List String :=
  ["from_file", "from_dict", "merge", "get", "set", "to_dict", "save", "__getattr__",
    "__getitem__", "__contains__"] ++ commonOperations

def collectionOperations : List String :=
  ["__class_getitem__", "__contains__", "__getitem__", "__iter__", "__len__"]

def tableOperations : List String :=
  ["clear", "copy", "fromkeys", "get", "items", "keys", "pop", "popitem", "setdefault", "update",
    "values", "__delitem__", "__ior__", "__or__", "__reversed__", "__ror__", "__setitem__"]
    ++ collectionOperations ++ commonOperations.filter (· != "__hash__")

def sectionOperations : List String :=
  ["get_nested", "set_nested", "to_dict", "__getattr__"] ++ tableOperations

def listOperations : List String :=
  ["append", "clear", "copy", "count", "extend", "index", "insert", "pop", "remove", "reverse",
    "sort", "__add__", "__delitem__", "__iadd__", "__imul__", "__mul__", "__reversed__",
    "__rmul__", "__setitem__"]
    ++ collectionOperations ++ commonOperations.filter (· != "__hash__")

def textOperations : List String :=
  ["capitalize", "casefold", "center", "count", "encode", "endswith", "expandtabs", "find",
    "format", "format_map", "index", "isalnum", "isalpha", "isascii", "isdecimal", "isdigit",
    "isidentifier", "islower", "isnumeric", "isprintable", "isspace", "istitle", "isupper", "join",
    "ljust", "lower", "lstrip", "maketrans", "partition", "removeprefix", "removesuffix",
    "replace", "rfind", "rindex", "rjust", "rpartition", "rsplit", "rstrip", "split",
    "splitlines", "startswith", "strip", "swapcase", "title", "translate", "upper", "zfill",
    "__add__", "__contains__", "__getitem__", "__getnewargs__", "__iter__", "__len__", "__mod__",
    "__mul__", "__rmod__", "__rmul__"] ++ commonOperations

def numberOperations : List String :=
  ["as_integer_ratio", "conjugate", "__abs__", "__add__", "__bool__", "__ceil__", "__divmod__",
    "__float__", "__floor__", "__floordiv__", "__getnewargs__", "__int__", "__mod__", "__mul__",
    "__neg__", "__pos__", "__pow__", "__radd__", "__rdivmod__", "__rfloordiv__", "__rmod__",
    "__rmul__", "__round__", "__rpow__", "__rsub__", "__rtruediv__", "__sub__", "__truediv__",
    "__trunc__"] ++ commonOperations

def realOperations : List String :=
  ["fromhex", "hex", "is_integer", "__getformat__"] ++ numberOperations

def wholeOperations : List String :=
  ["bit_count", "bit_length", "from_bytes", "to_bytes", "__and__", "__index__", "__invert__",
    "__lshift__", "__or__", "__rand__", "__rlshift__", "__ror__", "__rrshift__", "__rshift__",
    "__rxor__", "__xor__"] ++ numberOperations

def dayOperations : List String :=
  ["ctime", "fromisocalendar", "fromisoformat", "fromordinal", "fromtimestamp", "isocalendar",
    "isoformat", "isoweekday", "replace", "strftime", "timetuple", "today", "toordinal",
    "weekday", "__add__", "__radd__", "__rsub__", "__sub__"] ++ commonOperations

def clockOperations : List String :=
  ["astimezone", "combine", "date", "dst", "now", "strptime", "time", "timestamp", "timetz",
    "tzname", "utcfromtimestamp", "utcnow", "utcoffset", "utctimetuple"] ++ dayOperations

def valueOperations : Value → List String
  | .table _ => tableOperations
  | .list _ => listOperations
  | .text _ => textOperations
  | .real _ => realOperations
  | .integer _ | .truth _ => wholeOperations
  | .null => "__bool__" :: commonOperations
  | .atom (.moment m) => if m.clock.isSome then clockOperations else dayOperations
  | _ => commonOperations

def kindName : Value → String
  | .table _ | .loop => "dict"
  | .list _ => "list"
  | .pair .. => "tuple"
  | .set _ => "set"
  | .atom a =>
    match a with
    | .null => "NoneType"
    | .truth _ => "bool"
    | .integer _ => "int"
    | .real _ | .undefined => "float"
    | .text _ => "str"
    | .bytes _ => "bytes"
    | .moment m => if m.clock.isSome then "datetime" else "date"

/-- The name of what a thing of some kind gives for the name of an operation: to ask for its kind
gives the kind itself. -/
def givenName (kind name : String) : String :=
  if name = "__class__" then kind else name

def clockPart? (name : String) (c : Clock) : Option Value :=
  match name with
  | "hour" => some (.integer c.hour)
  | "minute" => some (.integer c.minute)
  | "second" => some (.integer c.second)
  | "microsecond" => some (.integer c.micros)
  | "fold" => some (.integer 0)
  | "tzinfo" => if c.offset.isNone then some .null else none
  | _ => none

/-- What a moment keeps under a name: a part of itself, or the first or the last of its kind. -/
def momentPart? (name : String) (m : Moment) : Option Value :=
  match name with
  | "year" => some (.integer m.year)
  | "month" => some (.integer m.month)
  | "day" => some (.integer m.day)
  | "min" => some (.atom (.moment ⟨1, 1, 1, m.clock.map fun _ => ⟨0, 0, 0, 0, none⟩⟩))
  | "max" => some (.atom (.moment ⟨9999, 12, 31,
      m.clock.map fun _ => ⟨23, 59, 59, 999999, none⟩⟩))
  | _ => m.clock.bind (clockPart? name)

/-- What a value that is no section keeps under a name. A number keeps itself, or a part of
itself. -/
def valuePart? (name : String) : Value → Option Value
  | .real x =>
    match name with
    | "real" => some (.real x)
    | "imag" => some (.real 0.0)
    | _ => none
  | .integer n => wholePart? n
  | .truth b => wholePart? (if b then 1 else 0)
  | .atom (.moment m) => momentPart? name m
  | _ => none
where
  /-- What a whole number keeps under a name. -/
  wholePart? (n : Int) : Option Value :=
    match name with
    | "real" | "numerator" => some (.integer n)
    | "imag" => some (.integer 0)
    | "denominator" => some (.integer 1)
    | _ => none

end OptimalAssignment.Settings
