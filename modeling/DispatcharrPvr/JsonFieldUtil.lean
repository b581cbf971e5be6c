/-!
# JsonFieldUtil

JSON values as they are after parsing, and `FieldOr`, the reader the parsers
share.  A number keeps the kind it was parsed as; a floating-point number is
the rational it stands for (a parsed one is finite).
-/

namespace DispatcharrPvr

/-- A parsed JSON value. -/
inductive Json
  | null
  | boolean (value : Bool)
  | numberInteger (value : Int)
  | numberUnsigned (value : Nat)
  | numberFloat (value : Rat)
  | string (value : String)
  | array (items : List Json)
  | object (fields : List (String × Json))

namespace Json

/-- The value at `key`; only an object contains one. -/
def at? (item : Json) (key : String) : Option Json :=
  match item with
  | .object fields => (fields.find? fun field => field.1 == key).map (·.2)
  | _ => none

end Json

/-- `std::numeric_limits<int64_t>`. -/
def int64Lowest : Int := -9223372036854775808

def int64Max : Int := 9223372036854775807

/-- `FieldOr<int64_t>`: a number outside the type's range reads as the
default, and so does any value that is not a number. -/
def fieldOrInt64 (item : Json) (key : String) (defaultValue : Int) : Int :=
  match item.at? key with
  | some (.numberFloat d) =>
      if d < int64Lowest ∨ (int64Max + 1 : Int) ≤ d then defaultValue else d.num.tdiv d.den
  | some (.numberUnsigned n) => if int64Max < n then defaultValue else n
  | some (.numberInteger n) => if n < int64Lowest ∨ int64Max < n then defaultValue else n
  | _ => defaultValue

/-- `FieldOr<long long>`; where that is not `int64_t` itself, the JSON library's
conversion to it also takes a boolean. -/
def fieldOrLongLong (item : Json) (key : String) (defaultValue : Int) : Int :=
  match item.at? key with
  | some (.boolean value) => if value then 1 else 0
  | _ => fieldOrInt64 item key defaultValue

/-- `std::numeric_limits<int>`. -/
def intLowest : Int := -2147483648

def intMax : Int := 2147483647

/-- `FieldOr<int>`; the JSON library's conversion to `int` also takes a boolean. -/
def fieldOrInt (item : Json) (key : String) (defaultValue : Int) : Int :=
  match item.at? key with
  | some (.boolean value) => if value then 1 else 0
  | some (.numberFloat d) =>
      if d < intLowest ∨ (intMax + 1 : Int) ≤ d then defaultValue else d.num.tdiv d.den
  | some (.numberUnsigned n) => if intMax < n then defaultValue else n
  | some (.numberInteger n) => if n < intLowest ∨ intMax < n then defaultValue else n
  | _ => defaultValue

/-- `FieldOr<std::string>`. -/
def fieldOrString (item : Json) (key : String) (defaultValue : String) : String :=
  match item.at? key with
  | some (.string value) => value
  | _ => defaultValue

end DispatcharrPvr
