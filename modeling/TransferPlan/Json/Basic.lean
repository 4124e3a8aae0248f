import TransferPlan.Binary64.Decimal
import TransferPlan.Text.Printable

/-!
# JSON values

Catalogue rows, configurations and the bodies of requests and responses are JSON values.  Integers
are unbounded and distinct from floating-point numbers, and the fields of an object keep their
order.
-/

namespace TransferPlan

/-- A JSON value. -/
inductive Json where
  | null
  | bool (b : Bool)
  | int (n : Int)
  | float (x : Binary64)
  | string (s : String)
  | array (items : List Json)
  | object (fields : List (String × Json))
deriving Repr, Inhabited

namespace Json

/-- The value of a field of an object. -/
def field? : Json → String → Option Json
  | .object fields, name => (fields.find? (·.1 == name)).map (·.2)
  | _, _ => none

/-- Whether the value is null, false, zero or empty. -/
def isBlank : Json → Bool
  | .null => true
  | .bool b => !b
  | .int n => n == 0
  | .float x => x.isZero
  | .string s => s == ""
  | .array items => items.isEmpty
  | .object fields => fields.isEmpty

/-- The value, with null counting as no value. -/
def nonNull? : Json → Option Json
  | .null => none
  | v => some v

/-! ## Display -/

mutual

/-- A value inside a bracketed display: text is put between quotes. -/
def shown : Json → String
  | .null => "None"
  | .bool b => if b then "True" else "False"
  | .int n => toString n
  | .float x => x.shortest
  | .string s => Text.Shown.text s
  | .array items => "[" ++ ", ".intercalate (shownItems items) ++ "]"
  | .object fields => "\x7b" ++ ", ".intercalate (shownFields fields) ++ "\x7d"

def shownItems : List Json → List String
  | [] => []
  | v :: rest => shown v :: shownItems rest

def shownFields : List (String × Json) → List String
  | [] => []
  | (k, v) :: rest => (Text.Shown.text k ++ ": " ++ shown v) :: shownFields rest

end

/-- The text of a value: a text stands for itself, any other value for its display. -/
def display : Json → String
  | .string s => s
  | v => v.shown

end Json

end TransferPlan
