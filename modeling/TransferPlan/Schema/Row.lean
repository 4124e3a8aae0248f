import TransferPlan.Json.Basic
import TransferPlan.Text.LetterCase

/-!
# Catalogue rows

The rows that a database reports about itself.  What a row says about a column or a constraint is
looked up by field name, under several names where the dialects differ.  Fields of the row match
in any letter case; attributes of the row only in lower case or in upper case throughout.  A null
cell counts as absent.
-/

namespace TransferPlan

/-- A row by what can be looked up in it. -/
structure Row where
  fields : List (String × Json) := []
  attributes : List (String × Json) := []
deriving Repr, Inhabited

/-- A cell that cannot be read. -/
inductive CellError where
  /-- A list of names that is neither text nor blank. -/
  | notText
  /-- An infinite number where a whole number belongs. -/
  | infinite
deriving DecidableEq, Repr

namespace Row

/-- The last cell with the given key, unless it is null. -/
def lastCell? (key : String) (cells : List (String × Json)) : Option Json :=
  (cells.reverse.find? (·.1 == key)).bind fun c => c.2.nonNull?

/-- The cell of a field, in any letter case. -/
def field? (r : Row) (name : String) : Option Json :=
  lastCell? name (r.fields.map fun f => (Text.lower f.1, f.2))

/-- The cell of an attribute, in lower case or else in upper case. -/
def attribute? (r : Row) (name : String) : Option Json :=
  (lastCell? name r.attributes).or (lastCell? name.toUpper r.attributes)

/-- The first cell under one of the names, fields before attributes. -/
def cell? (r : Row) (names : List String) : Option Json :=
  (names.findSome? r.field?).or (names.findSome? r.attribute?)

/-! ## Reading cells -/

/-- The text of a cell, with any blank value read as the empty text. -/
def text (r : Row) (names : List String) : String :=
  match r.cell? names with
  | some v => if v.isBlank then "" else v.display
  | none => ""

/-- The trimmed text of a cell, unless nothing is left of it. -/
def trimmed? (r : Row) (names : List String) : Option String :=
  (r.cell? names).bind fun v => Text.trim? v.display

/-- The names in a delimited list.  A blank cell holds none. -/
def names (r : Row) (name : String) : Except CellError (List String) :=
  match r.cell? [name] with
  | none => .ok []
  | some (.string s) => .ok (Text.names "," s)
  | some v => if v.isBlank then .ok [] else .error .notText

/-- The whole number of a cell, if it has one. -/
def whole? (r : Row) (name : String) : Except CellError (Option Int) :=
  match r.cell? [name] with
  | some (.bool b) => .ok (some (if b then 1 else 0))
  | some (.int n) => .ok (some n)
  | some (.float (.infinite _)) => .error .infinite
  | some (.float x) => .ok x.truncate?
  | some (.string s) => .ok (Text.wholeNumber? s)
  | _ => .ok none

/-- Whether a cell grants null values: every one does that does not deny it in words. -/
def grantsNull (r : Row) (name : String) : Bool :=
  match r.cell? [name] with
  | none => true
  | some (.bool b) => b
  | some v =>
    let s := Text.trim v.display
    !(Text.isWord "NO" s || Text.isWord "NOT NULL" s || Text.isWord "FALSE" s || Text.isWord "0" s)

/-- Whether a cell is set: true, a number other than zero, or a word for yes. -/
def isSet (r : Row) (name : String) : Bool :=
  match r.cell? [name] with
  | none => false
  | some (.bool b) => b
  | some (.int n) => n != 0
  | some (.float x) => !x.isZero
  | some v => ["1", "true", "yes", "y", "t"].contains (Text.lower (Text.trim v.display))

/-! ## The schema of a row -/

/-- The schema that a captured row is served under: the trimmed text of the first of two fields,
spelled exactly so, that is not null. -/
def servedSchema (r : Row) : String :=
  match (lastCell? "schema_name" r.fields).or (lastCell? "table_schema" r.fields) with
  | some v => Text.trim v.display
  | none => ""

end Row

/-- The rows that a source reports.  Rows captured ahead of time are served by schema; a live
source is expected to have picked them itself. -/
structure RowSource where
  captured : Bool
  rows : List Row

/-- The rows served for a list of schemas. -/
def RowSource.forSchemas (s : RowSource) (schemas : List String) : List Row :=
  if s.captured then s.rows.filter fun r => schemas.contains r.servedSchema else s.rows

end TransferPlan
