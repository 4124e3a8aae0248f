import TransferPlan.Keyed
import TransferPlan.Schema.Row
import TransferPlan.TableName

/-!
# Columns

What the catalogue says about the columns of a database, in one form for all dialects.  The rows
of a catalogue are grouped in two ways: by table and column, where the first row of a column
counts, and by table as a list of columns in the order of their positions.
-/

namespace TransferPlan

/-- What is known of a column. -/
structure Column where
  position : Option Int := none
  initial : String := ""
  nullable : Bool := true
  dataType : String := ""
  maxLength : Option Int := none
  precision : Option Int := none
  scale : Option Int := none
  identity : Option String := none
  generated : Option String := none
deriving DecidableEq, Repr, Inhabited

/-- The limit on the length of the column's text, if it has a positive one. -/
def Column.lengthBound? (c : Column) : Option Int := c.maxLength.filter (0 < ·)

/-- The place of a column without a position: after the greatest position there is. -/
def Column.lastPosition : Int := 0x7FFF

/-- The number by which columns are put in order. -/
def Column.order (c : Column) : Int := c.position.getD Column.lastPosition

/-- A column with the table that it belongs to. -/
structure ColumnRow where
  schema : String
  table : String
  name : String
  column : Column
deriving DecidableEq, Repr

/-- The key of the row's table. -/
def ColumnRow.tableKey (r : ColumnRow) : String := (TableName.mk r.schema r.table).key

/-- The columns of each table, by name. -/
abbrev LiveSchema := Keyed (Keyed Column)

/-! ## Dialects -/

/-- The databases whose catalogues are understood. -/
inductive Dialect where
  | mssql
  | mysql
  | postgres
deriving DecidableEq, Repr

namespace Dialect

def name : Dialect → String
  | .mssql => "mssql"
  | .mysql => "mysql"
  | .postgres => "postgres"

/-- All dialects, in the order of their names. -/
def all : List Dialect := [.mssql, .mysql, .postgres]

/-- The dialect of a driver name, in any letter case and with blanks around it. -/
def ofName? (s : String) : Option Dialect :=
  let n := Text.lower (Text.trim s)
  all.find? (·.name == n)

/-- The refusal of a driver name. -/
def unsupported (driver : String) : String :=
  "Unsupported driver '" ++ driver ++ "'. Supported drivers: " ++
    ", ".intercalate (all.map name) ++ "."

/-- The text with its one-letter code spelled out. -/
def spellOut (codes : List (String × String)) (s : String) : String :=
  ((codes.find? (·.1 == Text.lower s)).map (·.2)).getD s

/-- How the column draws its own numbers. -/
def identity? (d : Dialect) (r : Row) : Option String :=
  match d with
  | .postgres =>
    (r.trimmed? ["identity_generation"]).map (spellOut [("a", "ALWAYS"), ("d", "BY DEFAULT")])
  | .mysql =>
    if Text.occursIn "auto_increment" (Text.lower ((r.trimmed? ["extra"]).getD "")) then
      some "auto_increment"
    else none
  | .mssql => if r.isSet "is_identity" then some "IDENTITY(1,1)" else none

/-- How the column is computed from others. -/
def generated? (d : Dialect) (r : Row) : Option String :=
  match d with
  | .postgres => (r.trimmed? ["generated_type"]).map (spellOut [("s", "STORED")])
  | .mysql => r.trimmed? ["generation_expression", "generation_exp"]
  | .mssql => r.trimmed? ["generation_expression"]

end Dialect

/-! ## Rows of a catalogue -/

/-- A position within sixteen bits. -/
def boundedPosition (n : Int) : Option Int :=
  if -0x8000 ≤ n ∧ n ≤ 0x7FFF then some n else none

/-- Reads a row of the catalogue.  Without a dialect nothing is said about identities and computed
columns. -/
def ColumnRow.ofRow (d : Option Dialect) (r : Row) : Except CellError ColumnRow := do
  let position ← r.whole? "ordinal_position"
  let maxLength ← r.whole? "character_maximum_length"
  let precision ← r.whole? "numeric_precision"
  let scale ← r.whole? "numeric_scale"
  return {
    schema := r.text ["table_schema", "schema_name"]
    table := r.text ["table_name"]
    name := r.text ["column_name"]
    column := {
      position := position.bind boundedPosition
      initial := r.text ["column_default"]
      nullable := r.grantsNull "is_nullable"
      dataType := r.text ["data_type"]
      maxLength, precision, scale
      identity := d.bind (·.identity? r)
      generated := d.bind (·.generated? r) } }

/-! ## Groupings -/

/-- The columns of each table by name.  Of several rows for one column the first counts. -/
def LiveSchema.ofRows (rows : List ColumnRow) : LiveSchema :=
  rows.foldl (fun m r => m.alter r.tableKey .empty fun columns =>
    if columns.contains r.name then columns else columns.insert r.name r.column) .empty

/-- The rows of each table, in their order. -/
def rowsByTable (rows : List ColumnRow) : Keyed (List ColumnRow) :=
  rows.foldl (fun m r => m.alter r.tableKey [] (· ++ [r])) .empty

/-- The names of the columns of each table in the order of their positions; rows with equal
positions keep their order, and the first place of a name counts. -/
def columnOrder (rows : List ColumnRow) : Keyed (List String) :=
  (rowsByTable rows).mapValues fun _ rs =>
    ((rs.mergeSort fun a b => a.column.order ≤ b.column.order).map (·.name)).eraseDups

/-! ## Privileges -/

/-- The privileges reported for each table, in their order. -/
def privileges (rows : List Row) : Keyed (List String) :=
  rows.foldl (fun m r =>
    let key := (TableName.mk (r.text ["table_schema"]) (r.text ["table_name"])).key
    match r.cell? ["privilege_type"] with
    | some v => m.alter key [] (· ++ [v.display])
    | none => m) .empty

end TransferPlan
