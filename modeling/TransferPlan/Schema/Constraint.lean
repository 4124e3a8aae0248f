import TransferPlan.Keyed
import TransferPlan.Schema.Row
import TransferPlan.TableName

/-!
# Constraints

The foreign keys, primary keys and unique groups of each table, folded from the rows of a
catalogue.  A row without a referenced table or without referenced columns says nothing about a
foreign key; a row whose lists differ in length is refused.
-/

namespace TransferPlan

/-- A foreign key of the table that owns it.  The columns, the flags for columns that may not be
null and the referenced columns correspond by position. -/
structure ForeignKey where
  columns : List String
  required : List Bool
  target : String
  targetColumns : List String
  name : Option String := none
deriving DecidableEq, Repr

/-- Whether none of the columns is required. -/
def ForeignKey.isOptional (k : ForeignKey) : Bool := !k.required.any id

/-- The constraints of each table. -/
structure ConstraintSet where
  foreignKeys : Keyed (List ForeignKey) := .empty
  primaryKeys : Keyed (List String) := .empty
  uniques : Keyed (List (List String)) := .empty
deriving Inhabited

/-- What one row of the catalogue says. -/
inductive Constraint where
  | foreignKey (key : ForeignKey)
  | primaryKey (columns : List String)
  | unique (columns : List String)
deriving DecidableEq, Repr

/-! ## Errors -/

/-- Why the rows of a catalogue are refused. -/
inductive ConstraintError where
  | unreadable (cause : CellError)
  | targetCount (name : Option String) (table : String) (columns targets : Nat)
  | flagCount (name : Option String) (table : String) (columns flags : Nat)
deriving DecidableEq, Repr

/-- How a constraint is called in a message. -/
def constraintLabel (name : Option String) : String := name.getD "<unnamed>"

/-- The wording of a refusal; a cell that cannot be read has none. -/
def ConstraintError.message : ConstraintError → String
  | .unreadable _ => ""
  | .targetCount name table columns targets =>
    "Foreign key " ++ constraintLabel name ++ " on " ++ table ++ " has " ++ toString columns ++
      " columns but references " ++ toString targets ++ " columns"
  | .flagCount name table columns flags =>
    "Foreign key " ++ constraintLabel name ++ " on " ++ table ++ " has " ++ toString columns ++
      " columns but " ++ toString flags ++ " nullability flags"

/-! ## Rows -/

/-- The names in a delimited cell of a constraint row. -/
def constraintNames (r : Row) (name : String) : Except ConstraintError (List String) :=
  (r.names name).mapError .unreadable

/-- The referenced table, with the referenced schema in front unless it has one already. -/
def qualifiedTarget (schema : Option String) (table : String) : String :=
  match schema with
  | some s => if table.toList.contains '.' then table else (TableName.mk s table).key
  | none => table

/-- Reads the foreign key of a row, if it has a target. -/
def ForeignKey.ofRow (r : Row) (table : String) (name : Option String) (columns : List String) :
    Except ConstraintError (Option ForeignKey) := do
  let targetColumns ← constraintNames r "referenced_columns"
  match r.trimmed? ["referenced_table"] with
  | none => return none
  | some target =>
    if targetColumns.isEmpty then return none
    let schema := r.trimmed? ["referenced_schema_name", "referenced_schema"]
    let flags ← constraintNames r "constraint_columns_nullability"
    if columns.length ≠ targetColumns.length then
      throw (.targetCount name table columns.length targetColumns.length)
    if columns.length ≠ flags.length then
      throw (.flagCount name table columns.length flags.length)
    return some {
      columns, targetColumns, name
      required := flags.map (Text.isWord "NOT NULL")
      target := qualifiedTarget schema target }

/-- The key of the table that a constraint row belongs to. -/
def constraintTable (r : Row) : String :=
  (TableName.mk (r.text ["schema_name", "table_schema"]) (r.text ["table_name"])).key

/-- Reads a row: what it says about its table, if anything. -/
def Constraint.ofRow (r : Row) : Except ConstraintError (Option Constraint) := do
  let kind := (r.trimmed? ["constraint_type"]).getD ""
  let columns ← constraintNames r "constraint_columns"
  if Text.isWord "FOREIGN KEY" kind then
    let key ← ForeignKey.ofRow r (constraintTable r) (r.trimmed? ["constraint_name"]) columns
    return key.map .foreignKey
  else if Text.isWord "PRIMARY KEY" kind then return some (.primaryKey columns)
  else if Text.isWord "UNIQUE" kind then return some (.unique columns)
  else return none

/-! ## Folding -/

namespace ConstraintSet

/-- Takes in what a row says about a table.  The columns of several primary key rows are joined,
each column once. -/
def add (s : ConstraintSet) (table : String) : Constraint → ConstraintSet
  | .foreignKey key => { s with foreignKeys := s.foreignKeys.alter table [] (· ++ [key]) }
  | .primaryKey columns =>
    { s with primaryKeys := s.primaryKeys.alter table [] fun old => (old ++ columns).eraseDups }
  | .unique columns =>
    { s with uniques := s.uniques.alter table [] (· ++ [columns.eraseDups]) }

/-- The constraints that a list of rows reports. -/
def ofRows (rows : List Row) : Except ConstraintError ConstraintSet :=
  rows.foldlM (fun s r => do
    match ← Constraint.ofRow r with
    | some c => return s.add (constraintTable r) c
    | none => return s) {}

/-- The constraints of the tables of some schemas.  No schema at all has none. -/
def forSchemas (source : RowSource) (schemas : List String) :
    Except ConstraintError ConstraintSet :=
  if schemas.isEmpty then .ok {} else ofRows (source.forSchemas schemas)

end ConstraintSet

end TransferPlan
