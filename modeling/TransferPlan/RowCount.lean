import TransferPlan.Schema.Column

/-!
# Counting rows

The query for the number of rows of a table, and what becomes of its answer.
-/

namespace TransferPlan

/-- A query for the number of rows of a table, or of those that meet a condition. -/
structure CountQuery where
  schema : Option String
  table : String
  condition : Option String
deriving DecidableEq, Repr

/-- The query for a table.  An empty schema is none, and an empty filter no condition. -/
def CountQuery.ofTable (schema table : String) (filter : Option String) : CountQuery where
  schema := (some schema).filter (· != "")
  table
  condition := filter.filter (· != "")

/-! ## Answers -/

/-- A count that is no whole number. -/
inductive CountError where
  | notNumeric
  | badText
  | infinite
deriving DecidableEq, Repr

/-- Why rows could not be counted. -/
inductive RowCountError where
  | noEngine (table : String)
  | queryFailed (label table reason : String)
  | badCount (e : CountError)
deriving DecidableEq, Repr

/-- The wording of an error; a count that is no whole number has none. -/
def RowCountError.message : RowCountError → String
  | .noEngine table => "No database engine configured to count rows for " ++ table ++ "."
  | .queryFailed label table reason =>
    "Unable to query table row count for " ++ label ++ " table " ++ table ++ ": " ++ reason
  | .badCount _ => ""

/-- What a database answers to a query. -/
inductive QueryOutcome where
  | failed (reason : String)
  | value (v : Json)

/-- The whole number of an answer. -/
def readCount : Json → Except CountError Int
  | .bool b => .ok (if b then 1 else 0)
  | .int n => .ok n
  | .float x =>
    match x.truncate? with
    | some n => .ok n
    | none => .error .infinite
  | .string s =>
    match Text.wholeNumber? s with
    | some n => .ok n
    | none => .error .badText
  | _ => .error .notNumeric

/-- How a database is called in a message. -/
def databaseLabel (d : Option Dialect) : String := (d.map Dialect.name).getD "database"

/-- The number of rows that a database reports for a table. -/
def rowCount (d : Option Dialect) (table : TableName) (answer : Option QueryOutcome) :
    Except RowCountError Int :=
  match answer with
  | none => .error (.noEngine table.key)
  | some (.failed reason) => .error (.queryFailed (databaseLabel d) table.key reason)
  | some (.value v) => (readCount v).mapError .badCount

end TransferPlan
