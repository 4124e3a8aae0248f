import TransferPlan.Text.Blank

/-!
# Table names

A table is known by its schema and its own name, and everything that is kept per table is kept
under the key of the table: the two names with a dot between them, or the table's own name when
the schema is empty.
-/

namespace TransferPlan

/-- A table by its schema, which may be empty, and its own name. -/
structure TableName where
  schema : String
  table : String
deriving DecidableEq, Repr

namespace TableName

/-- The text under which a table is known. -/
def key (t : TableName) : String :=
  if t.schema = "" then t.table else t.schema ++ "." ++ t.table

/-- The table of a key, cut at its first dot.  A key without anything after that dot names a
table without a schema. -/
def ofKey (k : String) : TableName :=
  match Text.splitFirst '.' k.toList with
  | (name, none) => ⟨"", String.ofList name⟩
  | (name, some []) => ⟨"", String.ofList name⟩
  | (schema, some (c :: table)) => ⟨String.ofList schema, String.ofList (c :: table)⟩

end TableName

end TransferPlan
