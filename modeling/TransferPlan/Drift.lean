import TransferPlan.Schema.Column
import TransferPlan.Transformer.Mapping

/-!
# Schema drift

The mappings of a job were made for a certain schema.  Before a plan is compiled they are compared
with the live one: a mapped column that is gone, or a column of a mapped table that no mapping
names, stops the job.  Tables without any mapping are not part of the job.
-/

namespace TransferPlan

/-- How the live schema differs from the mappings: columns as table key, dot, name. -/
structure DriftError where
  unknown : List String
  unmapped : List String
deriving DecidableEq, Repr

namespace DriftError

/-- What a list of columns is introduced by, and the columns; nothing for no column. -/
def part (intro : String) (columns : List String) : List String :=
  if columns.isEmpty then [] else [intro ++ ", ".intercalate columns]

def message (e : DriftError) : String :=
  let details := part "mapped columns missing from the database: " e.unknown ++
    part "database columns without a mapping: " e.unmapped
  "schema has diverged from configuration" ++
    (if details.isEmpty then "" else ": " ++ "; ".intercalate details)

end DriftError

namespace Drift

/-- The live columns of a table; a table that is not live has none. -/
def liveColumns (live : LiveSchema) (table : String) : List String :=
  ((live.get? table).map Keyed.keys).getD []

/-- The mapped columns of each mapped table, each once, in the order of the mappings. -/
def mappedColumns (mappings : List Mapping) : Keyed (List String) :=
  mappings.foldl (fun m x => m.alter x.tableKey [] fun columns =>
    if columns.contains x.column then columns else columns ++ [x.column]) .empty

/-- The mapped columns that are not live, in the order of the mappings. -/
def unknownColumns (live : LiveSchema) (mappings : List Mapping) : List String :=
  mappings.filterMap fun x =>
    if (liveColumns live x.tableKey).contains x.column then none
    else some (x.tableKey ++ "." ++ x.column)

/-- The live columns of mapped tables that no mapping names. -/
def unmappedColumns (live : LiveSchema) (mappings : List Mapping) : List String :=
  (mappedColumns mappings).entries.flatMap fun (table, mapped) =>
    (liveColumns live table).filterMap fun c =>
      if mapped.contains c then none else some (table ++ "." ++ c)

/-- Whether every mapped column is live. -/
def isSubset (live : LiveSchema) (mappings : List Mapping) : Bool :=
  (unknownColumns live mappings).isEmpty

/-- Whether a mapped table that is live has other columns than the mapped ones. -/
def shouldHalt (live : LiveSchema) (mappings : List Mapping) : Bool :=
  !(unmappedColumns live mappings).isEmpty ||
    (mappedColumns mappings).entries.any fun (table, mapped) =>
      match live.get? table with
      | some columns => columns.entries.length != mapped.length
      | none => false

/-- Accepts the mappings that name exactly the live columns of their tables. -/
def validate (live : LiveSchema) (mappings : List Mapping) : Except DriftError Unit :=
  let unknown := unknownColumns live mappings
  if unknown.isEmpty && !shouldHalt live mappings then .ok ()
  else .error ⟨unknown, unmappedColumns live mappings⟩

end Drift

end TransferPlan
