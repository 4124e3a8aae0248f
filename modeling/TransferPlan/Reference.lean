import TransferPlan.Pass.Order

/-!
# References to key columns

The inverse view of foreign keys: for each column of a referenced table, the columns that point
at it.  Those that an update pass fills in are the deferred ones.
-/

namespace TransferPlan

/-- A column that references a key column. -/
structure Reference where
  table : String
  column : String
deriving DecidableEq, Repr

/-- The columns that point at each column of each table. -/
abbrev ReferenceMap := Keyed (Keyed (List Reference))

namespace ReferenceMap

/-- Adds the pairs of one foreign key. -/
def addKey (m : ReferenceMap) (table : String) (k : ForeignKey) : ReferenceMap :=
  if k.target = "" then m
  else (k.targetColumns.zip k.columns).foldl (fun m pair =>
    m.alter k.target .empty fun columns => columns.alter pair.1 [] (· ++ [⟨table, pair.2⟩])) m

/-- The references that foreign keys make, in the order of tables, keys and positions. -/
def ofForeignKeys (keys : Keyed (List ForeignKey)) : ReferenceMap :=
  keys.entries.foldl (fun m e => e.2.foldl (fun m k => m.addKey e.1 k) m) .empty

/-- Whether an update pass fills in the referencing column. -/
def isDeferred (passes : List Pass) (r : Reference) : Bool :=
  passes.any fun p => p.kind == .update && p.table == r.table && p.writes.contains r.column

/-- The references made by columns that an update pass fills in. -/
def deferred (m : ReferenceMap) (passes : List Pass) : ReferenceMap :=
  (m.mapValues fun _ columns =>
    (columns.mapValues fun _ references => references.filter (isDeferred passes)).filter
      fun _ references => !references.isEmpty).filter fun _ columns => !columns.entries.isEmpty

end ReferenceMap

end TransferPlan
