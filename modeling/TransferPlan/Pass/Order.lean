import TransferPlan.Graph.Components
import TransferPlan.Graph.Countdown
import TransferPlan.Pass.Basic
import TransferPlan.Schema.Constraint

/-!
# Ordering the tables of a job

The tables of a job are ordered so that every foreign key finds the rows that it references.  A
table whose foreign keys run in a circle is split when those keys may be null: its insert pass
leaves their columns out, and its update pass fills them in after every table of the circle has
been inserted.  A circle of required keys has no order.
-/

namespace TransferPlan

/-- The tables to be written, with what is known of them. -/
structure Job where
  foreignKeys : Keyed (List ForeignKey) := .empty
  primaryKeys : Keyed (List String) := .empty
  /-- The columns of each table of the job; the order of the tables decides between passes that
  could both come next. -/
  columns : Keyed (List String)
  filters : Keyed String := .empty

/-- Why the tables of a job cannot be ordered. -/
inductive OrderError where
  /-- A table has a required foreign key into itself. -/
  | requiredSelfReference (table : String)
  /-- A table has columns to fill in but no key to find its rows by. -/
  | noPrimaryKey (table : String)
  /-- Passes of these tables wait for each other. -/
  | blocked (tables : List String)
  /-- The order of these tables leaves a need unmet. -/
  | unmet (tables : List String)
deriving DecidableEq, Repr

namespace OrderError

/-- The tables that the error is about. -/
def tables : OrderError → List String
  | .requiredSelfReference t | .noPrimaryKey t => [t]
  | .blocked ts | .unmet ts => ts

def message : OrderError → String
  | .requiredSelfReference t =>
    "Table " ++ t ++ " references itself through a NOT NULL foreign key and cannot be ordered."
  | .noPrimaryKey t =>
    "Table " ++ t ++ " has circular foreign keys but no primary key to update deferred columns by."
  | .blocked ts =>
    "Unable to build table run order. Circular dependency without a nullable foreign key: " ++
      ", ".intercalate ts
  | .unmet _ => "Unable to build table run order. Unsupported circular dependency detected."

end OrderError

namespace Job

/-! ## The graph of tables -/

/-- The tables, in order. -/
def tables (j : Job) : List String := j.columns.keys

/-- Whether a foreign key links two tables of the job. -/
def links (j : Job) (k : ForeignKey) : Bool :=
  k.target != "" && !k.targetColumns.isEmpty && !k.columns.isEmpty && j.columns.contains k.target

/-- The foreign keys of a table that lead to a table of the job. -/
def linksOf (j : Job) (table : String) : List ForeignKey :=
  ((j.foreignKeys.get? table).getD []).filter j.links

/-- The tables by position, each with the tables that it references. -/
def graph (j : Job) : Graph :=
  (j.tables.map fun t => (j.linksOf t).filterMap fun k => j.tables.idxOf? k.target).toArray

/-- The component of each table. -/
abbrev Components := List (String × Nat)

def components (j : Job) : Components := j.tables.zip j.graph.components

/-- Whether two tables are in one component. -/
def Components.joins (cs : Components) (a b : String) : Bool :=
  Keyed.value? a cs == Keyed.value? b cs

/-! ## Splitting a table into passes -/

/-- Whether a foreign key of a table is filled in by an update pass: it runs in a circle and may
be null. -/
def Components.defers (cs : Components) (table : String) (k : ForeignKey) : Bool :=
  cs.joins table k.target && k.isOptional

/-- What a list of foreign keys needs. -/
def needsOf (ks : List ForeignKey) : List Need :=
  (ks.map fun k => ⟨k.target, k.targetColumns⟩).eraseDups

/-- The passes of a table: one, or an insert and an update pass when it has deferred columns. -/
def passesOf (j : Job) (cs : Components) (table : String) (allColumns : List String) :
    Except OrderError (List Pass) :=
  let columns := allColumns.eraseDups
  let primaryKeys := ((j.primaryKeys.get? table).getD []).eraseDups
  let filter := j.filters.get? table
  let deferred := (j.linksOf table).filter (cs.defers table)
  let kept := (j.linksOf table).filter fun k => !cs.defers table k
  let deferredColumns := (deferred.flatMap (·.columns)).eraseDups
  if kept.any (·.target == table) then .error (.requiredSelfReference table)
  else if deferred.isEmpty then
    .ok [{ table, kind := .insert, primaryKeys, filter
           reads := columns
           writes := columns
           needs := needsOf kept }]
  else if primaryKeys.isEmpty then .error (.noPrimaryKey table)
  else
    .ok [
      { table, kind := .insert, primaryKeys, filter
        reads := columns
        writes := columns.filter fun c => !deferredColumns.contains c
        needs := needsOf kept
        isSplit := true },
      { table, kind := .update, primaryKeys, filter
        reads := (primaryKeys ++ deferredColumns).eraseDups
        writes := deferredColumns
        needs := (⟨table, primaryKeys⟩ :: needsOf deferred).eraseDups
        isSplit := true }]

/-- The passes of all tables, in the order of the tables. -/
def passes (j : Job) (cs : Components) : Except OrderError (List Pass) :=
  (j.columns.entries.mapM fun e => j.passesOf cs e.1 e.2).map List.flatten

/-! ## The order -/

/-- The positions of the passes that pass the test. -/
def positions (ps : List Pass) (f : Pass → Bool) : List Nat :=
  (ps.zipIdx.filter fun e => f e.1).map (·.2)

/-- The positions of the passes that must precede a pass.  An insert pass comes after the inserts
of the tables that it needs in its component, and after every pass of those that it needs
elsewhere; an update pass comes after every insert of its component. -/
def predecessors (cs : Components) (ps : List Pass) (p : Pass) : List Nat :=
  match p.kind with
  | .insert =>
    (p.needs.flatMap fun n =>
      if cs.joins p.table n.table then
        positions ps fun q => q.table == n.table && q.kind == .insert
      else positions ps (·.table == n.table)).eraseDups
  | .update => positions ps fun q => q.kind == .insert && cs.joins p.table q.table

/-- The predecessors of each pass, by position. -/
def precedence (cs : Components) (ps : List Pass) : Precedence :=
  (ps.map (predecessors cs ps)).toArray

/-- The passes put in line. -/
def inLine (cs : Components) (ps : List Pass) : List Pass :=
  (Countdown.run (precedence cs ps)).line.filterMap (ps[·]?)

/-- The passes that still wait for others when no more can be put in line. -/
def blocked (cs : Components) (ps : List Pass) : List Pass :=
  (Countdown.run (precedence cs ps)).waiting.filterMap (ps[·]?)

/-- Texts in ascending order, each once. -/
def sorted (ts : List String) : List String := (ts.mergeSort (· ≤ ·)).eraseDups

/-- The passes of a job in a valid order. -/
def order (j : Job) : Except OrderError (List Pass) := do
  let cs := j.components
  let ps ← j.passes cs
  let line := inLine cs ps
  if line.length != ps.length then throw (.blocked (sorted ((blocked cs ps).map (·.table))))
  else if !Pass.isValidOrder line then throw (.unmet (line.map (·.table)))
  else return line

end Job

end TransferPlan
