import TransferPlan.Compile.Stage

/-!
# Plans

A plan is the list of pipelines that copy the mapped tables, one for each pass, in an order in
which every foreign key is satisfied.  Compiling it checks the mappings against the live schema,
orders the passes and compiles the stages of each.
-/

namespace TransferPlan

/-- Everything that a compilation reads. -/
structure Context where
  id : RunId
  rows : List ColumnRow
  constraints : ConstraintSet
  mappings : List Mapping
  cache : Option CacheConfig := none
  lookup : Option Lookup := none
  filters : Keyed String := .empty
  /-- Whether the compilation is cancelled when it looks for the `n`-th time. -/
  cancelled : Nat → Bool := fun _ => false

/-- The pipeline of one pass.  Its arguments bind the written columns and then those that find the
row. -/
structure Pipeline where
  pass : Pass
  stages : List Stage
  arguments : String
  columns : List String
  whereColumns : List String
deriving DecidableEq, Repr

structure Plan where
  id : RunId
  pipelines : List Pipeline
deriving DecidableEq, Repr

namespace Context

/-- The columns of the live schema. -/
def schema (c : Context) : LiveSchema := .ofRows c.rows

/-- The mappings of a table. -/
def mappingsOf (c : Context) (table : String) : List Mapping :=
  c.mappings.filter (·.tableKey == table)

/-- The tables to be written: the live tables that have a mapping. -/
def job (c : Context) : Job :=
  let columns := (columnOrder c.rows).filter fun table _ => !(c.mappingsOf table).isEmpty
  { foreignKeys := columns.mapValues fun table _ => (c.constraints.foreignKeys.get? table).getD []
    primaryKeys := c.constraints.primaryKeys
    columns
    filters := c.filters }

/-- Stops when the compilation has been cancelled. -/
def checkCancelled (c : Context) (table : String) : Compile Unit := do
  let session ← get
  set { session with checks := session.checks + 1 }
  if c.cancelled session.checks then throw (.cancelled table)

/-- Compiles one pass, given the live schema and the deferred references of the job. -/
def compilePass (c : Context) (schema : LiveSchema) (deferred : ReferenceMap) (pass : Pass) :
    Compile Pipeline := do
  let stages ← stages (c.mappingsOf pass.table) ((schema.get? pass.table).getD .empty)
    ((deferred.get? pass.table).getD .empty) pass c.id c.cache (c.lookup.map Resolver.remembering)
  let whereColumns := if pass.kind = .update then pass.primaryKeys else []
  return {
    pass, stages, whereColumns
    columns := pass.writes
    arguments := insertArguments (pass.writes ++ whereColumns) }

/-- Compiles one pass unless the compilation has been cancelled before it. -/
def pipeline (c : Context) (schema : LiveSchema) (deferred : ReferenceMap) (pass : Pass) :
    Compile Pipeline := do
  c.checkCancelled pass.table
  c.compilePass schema deferred pass

/-- The order of the passes and the references that they defer. -/
def order (c : Context) : Except CompileError (List Pass × ReferenceMap) := do
  (Drift.validate c.schema c.mappings).mapError .drift
  let job := c.job
  let passes ← job.order.mapError .order
  return (passes, (ReferenceMap.ofForeignKeys job.foreignKeys).deferred passes)

/-- Compiles the plan. -/
def build (c : Context) : Compile Plan :=
  match c.order with
  | .error e => throw e
  | .ok (passes, deferred) => return ⟨c.id, ← passes.mapM (c.pipeline c.schema deferred)⟩

end Context

end TransferPlan
