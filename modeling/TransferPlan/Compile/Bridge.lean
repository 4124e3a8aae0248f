import TransferPlan.Compile.Expression
import TransferPlan.Digest.Sha256
import TransferPlan.Reference

/-!
# Cache bridges

A column that deferred foreign keys of other tables point at takes its value from a cache: for
each such reference a branch looks the value up under a key that names the job, the run and the
referencing column.  References from the table itself need no cache, because one pipeline writes
both sides.
-/

namespace TransferPlan

/-- Where cached values are kept. -/
structure CacheConfig where
  url : String
  kind : String := "simple"
  master : Option String := none
deriving DecidableEq, Repr

/-- The job and the run that a plan is compiled for. -/
structure RunId where
  job : String
  run : String
deriving DecidableEq, Repr

/-- A look-up in the cache. -/
structure CacheRead where
  url : String
  command : String
  arguments : String
  kind : String
  master : Option String
deriving DecidableEq, Repr

/-- A side path of the pipeline: what goes in, what is looked up, and where the result goes. -/
structure Branch where
  request : String
  result : String
  reads : List CacheRead
deriving DecidableEq, Repr

/-- A column that needs a cache when there is none. -/
structure BridgeError where
  table : String
  column : String
  reference : Reference
deriving DecidableEq, Repr

def BridgeError.message (e : BridgeError) : String :=
  "Column " ++ e.table ++ "." ++ e.column ++ " is referenced by " ++ e.reference.table ++ "." ++
    e.reference.column ++ " and needs a cache, but no cache is configured."

/-- The text that names a column of a run. -/
def cacheName (id : RunId) (table column : String) : String :=
  id.job ++ "." ++ id.run ++ "." ++ table ++ "." ++ column

/-- The key under which the values of a column are cached. -/
def cacheKey (id : RunId) (table column : String) : String :=
  Digest.sha256 (cacheName id table column)

/-- The references to the columns of one table. -/
abbrev ColumnReferences := Keyed (List Reference)

/-- Whether a column takes its value from the cache: another table references it. -/
def Mapping.isBridged (m : Mapping) (references : ColumnReferences) : Bool :=
  ((references.get? m.column).getD []).any (·.table != m.tableKey)

/-- The columns that take their values from the cache, each once, in order. -/
def bridgedColumns (mappings : List Mapping) (references : ColumnReferences) : List String :=
  ((mappings.filter (·.isBridged references)).map (·.column)).eraseDups

/-- The branch for one reference to a column. -/
def Branch.ofReference (id : RunId) (cache : CacheConfig) (column : String) (r : Reference) :
    Branch where
  request :=
    "root = if " ++ inputPath column ++ " == null \x7b deleted() \x7d else \x7b this \x7d"
  result := outputPath column ++ " = this"
  reads := [{
    url := cache.url
    command := "hget"
    arguments :=
      "root = [\"" ++ cacheKey id r.table r.column ++ "\", json(" ++
        Text.Quoted.encode column ++ ")]"
    kind := cache.kind
    master := cache.master }]

/-- The branch for a reference from another table; without a cache there is none to be had. -/
def branchOf (id : RunId) (cache : Option CacheConfig) (m : Mapping) (r : Reference) :
    Except BridgeError Branch :=
  match cache with
  | some c => .ok (Branch.ofReference id c m.column r)
  | none => .error ⟨m.tableKey, m.column, r⟩

/-- The branches for some references to a column.  A reference from the table of the column itself
needs none. -/
def Mapping.branchesFor (m : Mapping) (id : RunId) (cache : Option CacheConfig) :
    List Reference → Except BridgeError (List Branch)
  | [] => return []
  | r :: references => do
    if r.table == m.tableKey then m.branchesFor id cache references
    else return (← branchOf id cache m r) :: (← m.branchesFor id cache references)

/-- The branches of one column. -/
def Mapping.branches (m : Mapping) (references : ColumnReferences) (id : RunId)
    (cache : Option CacheConfig) : Except BridgeError (List Branch) :=
  m.branchesFor id cache ((references.get? m.column).getD [])

/-- The branches of some columns, in the order of the mappings and of the references. -/
def branches (mappings : List Mapping) (references : ColumnReferences) (id : RunId)
    (cache : Option CacheConfig) : Except BridgeError (List Branch) := do
  return (← mappings.mapM fun m => m.branches references id cache).flatten

end TransferPlan
