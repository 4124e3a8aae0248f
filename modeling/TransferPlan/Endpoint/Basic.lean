import TransferPlan.Connection.Basic
import TransferPlan.Definition.Service
import TransferPlan.Endpoint.Request
import TransferPlan.Plan
import TransferPlan.RowCount
import TransferPlan.Settings

/-!
# Endpoints

What the service does with an accepted request.  A failure that the service answers for carries a
status and a text; the other failures pass through as they are.
-/

namespace TransferPlan

/-- How a request fails. -/
inductive EndpointError where
  | refused (status : Nat) (detail : String)
  | badCell (e : CellError)
  | badUrl (e : UrlError)
  | badCount (e : CountError)
deriving DecidableEq, Repr

namespace EndpointError

/-- The request itself is at fault. -/
def badRequest (detail : String) : EndpointError := .refused 400 detail

/-- Something behind the service is at fault. -/
def badGateway (detail : String) : EndpointError := .refused 502 detail

def ofConstraint : ConstraintError → EndpointError
  | .unreadable e => .badCell e
  | e => badRequest e.message

def ofCompile : CompileError → EndpointError
  | .lookup e => badGateway e.message
  | e => badRequest e.message

def ofConnection : ConnectionError → EndpointError
  | .badUrl e => .badUrl e
  | e => badRequest e.message

def ofRowCount : RowCountError → EndpointError
  | .badCount e => .badCount e
  | e => badGateway e.message

end EndpointError

/-! ## Settings -/

/-- The service that keeps definitions, if one is configured. -/
def Settings.service? (s : Settings) : Option Service :=
  Service.ofConfig? ⟨s.serviceUrl, s.serviceToken, s.serviceTimeout⟩

/-- The cache that is configured, if any. -/
def Settings.cache? (s : Settings) : Option CacheConfig :=
  (s.cacheUrl.filter (· != "")).map fun url => ⟨url, s.cacheKind, s.cacheMaster⟩

/-! ## Snapshots -/

namespace Snapshot

/-- The dialect of a snapshot. -/
def dialect (s : Snapshot) : Except EndpointError Dialect :=
  match Dialect.ofName? s.driver with
  | some d => .ok d
  | none => .error (.badRequest (Dialect.unsupported s.driver))

/-- The columns of a snapshot. -/
def columns (s : Snapshot) (d : Dialect) : Except EndpointError (List ColumnRow) :=
  (s.columnRows.mapM fun fields => ColumnRow.ofRow (some d) { fields }).mapError .badCell

/-- The constraints of some schemas. -/
def constraints (s : Snapshot) (schemas : List String) : Except EndpointError ConstraintSet :=
  (ConstraintSet.forSchemas ⟨true, s.constraintRows.map fun fields => { fields }⟩ schemas).mapError
    .ofConstraint

end Snapshot

/-! ## Compiling -/

/-- The schemas of some mappings in ascending order, each once. -/
def mappedSchemas (mappings : List Mapping) : List String := Job.sorted (mappings.map (·.schema))

namespace CompileRequest

/-- Everything that the compilation reads. -/
def context (r : CompileRequest) (settings : Settings) (lookup : Option Lookup) :
    Except EndpointError Context := do
  let dialect ← r.snapshot.dialect
  let rows ← r.snapshot.columns dialect
  let constraints ← r.snapshot.constraints (mappedSchemas r.mappings)
  return {
    id := r.id
    rows, constraints, lookup
    mappings := r.mappings
    cache := r.cache.or settings.cache?
    filters := r.filters }

/-- The plan for a request, and the ids of the definitions that were asked for. -/
def run (r : CompileRequest) (settings : Settings) (lookup : Option Lookup) :
    Except EndpointError Plan × List String :=
  match r.context settings lookup with
  | .error e => (.error e, [])
  | .ok c =>
    let (result, session) := c.build.run.run {}
    (result.mapError .ofCompile, session.asked)

end CompileRequest

/-! ## Comparing -/

/-- Whether the mapped columns are live, and whether the job should halt. -/
def DriftRequest.run (r : DriftRequest) : Except EndpointError (Bool × Bool) := do
  let dialect ← r.snapshot.dialect
  let live := LiveSchema.ofRows (← r.snapshot.columns dialect)
  return (Drift.isSubset live r.mappings, Drift.shouldHalt live r.mappings)

/-! ## Counting -/

namespace RowCountRequest

def tableName (r : RowCountRequest) : TableName := ⟨r.schema, r.table⟩

/-- The database whose rows are to be counted. -/
def descriptor (r : RowCountRequest) : Descriptor where
  driver := some r.driver
  url := r.url
  host := r.host
  port := r.port
  name := r.name
  user := r.user
  password := r.password
  sslMode := r.sslMode

/-- Where the rows are to be counted. -/
def target (r : RowCountRequest) : Except EndpointError Target :=
  r.descriptor.resolve.mapError .ofConnection

/-- The query that is sent to the target. -/
def query (r : RowCountRequest) : CountQuery := .ofTable r.schema r.table r.filter

/-- The count for a request whose target answers the query. -/
def run (r : RowCountRequest) (answer : Target → CountQuery → QueryOutcome) :
    Except EndpointError Int := do
  let target ← r.target
  (rowCount (Dialect.ofName? r.driver) r.tableName (some (answer target r.query))).mapError
    .ofRowCount

end RowCountRequest

end TransferPlan
