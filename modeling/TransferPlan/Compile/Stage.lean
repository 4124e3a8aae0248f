import TransferPlan.Compile.Bridge
import TransferPlan.Compile.Mutation
import TransferPlan.Definition.Lookup
import TransferPlan.Drift

/-!
# Stages of a pipeline

The columns that a pass writes are compiled into the stages of its pipeline: one mutation, one
script block and a branch for each value from the cache.  Every column is handled by one stage at
most; copied columns need none.
-/

namespace TransferPlan

/-- Why a plan cannot be compiled. -/
inductive CompileError where
  | drift (e : DriftError)
  | order (e : OrderError)
  | transformer (e : TransformerError)
  | lookup (e : LookupError)
  | bridge (e : BridgeError)
  | cancelled (table : String)
deriving DecidableEq, Repr

def CompileError.message : CompileError → String
  | .drift e => e.message
  | .order e => e.message
  | .transformer e => e.message
  | .lookup e => e.message
  | .bridge e => e.message
  | .cancelled table => "Compilation cancelled before table " ++ table ++ "."

/-- What a compilation has used up: the ids asked for, in order, the transformers that are known
by their ids, and the number of times it looked whether it was cancelled. -/
structure Session where
  asked : List String := []
  known : Keyed Transformer := .empty
  checks : Nat := 0

/-- A compilation: a result or an error, and the session after it in either case. -/
abbrev Compile := ExceptT CompileError (StateM Session)

/-- One stage of a pipeline. -/
inductive Stage where
  | mutation (text : String)
  | script (text : String)
  | branch (b : Branch)
deriving DecidableEq, Repr

/-! ## Resolving references -/

/-- How a transformer that refers to a definition is replaced. -/
abbrev Resolver := Transformer → Compile Transformer

/-- Asks the lookup each time. -/
def Resolver.asking (lookup : Lookup) : Resolver := fun t => do
  let session ← get
  let (answer, asked) := lookup.resolve t session.asked
  set { session with asked }
  match answer with
  | .ok t => return t
  | .error e => throw (.lookup e)

/-- Asks the lookup once for each id and remembers the answers. -/
def Resolver.remembering (lookup : Lookup) : Resolver := fun t => do
  match t.config with
  | some (.userDefined id) =>
    match (← get).known.get? id with
    | some known => return known
    | none =>
      let found ← Resolver.asking lookup t
      modify fun session => { session with known := session.known.insert id found }
      return found
  | _ => throw (.transformer .noDefinitionConfig)

/-- The mapping with its reference replaced.  A definition must not lead to another one. -/
def Mapping.resolve (resolver : Option Resolver) (m : Mapping) : Compile Mapping :=
  match m.transformer with
  | none => return m
  | some t =>
    if t.source ≠ .userDefined then return m
    else match resolver with
      | none => throw (.transformer (.noLookup m.column))
      | some resolve => do
        let found ← resolve t
        if found.source = .userDefined then throw (.transformer (.nestedDefinition m.column))
        return { m with transformer := some found }

/-! ## Compiling a pass -/

/-- The mapping of each written column that has one, in the order of the columns.  Of several
mappings of a column the last counts. -/
def selectMappings (mappings : List Mapping) (columns : List String) : List Mapping :=
  columns.filterMap fun c => mappings.reverse.find? (·.column == c)

/-- The stages for some resolved mappings. -/
def stagesOf (selected : List Mapping) (columns : Keyed Column) (references : ColumnReferences)
    (id : RunId) (cache : Option CacheConfig) : Except CompileError (List Stage) := do
  let bridged := bridgedColumns selected references
  let plain := selected.filter fun m => !bridged.contains m.column
  let mutation ← (mutation plain columns).mapError .transformer
  let script ← (scriptBlock plain).mapError .transformer
  let branches ← (branches selected references id cache).mapError .bridge
  return (if mutation = "" then [] else [.mutation mutation]) ++
    (if script = "" then [] else [.script script]) ++ branches.map .branch

/-- The stages of a pass over a table with the given mappings. -/
def stages (mappings : List Mapping) (columns : Keyed Column) (references : ColumnReferences)
    (pass : Pass) (id : RunId) (cache : Option CacheConfig) (resolver : Option Resolver) :
    Compile (List Stage) := do
  let selected ← (selectMappings mappings pass.writes).mapM (Mapping.resolve resolver)
  match stagesOf selected columns references id cache with
  | .ok stages => return stages
  | .error e => throw e

/-! ## Insert arguments -/

/-- The statement that binds columns by position; empty for no column. -/
def insertArguments (columns : List String) : String :=
  if columns.isEmpty then "" else "root = [" ++ ", ".intercalate (columns.map inputPath) ++ "]"

end TransferPlan
