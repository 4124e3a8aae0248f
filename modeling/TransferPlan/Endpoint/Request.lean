import TransferPlan.Compile.Bridge

/-!
# Request bodies

The bodies that the endpoints accept.
-/

namespace TransferPlan

open RecordReader Reading

/-- Catalogue rows captured from a database, with the name of its driver. -/
structure Snapshot where
  driver : String
  columnRows : List (List (String × Json))
  constraintRows : List (List (String × Json))

/-- A request to compile a plan. -/
structure CompileRequest where
  snapshot : Snapshot
  id : RunId
  mappings : List Mapping
  cache : Option CacheConfig
  filters : Keyed String

/-- A request to compare mappings with a schema. -/
structure DriftRequest where
  snapshot : Snapshot
  mappings : List Mapping

/-- A request to count the rows of a table. -/
structure RowCountRequest where
  driver : String
  url : Option String
  host : Option String
  port : Option Int
  name : Option String
  user : Option String
  password : Option String
  sslMode : Option String
  schema : String
  table : String
  filter : Option String

namespace Snapshot

def driverField : RecordReader String := optional "driver" "postgres" string

def reader : RecordReader Snapshot :=
  Snapshot.mk <$> driverField
    <*> optional "schema_rows" [] (list anyFields)
    <*> optional "constraint_rows" [] (list anyFields)

end Snapshot

def mappingsField : RecordReader (List Mapping) := optional "mappings" [] (list Mapping.ofJson)

/-- The cache of a request. -/
def CacheConfig.ofJson : Json → Reading CacheConfig :=
  (CacheConfig.mk <$> required "url" nonEmptyString
    <*> optional "kind" "simple" (word ["simple", "cluster", "failover"])
    <*> optional "master" none (nullable string)).ofJson

def CompileRequest.ofJson : Json → Reading CompileRequest :=
  (CompileRequest.mk <$> Snapshot.reader
    <*> (RunId.mk <$> required "job_id" nonEmptyString <*> required "run_id" nonEmptyString)
    <*> mappingsField
    <*> optional "cache" none (nullable CacheConfig.ofJson)
    <*> (Keyed.ofList <$> optional "where_clauses" [] (dict string))).ofJson

def DriftRequest.ofJson : Json → Reading DriftRequest :=
  (DriftRequest.mk <$> Snapshot.reader <*> mappingsField).ofJson

def RowCountRequest.ofJson : Json → Reading RowCountRequest :=
  let text (name : String) := optional name none (nullable string)
  (RowCountRequest.mk <$> Snapshot.driverField <*> text "url" <*> text "host"
    <*> optional "port" none (nullable int) <*> text "name" <*> text "user" <*> text "password"
    <*> text "ssl_mode" <*> optional "schema_name" "" string
    <*> required "table_name" nonEmptyString <*> text "where_clause").ofJson

end TransferPlan
