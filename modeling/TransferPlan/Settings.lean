import TransferPlan.Reading.Value
import TransferPlan.Text.LetterCase

/-!
# Settings

What an installation configures: where definitions are kept, where values are cached, and a few
things that only the outer layers use.  A setting is taken from the arguments given, else from the
environment, else from its default.
-/

namespace TransferPlan

structure Settings where
  appName : String := "Data Sync Planner API"
  logLevel : String := "INFO"
  serviceUrl : Option String := none
  serviceToken : Option String := none
  serviceTimeout : Int := 30
  cacheUrl : Option String := none
  cacheKind : String := "simple"
  cacheMaster : Option String := none
  origins : List String :=
    ["http://localhost:5173", "http://127.0.0.1:5173", "http://localhost:3000",
      "http://127.0.0.1:3000"]
deriving DecidableEq, Repr

namespace Settings

open RecordReader Reading

/-- The kinds of caches. -/
def cacheKinds : List String := ["simple", "cluster", "failover"]

/-- The kind of the cache, in any letter case; blank text stands for a simple one. -/
def readCacheKind : Json → Reading String
  | .string s =>
    let kind := Text.lower (Text.trim s)
    word cacheKinds (.string (if kind = "" then "simple" else kind))
  | j => word cacheKinds j

/-- The origins, given as one text with commas or as a list. -/
def readOrigins : Json → Reading (List String)
  | .string s => .value (Text.names "," s)
  | j => list string j

/-- The settings, under their names. -/
def reader : RecordReader Settings :=
  let d : Settings := {}
  Settings.mk <$> optional "app_name" d.appName string
    <*> optional "log_level" d.logLevel string
    <*> optional "transformer_service_url" d.serviceUrl (nullable string)
    <*> optional "transformer_service_token" d.serviceToken (nullable string)
    <*> optional "transformer_service_timeout_seconds" d.serviceTimeout (intBetween 1 600)
    <*> optional "cache_url" d.cacheUrl (nullable string)
    <*> optional "cache_kind" d.cacheKind readCacheKind
    <*> optional "cache_master" d.cacheMaster (nullable string)
    <*> optional "frontend_origins" d.origins readOrigins

/-- Reads the settings.  Names in the environment match in any letter case, and the last of
several counts. -/
def read (environment : List (String × String)) (arguments : List (String × Json)) :
    Reading Settings :=
  let named := environment.reverse.map fun (k, v) => (Text.lower k, Json.string v)
  reader.read (arguments ++ named)

end Settings

end TransferPlan
