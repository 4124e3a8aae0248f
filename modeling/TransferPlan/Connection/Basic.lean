import TransferPlan.Connection.Url
import TransferPlan.Schema.Column

/-!
# Connections

A database is described either by a URL or by host, port, name, user, password and encryption
mode.  Both forms resolve to the same target: the name of a client driver with everything that it
needs to connect.
-/

namespace TransferPlan

/-- A description of a database. -/
structure Descriptor where
  driver : Option String
  url : Option String := none
  host : Option String := none
  port : Option Int := none
  name : Option String := none
  user : Option String := none
  password : Option String := none
  sslMode : Option String := none
deriving DecidableEq, Repr

/-- Where and how to connect. -/
structure Target where
  driverName : String
  user : Option String
  password : Option String
  host : String
  port : Option Int
  database : String
  query : Keyed String
deriving DecidableEq, Repr

/-- Why a description does not resolve. -/
inductive ConnectionError where
  | unsupportedDriver (driver : Option String)
  | noHost
  | noName
  | noScheme
  | schemeMismatch (scheme : String) (dialect : Dialect)
  | urlWithoutHost
  | urlWithoutName
  | badUrl (e : UrlError)
deriving DecidableEq, Repr

def ConnectionError.message : ConnectionError → String
  | .unsupportedDriver driver => Dialect.unsupported (driver.getD "None")
  | .noHost => "Connection must include a hostname."
  | .noName => "Connection must include a database name."
  | .noScheme => "Connection URL is missing a scheme."
  | .schemeMismatch scheme dialect =>
    "Connection URL scheme '" ++ scheme ++ "' does not match driver '" ++ dialect.name ++ "'."
  | .urlWithoutHost => "Connection URL must include a hostname."
  | .urlWithoutName => "Connection URL must include a database name."
  | .badUrl e => e.message

namespace Dialect

/-- The name of the client driver. -/
def driverName : Dialect → String
  | .postgres => "postgresql+psycopg"
  | .mysql => "mysql+pymysql"
  | .mssql => "mssql+pyodbc"

/-- The dialect of a URL scheme. -/
def ofScheme? (scheme : String) : Option Dialect :=
  match scheme with
  | "postgres" | "postgresql" => some .postgres
  | "mysql" => some .mysql
  | "sqlserver" | "mssql" => some .mssql
  | _ => none

/-- The parameter for an encryption mode; a blank mode has none. -/
def sslParameter? (d : Dialect) (mode : String) : Option (String × String) :=
  (Text.trim? mode).bind fun mode =>
    match d with
    | .postgres => some ("sslmode", mode)
    | .mssql => some ("Encrypt", if Text.lower mode = "disable" then "no" else "yes")
    | .mysql => none

/-- The parameters that are set unless given. -/
def defaultParameters : Dialect → List (String × String)
  | .mssql => [("TrustServerCertificate", "yes"), ("driver", "ODBC Driver 18 for SQL Server")]
  | _ => []

/-- The parameters with the defaults added. -/
def withDefaults (d : Dialect) (query : Keyed String) : Keyed String :=
  d.defaultParameters.foldl (fun q p => if q.contains p.1 then q else q.insert p.1 p.2) query

/-- The parameters with one more from a URL; the encryption mode is put in the
terms of the dialect. -/
def addParameter (d : Dialect) (query : Keyed String) (p : String × String) : Keyed String :=
  if Text.lower p.1 = "sslmode" then
    match d.sslParameter? p.2 with
    | some p => query.insert p.1 p.2
    | none => query
  else query.insert p.1 p.2

end Dialect

namespace Descriptor

/-- A text that is given and not empty. -/
def given? (s : Option String) : Option String := s.filter (· != "")

/-- The dialect that a URL is written for; what follows a plus sign in its scheme is a client. -/
def urlDialect? (u : Url) : Option Dialect :=
  Dialect.ofScheme? (String.ofList (u.scheme.toList.takeWhile (· != '+')))

/-- The database that a URL names. -/
def urlDatabase (u : Url) : String := String.ofList (u.path.toList.dropWhile (· == '/'))

/-- The target of a URL that could be cut. -/
def ofUrl (d : Dialect) (u : Url) : Except ConnectionError Target :=
  if u.scheme = "" then .error .noScheme
  else if urlDialect? u ≠ some d then .error (.schemeMismatch u.scheme d)
  else match u.host? with
    | none => .error .urlWithoutHost
    | some host =>
      if urlDatabase u = "" then .error .urlWithoutName
      else do
        let port ← u.port?.mapError .badUrl
        return {
          driverName := d.driverName
          user := u.user.1
          password := u.user.2
          host
          port := port.map Int.ofNat
          database := urlDatabase u
          query := d.withDefaults (u.parameters.foldl d.addParameter .empty) }

/-- The target of a URL. -/
def resolveUrl (d : Dialect) (url : String) : Except ConnectionError Target := do
  ofUrl d (← (Url.parse (Text.trim url)).mapError .badUrl)

/-- The target of a description.  A URL that is given goes before the other parts. -/
def resolve (c : Descriptor) : Except ConnectionError Target :=
  match Dialect.ofName? (c.driver.getD "") with
  | none => .error (.unsupportedDriver c.driver)
  | some d =>
    match given? c.url, given? c.host, given? c.name with
    | some url, _, _ => resolveUrl d url
    | none, none, _ => .error .noHost
    | none, some _, none => .error .noName
    | none, some host, some database =>
      let parameter := (given? c.sslMode).bind d.sslParameter?
      .ok {
        driverName := d.driverName
        user := c.user
        password := c.password
        host
        port := c.port
        database
        query := d.withDefaults (Keyed.ofList parameter.toList) }

end Descriptor

end TransferPlan
