import TransferPlan.Endpoint.Basic
import TransferPlan.Proofs.Connection.Malformed

/-!
# How counting fails

A request to count rows is answered by the count that the database gives, or refused: with status
400 if its description of the database does not resolve, and with 502 if the query fails.  Only the
faults of a malformed URL pass through (`row_count_fails_as_documented_iff`).
-/

namespace TransferPlan

/-- A database that counts rows or says why it cannot. -/
abbrev Counter := Target → CountQuery → Except String Int

/-- The outcome of a query to a database that counts rows. -/
def Counter.outcome (answer : Counter) (target : Target) (query : CountQuery) : QueryOutcome :=
  match answer target query with
  | .ok n => .value (.int n)
  | .error reason => .failed reason

namespace RowCountRequest

variable {r : RowCountRequest} {answer : Counter}

/-- The URL of a request whose driver is known is malformed. -/
def Malformed (r : RowCountRequest) (e : UrlError) : Prop :=
  ∃ d url, Dialect.ofName? r.driver = some d ∧ Descriptor.given? r.url = some url ∧
    Descriptor.BadUrl d url e

/-- What is documented of a request: it is answered by the count that the database gives for its
table, or refused. -/
inductive Documented (r : RowCountRequest) (answer : Counter) : Except EndpointError Int → Prop
  | counted {target : Target} {n : Int} (resolves : r.descriptor.resolve = .ok target)
    (count : answer target r.query = .ok n) : Documented r answer (.ok n)
  /-- The query fails; the text names the dialect and the table. -/
  | queryFailed {target : Target} {d : Dialect} {reason : String}
    (resolves : r.descriptor.resolve = .ok target) (driver : Dialect.ofName? r.driver = some d)
    (fails : answer target r.query = .error reason) :
    Documented r answer (.error (.refused 502
      (RowCountError.queryFailed d.name r.tableName.key reason).message))
  /-- The description does not resolve, for another reason than the form of its URL. -/
  | unresolved {e : ConnectionError} (resolves : r.descriptor.resolve = .error e)
    (other : ∀ u, e ≠ .badUrl u) : Documented r answer (.error (.refused 400 e.message))

theorem resolve_eq_badUrl_iff {e : UrlError} :
    r.descriptor.resolve = .error (.badUrl e) ↔ r.Malformed e :=
  Descriptor.resolve_eq_badUrl_iff

/-- A description that resolves has a driver that is known. -/
theorem exists_dialect_of_resolve {target : Target} (h : r.descriptor.resolve = .ok target) :
    ∃ d, Dialect.ofName? r.driver = some d := by
  cases hd : Dialect.ofName? r.driver with
  | some d => exact ⟨d, rfl⟩
  | none =>
      have hdriver : Dialect.ofName? (r.descriptor.driver.getD "") = none := hd
      rw [Descriptor.resolve, hdriver] at h
      exact nomatch h

theorem run_of_unresolved {e : ConnectionError} (h : r.descriptor.resolve = .error e)
    (outcome : Target → CountQuery → QueryOutcome) :
    r.run outcome = .error (.ofConnection e) := by
  rw [run, target, h]
  rfl

theorem run_of_resolved {target : Target} (h : r.descriptor.resolve = .ok target)
    (outcome : Target → CountQuery → QueryOutcome) :
    r.run outcome = (rowCount (Dialect.ofName? r.driver) r.tableName
      (some (outcome target r.query))).mapError .ofRowCount := by
  rw [run, RowCountRequest.target, h]
  rfl

theorem documented_of_resolved {target : Target} (h : r.descriptor.resolve = .ok target) :
    Documented r answer (r.run answer.outcome) := by
  rw [run_of_resolved h, Counter.outcome]
  cases hanswer : answer target r.query with
  | ok n => exact .counted h hanswer
  | error reason =>
      obtain ⟨d, hd⟩ := exists_dialect_of_resolve h
      rw [hd]
      exact .queryFailed h hd hanswer

/-- A request to count rows is answered or refused as documented, whatever the database counts,
unless its URL is malformed; then the fault of the URL passes through as it is. -/
theorem row_count_fails_as_documented_iff (r : RowCountRequest) (answer : Counter) :
    (Documented r answer (r.run answer.outcome) ↔ ∀ e, ¬ r.Malformed e) ∧
      ∀ e, r.Malformed e → r.run answer.outcome = .error (.badUrl e) := by
  have hescapes : ∀ e, r.Malformed e → r.run answer.outcome = .error (.badUrl e) :=
    fun e he => run_of_unresolved (resolve_eq_badUrl_iff.2 he) _
  refine ⟨⟨fun hdocumented e he => ?_, fun hurl => ?_⟩, hescapes⟩
  · rw [hescapes e he] at hdocumented
    exact nomatch hdocumented
  · cases hresolve : r.descriptor.resolve with
    | ok target => exact documented_of_resolved hresolve
    | error e =>
        rw [run_of_unresolved hresolve]
        cases e with
        | badUrl e => exact absurd (resolve_eq_badUrl_iff.1 hresolve) (hurl e)
        | _ => exact .unresolved hresolve nofun

/-- A request whose URL opens a bracket and does not close it. -/
def openBracket : Json := .object [
  ("driver", .string "postgres"), ("url", .string "postgres://[::1/db"),
  ("table_name", .string "staff")]

theorem open_bracket_passes_through :
    ∃ r, RowCountRequest.ofJson openBracket = .value r ∧
      r.run (Counter.outcome fun _ _ => .ok 1) = .error (.badUrl .misplacedBrackets) ∧
      ¬ Documented r (fun _ _ => .ok 1) (r.run (Counter.outcome fun _ _ => .ok 1)) := by
  let r : RowCountRequest := {
    driver := "postgres"
    url := some "postgres://[::1/db"
    host := none
    port := none
    name := none
    user := none
    password := none
    sslMode := none
    schema := ""
    table := "staff"
    filter := none }
  have hrun : r.run (Counter.outcome fun _ _ => .ok 1) = .error (.badUrl .misplacedBrackets) := by
    decide +kernel
  refine ⟨r, by rfl, hrun, fun h => ?_⟩
  rw [hrun] at h
  exact nomatch h

end RowCountRequest

end TransferPlan
