import TransferPlan.Endpoint.Basic
import TransferPlan.Proofs.Schema.Unreadable

/-!
# How compiling fails

A request to compile is answered by the plan, or refused with a status and a text: 502 if a
definition could not be had, 400 for everything else.  The only failures that pass through are
cells that cannot be read (`compile_fails_as_documented_iff`).
-/

namespace TransferPlan

namespace CompileRequest

variable {r : CompileRequest} {settings : Settings} {lookup : Option Lookup}

/-! ## Cells that cannot be read -/

/-- The rows about constraints that are served to a request, none if nothing is mapped. -/
def servedRows (r : CompileRequest) : List Row :=
  if (mappedSchemas r.mappings).isEmpty then []
  else RowSource.forSchemas ⟨true, r.snapshot.constraintRows.map fun fields => { fields }⟩
    (mappedSchemas r.mappings)

/-- A column of the snapshot has an infinite number in place of a whole one. -/
def HasInfinite (r : CompileRequest) : Prop :=
  ∃ fields ∈ r.snapshot.columnRows, ∃ name ∈ ColumnRow.numbers, Row.IsInfinite { fields } name

/-- A request whose driver is known has a cell that cannot be read, and no row in front of it is
refused. -/
inductive Unreadable (r : CompileRequest) : CellError → Prop
  | infinite {d : Dialect} (driver : Dialect.ofName? r.snapshot.driver = some d)
    (number : r.HasInfinite) : Unreadable r .infinite
  | notText {d : Dialect} (driver : Dialect.ofName? r.snapshot.driver = some d)
    (numbers : ¬ r.HasInfinite) (front : List Row) (row : Row) (back : List Row)
    (split : r.servedRows = front ++ row :: back)
    (accepted : ∀ q ∈ front, ∃ c, Constraint.ofRow q = .ok c) (list : ¬ Constraint.Lists row) :
    Unreadable r .notText

/-! ## Documented results -/

/-- What is documented of a request: it is answered by the plan that is built, or refused. -/
inductive Documented (r : CompileRequest) (settings : Settings) (lookup : Option Lookup) :
    Except EndpointError Plan → Prop
  | built {c : Context} {plan : Plan} (context : r.context settings lookup = .ok c)
    (build : (c.build.run.run {}).1 = .ok plan) : Documented r settings lookup (.ok plan)
  /-- A definition could not be had. -/
  | unresolved {c : Context} {e : LookupError} (context : r.context settings lookup = .ok c)
    (build : (c.build.run.run {}).1 = .error (.lookup e)) :
    Documented r settings lookup (.error (.refused 502 e.message))
  | failed {c : Context} {e : CompileError} (context : r.context settings lookup = .ok c)
    (build : (c.build.run.run {}).1 = .error e) (other : ∀ l, e ≠ .lookup l) :
    Documented r settings lookup (.error (.refused 400 e.message))
  /-- The lists of a foreign key differ in length. -/
  | inconsistent {d : Dialect} {e : ConstraintError}
    (driver : Dialect.ofName? r.snapshot.driver = some d)
    (constraints : ConstraintSet.ofRows r.servedRows = .error e) (other : ∀ c, e ≠ .unreadable c) :
    Documented r settings lookup (.error (.refused 400 e.message))
  | unsupported (driver : Dialect.ofName? r.snapshot.driver = none) :
    Documented r settings lookup
      (.error (.refused 400 (Dialect.unsupported r.snapshot.driver)))

/-! ## Reading the request -/

theorem columns_eq_error_iff {d : Dialect} {e : EndpointError} :
    r.snapshot.columns d = .error e ↔ r.HasInfinite ∧ e = .badCell .infinite :=
  mapError_eq_error_iff_of_error fun _ =>
    mapM_eq_error_iff fun _ _ => ColumnRow.ofRow_eq_error_iff

theorem constraints_eq :
    r.snapshot.constraints (mappedSchemas r.mappings) =
      (ConstraintSet.ofRows r.servedRows).mapError .ofConstraint := by
  unfold Snapshot.constraints ConstraintSet.forSchemas servedRows
  split <;> rfl

theorem dialect_eq_ok_iff {d : Dialect} :
    r.snapshot.dialect = .ok d ↔ Dialect.ofName? r.snapshot.driver = some d := by
  unfold Snapshot.dialect
  cases Dialect.ofName? r.snapshot.driver <;> simp

theorem context_of_unsupported (h : Dialect.ofName? r.snapshot.driver = none) :
    r.context settings lookup =
      .error (.badRequest (Dialect.unsupported r.snapshot.driver)) := by
  unfold context Snapshot.dialect
  rw [h]
  rfl

/-- The rows about columns are read before those about constraints. -/
theorem context_eq_error_iff {d : Dialect} (h : Dialect.ofName? r.snapshot.driver = some d)
    {e : EndpointError} :
    r.context settings lookup = .error e ↔ (r.HasInfinite ∧ e = .badCell .infinite) ∨
      (¬ r.HasInfinite ∧
        ∃ e', ConstraintSet.ofRows r.servedRows = .error e' ∧ .ofConstraint e' = e) := by
  unfold context
  rw [dialect_eq_ok_iff.2 h]
  show (r.snapshot.columns d >>= _) = _ ↔ _
  refine bind_eq_error_iff_of_error (fun _ => columns_eq_error_iff) fun rows _ => ?_
  rw [bind_eq_error_iff, constraints_eq, mapError_eq_error_iff]
  apply or_iff_left
  rintro ⟨constraints, -, h⟩
  exact nomatch h

theorem context_eq_badCell_iff {e : CellError} :
    r.context settings lookup = .error (.badCell e) ↔ r.Unreadable e := by
  cases hd : Dialect.ofName? r.snapshot.driver with
  | none =>
      rw [context_of_unsupported hd]
      refine iff_of_false nofun fun h => ?_
      cases h with
      | infinite driver => exact nomatch hd.symm.trans driver
      | notText driver => exact nomatch hd.symm.trans driver
  | some d =>
      rw [context_eq_error_iff hd]
      constructor
      · rintro (⟨hinfinite, he⟩ | ⟨hnumbers, e', hrows, he⟩)
        · obtain rfl := EndpointError.badCell.inj he
          exact .infinite hd hinfinite
        · cases e' with
          | targetCount => exact nomatch he
          | flagCount => exact nomatch he
          | unreadable c =>
              obtain rfl := EndpointError.badCell.inj he
              obtain ⟨front, row, back, hsplit, haccepted, hrow⟩ :=
                ConstraintSet.ofRows_eq_error_iff.1 hrows
              obtain ⟨hlist, rfl⟩ := Constraint.ofRow_eq_unreadable_iff.1 hrow
              exact .notText hd hnumbers front row back hsplit haccepted hlist
      · intro h
        cases h with
        | infinite driver number => exact .inl ⟨number, rfl⟩
        | notText driver numbers front row back split accepted list =>
            refine .inr ⟨numbers, .unreadable .notText, ?_, rfl⟩
            exact ConstraintSet.ofRows_eq_error_iff.2 ⟨front, row, back, split, accepted,
              Constraint.ofRow_eq_unreadable_iff.2 ⟨list, rfl⟩⟩

/-! ## The result -/

theorem run_of_context_error {e : EndpointError} (h : r.context settings lookup = .error e) :
    r.run settings lookup = (.error e, []) := by
  rw [run, h]

theorem run_of_context_ok {c : Context} (h : r.context settings lookup = .ok c) :
    (r.run settings lookup).1 = (c.build.run.run {}).1.mapError .ofCompile := by
  rw [run, h]
  rfl

/-- A request that cannot be read is refused, cells aside. -/
theorem documented_of_context_error {e : EndpointError}
    (h : r.context settings lookup = .error e) (hcell : ∀ c, ¬ r.Unreadable c) :
    Documented r settings lookup (.error e) := by
  cases hd : Dialect.ofName? r.snapshot.driver with
  | none =>
      obtain rfl := Except.error.inj ((context_of_unsupported hd).symm.trans h)
      exact .unsupported hd
  | some d =>
      rcases (context_eq_error_iff hd).1 h with ⟨-, rfl⟩ | ⟨-, e', hrows, rfl⟩
      · exact absurd (context_eq_badCell_iff.1 h) (hcell _)
      · cases e' with
        | unreadable c => exact absurd (context_eq_badCell_iff.1 h) (hcell c)
        | targetCount => exact .inconsistent hd hrows nofun
        | flagCount => exact .inconsistent hd hrows nofun

theorem documented_of_build {c : Context} (h : r.context settings lookup = .ok c) :
    Documented r settings lookup ((c.build.run.run {}).1.mapError .ofCompile) := by
  cases hbuild : (c.build.run.run {}).1 with
  | ok plan => exact .built h hbuild
  | error e =>
      cases e with
      | lookup e => exact .unresolved h hbuild
      | drift | order | transformer | bridge | cancelled => exact .failed h hbuild nofun

/-- Nothing but a definition that could not be had has the status 502. -/
theorem run_eq_badGateway_iff {detail : String} :
    (r.run settings lookup).1 = .error (.refused 502 detail) ↔ ∃ c e,
      r.context settings lookup = .ok c ∧ (c.build.run.run {}).1 = .error (.lookup e) ∧
        detail = e.message := by
  cases hcontext : r.context settings lookup with
  | error e =>
      rw [run_of_context_error hcontext]
      refine iff_of_false (fun h => ?_) fun ⟨c, e, h, _⟩ => nomatch h
      obtain rfl := Except.error.inj h
      cases hd : Dialect.ofName? r.snapshot.driver with
      | none => exact nomatch (context_of_unsupported hd).symm.trans hcontext
      | some d =>
          rcases (context_eq_error_iff hd).1 hcontext with ⟨-, h⟩ | ⟨-, e', -, h⟩
          · exact nomatch h
          · cases e' <;> exact nomatch h
  | ok c =>
      rw [run_of_context_ok hcontext, mapError_eq_error_iff]
      constructor
      · rintro ⟨e, hbuild, he⟩
        cases e with
        | lookup e => exact ⟨c, e, rfl, hbuild, (EndpointError.refused.inj he).2.symm⟩
        | drift | order | transformer | bridge | cancelled =>
            exact absurd (EndpointError.refused.inj he).1 (by decide)
      · rintro ⟨c', e, hc, hbuild, rfl⟩
        obtain rfl := Except.ok.inj hc
        exact ⟨_, hbuild, rfl⟩

/-- A request to compile is answered or refused as documented unless it has a cell that cannot be
read; then that failure passes through as it is, and no definition has been asked for. -/
theorem compile_fails_as_documented_iff (r : CompileRequest) (settings : Settings)
    (lookup : Option Lookup) :
    (Documented r settings lookup (r.run settings lookup).1 ↔ ∀ e, ¬ r.Unreadable e) ∧
      (∀ detail, (r.run settings lookup).1 = .error (.refused 502 detail) ↔ ∃ c e,
        r.context settings lookup = .ok c ∧ (c.build.run.run {}).1 = .error (.lookup e) ∧
          detail = e.message) ∧
      ∀ e, r.Unreadable e → r.run settings lookup = (.error (.badCell e), []) := by
  have hescapes : ∀ e, r.Unreadable e → r.run settings lookup = (.error (.badCell e), []) :=
    fun e he => run_of_context_error (context_eq_badCell_iff.2 he)
  refine ⟨⟨fun hdocumented e he => ?_, fun hcell => ?_⟩, fun _ => run_eq_badGateway_iff, hescapes⟩
  · rw [hescapes e he] at hdocumented
    exact nomatch hdocumented
  · cases hcontext : r.context settings lookup with
    | error e =>
        rw [run_of_context_error hcontext]
        exact documented_of_context_error hcontext hcell
    | ok c =>
        rw [run_of_context_ok hcontext]
        exact documented_of_build hcontext

/-- A request whose only row about constraints lists its columns as a number. -/
def numberForList : Json := .object [
  ("driver", .string "postgres"), ("job_id", .string "job"), ("run_id", .string "run"),
  ("constraint_rows", .array [.object [
    ("table_schema", .string "public"), ("table_name", .string "staff"),
    ("constraint_type", .string "PRIMARY KEY"), ("constraint_columns", .int 5)]]),
  ("mappings", .array [.object [
    ("schema_name", .string "public"), ("table_name", .string "staff"),
    ("column_name", .string "id")]])]

theorem number_for_list_passes_through :
    ∃ r, CompileRequest.ofJson numberForList = .value r ∧
      r.run {} none = (.error (.badCell .notText), []) ∧
      ¬ Documented r {} none (r.run {} none).1 := by
  let r : CompileRequest := {
    snapshot := ⟨"postgres", [], [[("table_schema", .string "public"),
      ("table_name", .string "staff"), ("constraint_type", .string "PRIMARY KEY"),
      ("constraint_columns", .int 5)]]⟩
    id := ⟨"job", "run"⟩
    mappings := [⟨"public", "staff", "id", none⟩]
    cache := none
    filters := .empty }
  have hrun : r.run {} none = (.error (.badCell .notText), []) := by decide +kernel
  refine ⟨r, by rfl, hrun, fun h => ?_⟩
  rw [hrun] at h
  exact nomatch h

end CompileRequest

end TransferPlan
