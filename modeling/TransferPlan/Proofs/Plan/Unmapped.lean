import TransferPlan.Proofs.Pass.Scope
import TransferPlan.Proofs.Plan.Build

/-!
# Tables without a mapping

A table without a mapping is not part of the job, whatever the catalogue says of it: two contexts
that agree on the mapped tables give the same plan or the same error (`build_eq_of_agreesOnMapped`).
-/

namespace TransferPlan

/-! ## The check of the schema -/

namespace Drift

variable {live live' : LiveSchema} {mappings : List Mapping}

theorem agrees_congr
    (h : ∀ m ∈ mappings, liveColumns live' m.tableKey = liveColumns live m.tableKey) :
    Agrees live' mappings ↔ Agrees live mappings :=
  forall₂_congr fun m hm => by rw [h m hm]

theorem unknownColumns_congr
    (h : ∀ m ∈ mappings, liveColumns live' m.tableKey = liveColumns live m.tableKey) :
    unknownColumns live' mappings = unknownColumns live mappings :=
  List.filterMap_congr fun m hm => by rw [h m hm]

theorem unmappedColumns_congr
    (h : ∀ m ∈ mappings, liveColumns live' m.tableKey = liveColumns live m.tableKey) :
    unmappedColumns live' mappings = unmappedColumns live mappings := by
  rw [unmappedColumns_eq, unmappedColumns_eq]
  refine List.flatMap_congr fun t ht => ?_
  obtain ⟨m, hm, rfl⟩ := mem_keys_mappedColumns.1 ht
  rw [h m hm]

/-- The check reads the live columns of mapped tables only. -/
theorem validate_congr
    (h : ∀ m ∈ mappings, liveColumns live' m.tableKey = liveColumns live m.tableKey) :
    validate live' mappings = validate live mappings := by
  by_cases hagrees : Agrees live mappings
  · rw [validate_eq_ok_iff.2 hagrees, validate_eq_ok_iff.2 ((agrees_congr h).2 hagrees)]
  · rw [validate_eq_error hagrees, validate_eq_error (mt (agrees_congr h).1 hagrees),
      unknownColumns_congr h, unmappedColumns_congr h]

end Drift

namespace Context

variable {c c' : Context} {t : String}

/-- Some mapping is over the table. -/
def Maps (c : Context) (t : String) : Prop := ∃ m ∈ c.mappings, m.tableKey = t

instance (c : Context) (t : String) : Decidable (c.Maps t) :=
  inferInstanceAs (Decidable (∃ m ∈ c.mappings, m.tableKey = t))

/-- The contexts differ at most in what is known of tables without a mapping.  The rows of the
mapped tables are the same, in the same order. -/
structure AgreesOnMapped (c c' : Context) : Prop where
  id : c'.id = c.id
  mappings : c'.mappings = c.mappings
  cache : c'.cache = c.cache
  lookup : c'.lookup = c.lookup
  cancelled : c'.cancelled = c.cancelled
  rows : c'.rows.filter (c.Maps ·.tableKey) = c.rows.filter (c.Maps ·.tableKey)
  foreignKeys : ∀ t, c.Maps t →
    (c'.constraints.foreignKeys.get? t).getD [] = (c.constraints.foreignKeys.get? t).getD []
  primaryKeys : ∀ t, c.Maps t →
    (c'.constraints.primaryKeys.get? t).getD [] = (c.constraints.primaryKeys.get? t).getD []
  filters : ∀ t, c.Maps t → c'.filters.get? t = c.filters.get? t

theorem maps_of_mem_tables (h : t ∈ c.job.tables) : c.Maps t := (mem_tables.1 h).2

/-- The columns of a job come from the rows of the mapped tables. -/
theorem columns_job_eq (c : Context) :
    c.job.columns = columnOrder (c.rows.filter (c.Maps ·.tableKey)) := by
  have hmaps : ∀ t, (!(c.mappingsOf t).isEmpty) = decide (c.Maps t) := fun t => by
    rw [Bool.eq_iff_iff, decide_eq_true_iff]
    simp [mappingsOf, Maps]
  simp only [job, hmaps, columnOrder]
  rw [Keyed.filter_mapValues]
  exact congrArg _ (Keyed.filter_grouped _ _ _ _ _)

/-- The live columns of a mapped table come from the rows of the mapped tables. -/
theorem get?_schema_eq (h : c.Maps t) :
    c.schema.get? t = (LiveSchema.ofRows (c.rows.filter (c.Maps ·.tableKey))).get? t := by
  have hfilter := Keyed.filter_grouped ColumnRow.tableKey .empty Drift.addRow
    (fun t => decide (c.Maps t)) c.rows
  rw [schema, Drift.ofRows_eq, Drift.ofRows_eq, ← hfilter, Keyed.get?_filter _ (by simpa using h)]

namespace AgreesOnMapped

theorem maps_eq (h : c.AgreesOnMapped c') : c'.Maps = c.Maps := by
  funext t
  rw [Maps, Maps, h.mappings]

theorem mappingsOf_eq (h : c.AgreesOnMapped c') (t : String) :
    c'.mappingsOf t = c.mappingsOf t := by
  rw [mappingsOf, mappingsOf, h.mappings]

theorem get?_schema (h : c.AgreesOnMapped c') (ht : c.Maps t) :
    c'.schema.get? t = c.schema.get? t := by
  rw [get?_schema_eq ht, get?_schema_eq (h.maps_eq ▸ ht)]
  simp only [h.maps_eq, h.rows]

theorem job_eq (h : c.AgreesOnMapped c') :
    c'.job = c.job.withKeys c'.constraints.primaryKeys c'.filters := by
  have hcolumns : c'.job.columns = c.job.columns := by
    rw [columns_job_eq, columns_job_eq]
    simp only [h.maps_eq, h.rows]
  have hkeys : c'.job.foreignKeys = c.job.foreignKeys := by
    change (c'.job.columns.mapValues fun t _ => (c'.constraints.foreignKeys.get? t).getD []) =
      c.job.columns.mapValues fun t _ => (c.constraints.foreignKeys.get? t).getD []
    rw [hcolumns]
    exact Keyed.mapValues_congr fun t ht _ => h.foreignKeys t (maps_of_mem_tables ht)
  rw [Job.withKeys, ← hcolumns, ← hkeys]
  rfl

theorem order_eq (h : c.AgreesOnMapped c') : c'.order = c.order := by
  have hlive : ∀ m ∈ c.mappings,
      Drift.liveColumns c'.schema m.tableKey = Drift.liveColumns c.schema m.tableKey :=
    fun m hm => by rw [Drift.liveColumns, Drift.liveColumns, h.get?_schema ⟨m, hm, rfl⟩]
  have hjob : c'.job.order = c.job.order := by
    rw [h.job_eq]
    exact Job.order_congr (fun t ht => h.primaryKeys t (maps_of_mem_tables ht))
      fun t ht => h.filters t (maps_of_mem_tables ht)
  have hkeys : c'.job.foreignKeys = c.job.foreignKeys := by
    rw [h.job_eq]
    rfl
  simp only [order, h.mappings, Drift.validate_congr hlive, hjob, hkeys]

theorem pipeline_eq (h : c.AgreesOnMapped c') (deferred : ReferenceMap) {pass : Pass}
    (hp : c.Maps pass.table) :
    c'.pipeline c'.schema deferred pass = c.pipeline c.schema deferred pass := by
  simp only [pipeline, compilePass, checkCancelled, h.mappingsOf_eq, h.get?_schema hp, h.id,
    h.cache, h.lookup, h.cancelled]

end AgreesOnMapped

/-- What is known of tables without a mapping changes neither the plan nor the error. -/
theorem build_eq_of_agreesOnMapped (h : c.AgreesOnMapped c') : c'.build = c.build := by
  simp only [build, h.order_eq]
  cases horder : c.order with
  | error e => rfl
  | ok ordered =>
      obtain ⟨passes, deferred⟩ := ordered
      obtain ⟨-, hline, -⟩ := order_eq_ok_iff.1 horder
      have hpipelines : passes.mapM (c'.pipeline c'.schema deferred) =
          passes.mapM (c.pipeline c.schema deferred) := mapM_congr fun p hp =>
        h.pipeline_eq deferred (maps_of_mem_tables
          (Job.table_mem_of_mem_plan ((Job.perm_of_order hline).subset hp)))
      simp only [hpipelines, h.id]

/-- Orders of users; only the table of the orders is mapped. -/
def orders : Context where
  id := ⟨"job", "run"⟩
  rows := [⟨"", "order", "id", {}⟩, ⟨"", "order", "user", {}⟩]
  constraints := {
    foreignKeys := .ofList [("order", [⟨["user"], [true], "user", ["id"], none⟩])] }
  mappings := [⟨"", "order", "id", none⟩, ⟨"", "order", "user", none⟩]

/-- The same orders with a table of users, who have a last order. -/
def ordersOfUsers : Context where
  id := ⟨"job", "run"⟩
  rows := [⟨"", "user", "id", {}⟩, ⟨"", "order", "id", {}⟩, ⟨"", "user", "last", {}⟩,
    ⟨"", "order", "user", {}⟩]
  constraints := {
    foreignKeys := .ofList [("user", [⟨["last"], [false], "order", ["id"], none⟩]),
      ("order", [⟨["user"], [true], "user", ["id"], none⟩])]
    primaryKeys := .ofList [("user", ["id"])] }
  mappings := [⟨"", "order", "id", none⟩, ⟨"", "order", "user", none⟩]
  filters := .ofList [("user", "active")]

def ordersPlan : Plan where
  id := ⟨"job", "run"⟩
  pipelines := [
    { pass := {
        table := "order"
        kind := .insert
        primaryKeys := []
        reads := ["id", "user"]
        writes := ["id", "user"]
        needs := [] }
      stages := []
      arguments := "root = [this.\"id\", this.\"user\"]"
      columns := ["id", "user"]
      whereColumns := [] }]

theorem build_eq_of_agreesOnMapped_orders :
    orders.AgreesOnMapped ordersOfUsers ∧ ordersOfUsers.build = orders.build ∧
      (orders.build.run.run {}).1 = .ok ordersPlan ∧
      (ordersOfUsers.build.run.run {}).1 = .ok ordersPlan := by
  have hmaps : ∀ t, orders.Maps t → t = "order" := by
    rintro t ⟨m, hm, rfl⟩
    revert m
    decide
  have h : orders.AgreesOnMapped ordersOfUsers :=
    { id := rfl
      mappings := rfl
      cache := rfl
      lookup := rfl
      cancelled := rfl
      rows := by decide
      foreignKeys := fun t ht => by
        rw [hmaps t ht]
        decide
      primaryKeys := fun t ht => by
        rw [hmaps t ht]
        decide
      filters := fun t ht => by
        rw [hmaps t ht]
        decide }
  have hsame : ordersOfUsers.build = orders.build := build_eq_of_agreesOnMapped h
  have hplan : (orders.build.run.run {}).1 = .ok ordersPlan := by
    have horder : orders.order = .ok (ordersPlan.pipelines.map (·.pass),
        orders.deferred (ordersPlan.pipelines.map (·.pass))) :=
      order_eq_of_pairwise (List.pairwise_pair.2 (Int.le_refl _)) rfl rfl (by decide +kernel)
    rw [build_eq_of_order horder]
    decide +kernel
  exact ⟨h, hsame, hplan, hsame ▸ hplan⟩

end Context

end TransferPlan
