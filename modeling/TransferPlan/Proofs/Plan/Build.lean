import TransferPlan.Plan
import TransferPlan.Proofs.Compile.Run
import TransferPlan.Proofs.Drift
import TransferPlan.Proofs.Pass.Split
import TransferPlan.Proofs.Schema.Grouping

/-!
# Building a plan

What a plan is built from: the mappings agree with the live schema, the passes are an order of the
job, and the pipelines are those of the passes, in the same order (`builtFrom_of_build`).
-/

namespace TransferPlan

namespace Context

variable {c : Context} {t x : String} {all : List String}

/-! ## The job -/

/-- The job is over the live tables that have a mapping. -/
theorem mem_tables :
    t ∈ c.job.tables ↔ (∃ r ∈ c.rows, r.tableKey = t) ∧ ∃ m ∈ c.mappings, m.tableKey = t := by
  rw [Job.tables, job, Keyed.keys_filter, List.mem_filter, mem_keys_columnOrder]
  simp [mappingsOf]

theorem mem_columns (h : (t, all) ∈ c.job.columns.entries) :
    x ∈ all ↔ x ∈ Drift.liveColumns c.schema t :=
  (mem_columnOrder (List.mem_filter.1 h).1).trans Drift.mem_liveColumns_ofRows.symm

/-- A mapped table is live, for its mapped columns are. -/
theorem mem_tables_iff_of_agrees (h : Drift.Agrees c.schema c.mappings) :
    t ∈ c.job.tables ↔ ∃ m ∈ c.mappings, m.tableKey = t := by
  rw [mem_tables, and_iff_right_of_imp]
  rintro ⟨m, hm, rfl⟩
  obtain ⟨r, hr, hrt, -⟩ := Drift.mem_liveColumns_ofRows.1 ((h m hm _).2 ⟨m, hm, rfl, rfl⟩)
  exact ⟨r, hr, hrt⟩

/-! ## The order -/

/-- The references that the update passes of a list fill in. -/
def deferred (c : Context) (passes : List Pass) : ReferenceMap :=
  (ReferenceMap.ofForeignKeys c.job.foreignKeys).deferred passes

theorem order_eq_ok_iff {passes : List Pass} {deferred : ReferenceMap} :
    c.order = .ok (passes, deferred) ↔ Drift.Agrees c.schema c.mappings ∧
      c.job.order = .ok passes ∧ deferred = c.deferred passes := by
  simp only [order, bind_eq_ok_iff, mapError_eq_ok_iff, ← Drift.validate_eq_ok_iff]
  constructor
  · rintro ⟨⟨⟩, hvalid, line, hline, h⟩
    obtain ⟨rfl, rfl⟩ := Prod.mk.inj (Except.ok.inj h)
    exact ⟨hvalid, hline, rfl⟩
  · rintro ⟨hvalid, hline, rfl⟩
    exact ⟨(), hvalid, passes, hline, rfl⟩

/-- The job over tables with the given columns. -/
def jobOver (c : Context) (columns : Keyed (List String)) : Job where
  foreignKeys := columns.mapValues fun table _ => (c.constraints.foreignKeys.get? table).getD []
  primaryKeys := c.constraints.primaryKeys
  columns
  filters := c.filters

/-- The columns of the mapped tables, in the order in which they are listed. -/
def listedColumns (c : Context) : Keyed (List String) :=
  ((rowsByTable c.rows).mapValues fun _ rs => (rs.map (·.name)).eraseDups).filter
    fun table _ => !(c.mappingsOf table).isEmpty

/-- If the rows come in the order of the positions of their columns, the job is over the columns as
they are listed. -/
theorem job_eq_of_pairwise (hrows : c.rows.Pairwise fun a b => a.column.order ≤ b.column.order) :
    c.job = c.jobOver c.listedColumns := by
  rw [job, columnOrder_eq_of_pairwise hrows]
  rfl

theorem order_eq_of_pairwise {j : Job} {passes : List Pass}
    (hrows : c.rows.Pairwise fun a b => a.column.order ≤ b.column.order)
    (hjob : c.jobOver c.listedColumns = j) (hvalid : Drift.validate c.schema c.mappings = .ok ())
    (horder : j.order = .ok passes) : c.order = .ok (passes, c.deferred passes) := by
  refine order_eq_ok_iff.2 ⟨Drift.validate_eq_ok_iff.1 hvalid, ?_, rfl⟩
  rwa [job_eq_of_pairwise hrows, hjob]

theorem order_eq_error (h : ¬ Drift.Agrees c.schema c.mappings) :
    c.order = .error (.drift ⟨Drift.unknownColumns c.schema c.mappings,
      Drift.unmappedColumns c.schema c.mappings⟩) := by
  rw [order, Drift.validate_eq_error h]
  rfl

/-! ## Building -/

theorem build_eq_of_order {passes : List Pass} {deferred : ReferenceMap}
    (h : c.order = .ok (passes, deferred)) :
    c.build = do return ⟨c.id, ← passes.mapM (c.pipeline c.schema deferred)⟩ := by
  rw [build, h]

theorem run_build_eq_error {e : CompileError} (h : c.order = .error e) (s : Session) :
    c.build.run.run s = (.error e, s) := by
  rw [build, h]
  rfl

/-- The pipeline writes the columns of the pass and binds its arguments to them. -/
structure IsPipelineOf (c : Context) (deferred : ReferenceMap) (pass : Pass) (p : Pipeline) :
    Prop where
  pass_eq : p.pass = pass
  columns : p.columns = pass.writes
  whereColumns : p.whereColumns = if pass.kind = .update then pass.primaryKeys else []
  arguments : p.arguments = insertArguments (p.columns ++ p.whereColumns)
  stages : ∃ s s', (stages (c.mappingsOf pass.table) ((c.schema.get? pass.table).getD .empty)
    ((deferred.get? pass.table).getD .empty) pass c.id c.cache
    (c.lookup.map Resolver.remembering)).run.run s = (.ok p.stages, s')

theorem isPipelineOf_of_run {deferred : ReferenceMap} {pass : Pass} {p : Pipeline} {s s' : Session}
    (h : (c.pipeline c.schema deferred pass).run.run s = (.ok p, s')) :
    c.IsPipelineOf deferred pass p := by
  obtain ⟨-, s₁, -, h⟩ := Compile.run_bind_eq_ok_iff.1 h
  obtain ⟨stages, s₂, hstages, h⟩ := Compile.run_bind_eq_ok_iff.1 h
  obtain ⟨rfl, -⟩ := Compile.run_pure_eq_ok_iff.1 h
  exact ⟨rfl, rfl, rfl, rfl, s₁, s₂, hstages⟩

/-- The mappings agree with the live schema, the passes are an order of the job, and the pipelines
of the plan are those of the passes. -/
structure BuiltFrom (c : Context) (plan : Plan) (passes : List Pass) : Prop where
  agrees : Drift.Agrees c.schema c.mappings
  order : c.job.order = .ok passes
  id : plan.id = c.id
  pipelines : List.Forall₂ (c.IsPipelineOf (c.deferred passes)) passes plan.pipelines

theorem builtFrom_of_build {plan : Plan} {s s' : Session} (h : c.build.run.run s = (.ok plan, s')) :
    ∃ passes, c.BuiltFrom plan passes := by
  cases horder : c.order with
  | error e =>
      rw [run_build_eq_error horder] at h
      exact nomatch congrArg Prod.fst h
  | ok ordered =>
      obtain ⟨passes, deferred⟩ := ordered
      obtain ⟨hagrees, hline, rfl⟩ := order_eq_ok_iff.1 horder
      rw [build_eq_of_order horder] at h
      obtain ⟨pipelines, s₁, hpipelines, h⟩ := Compile.run_bind_eq_ok_iff.1 h
      obtain ⟨rfl, -⟩ := Compile.run_pure_eq_ok_iff.1 h
      exact ⟨passes, hagrees, hline, rfl, (Compile.forall₂_of_run_mapM hpipelines).imp
        fun _ _ ⟨_, _, hp⟩ => isPipelineOf_of_run hp⟩

namespace BuiltFrom

variable {plan : Plan} {passes : List Pass} {p : Pipeline} {q : Pass}

theorem map_pass (h : c.BuiltFrom plan passes) : plan.pipelines.map (·.pass) = passes := by
  have hpass := h.pipelines.imp fun _ _ hp => hp.pass_eq
  rw [← List.forall₂_eq_eq_eq, List.forall₂_map_left_iff]
  exact hpass.flip

theorem isPipelineOf (h : c.BuiltFrom plan passes) (hp : p ∈ plan.pipelines) :
    c.IsPipelineOf (c.deferred passes) p.pass p := by
  obtain ⟨q, -, hq⟩ := exists_of_mem_right h.pipelines hp
  rwa [hq.pass_eq]

theorem columns_eq (h : c.BuiltFrom plan passes) (hp : p ∈ plan.pipelines) :
    p.columns = p.pass.writes :=
  (h.isPipelineOf hp).columns

theorem pass_mem (h : c.BuiltFrom plan passes) (hp : p ∈ plan.pipelines) : p.pass ∈ passes :=
  h.map_pass ▸ List.mem_map_of_mem hp

theorem mem_plan (h : c.BuiltFrom plan passes) (hp : p ∈ plan.pipelines) : p.pass ∈ c.job.plan :=
  (Job.perm_of_order h.order).subset (h.pass_mem hp)

end BuiltFrom

end Context

end TransferPlan
