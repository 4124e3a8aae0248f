import TransferPlan.Proofs.Plan.Build

/-!
# The order of the mappings

If no two mappings name the same column of a table, the order in which the mappings are listed does
not matter: the plan, the ids asked for and any error are the same, except that an error about the
schema may list its columns in another order (`build_perm`).
-/

namespace TransferPlan

/-! ## The check of the schema -/

namespace Drift

variable {live : LiveSchema} {mappings mappings' : List Mapping}

theorem isMapped_iff_of_perm (h : mappings.Perm mappings') {t c : String} :
    IsMapped mappings t c ↔ IsMapped mappings' t c := by
  simp only [IsMapped, h.mem_iff]

theorem agrees_iff_of_perm (h : mappings.Perm mappings') :
    Agrees live mappings ↔ Agrees live mappings' := by
  simp only [Agrees, h.mem_iff, isMapped_iff_of_perm h]

theorem unknownColumns_perm (h : mappings.Perm mappings') :
    (unknownColumns live mappings).Perm (unknownColumns live mappings') :=
  h.filterMap _

theorem unmappedColumns_perm (h : mappings.Perm mappings') :
    (unmappedColumns live mappings).Perm (unmappedColumns live mappings') := by
  have hkeys : (mappedColumns mappings).keys.Perm (mappedColumns mappings').keys := by
    refine (List.perm_ext_iff_of_nodup (Keyed.nodup_keys _) (Keyed.nodup_keys _)).2 fun t => ?_
    simp only [mem_keys_mappedColumns, h.mem_iff]
  simp only [unmappedColumns_eq, isMapped_iff_of_perm h]
  exact hkeys.flatMap_right _

end Drift

/-! ## The pipelines -/

theorem selectMappings_eq_of_perm {mappings mappings' : List Mapping} {columns : List String}
    (hnd : (mappings.map (·.column)).Nodup) (h : mappings.Perm mappings') :
    selectMappings mappings columns = selectMappings mappings' columns := by
  have hreverse : mappings.reverse.Perm mappings'.reverse :=
    (List.reverse_perm _).trans (h.trans (List.reverse_perm _).symm)
  refine List.filterMap_congr fun c _ => find?_key_eq_of_perm ?_ hreverse
  rw [List.map_reverse]
  exact List.nodup_reverse.2 hnd

namespace Context

variable {c : Context} {mappings : List Mapping}

/-- The context with other mappings. -/
def remapped (c : Context) (mappings : List Mapping) : Context := { c with mappings }

/-- No two mappings name the same column of a table. -/
def DistinctMappings (c : Context) : Prop :=
  (c.mappings.map fun m => (m.tableKey, m.column)).Nodup

theorem DistinctMappings.nodup_columns (h : c.DistinctMappings) (t : String) :
    ((c.mappingsOf t).map (·.column)).Nodup := by
  have hpairs := (List.pairwise_map.1 h).filter (·.tableKey == t)
  refine List.pairwise_map.2 (hpairs.imp_of_mem fun {a b} ha hb hab => ?_)
  have hat : a.tableKey = t := by simpa using (List.mem_filter.1 ha).2
  have hbt : b.tableKey = t := by simpa using (List.mem_filter.1 hb).2
  exact fun hcol => hab (Prod.ext (hat.trans hbt.symm) hcol)

theorem mappingsOf_perm (h : mappings.Perm c.mappings) (t : String) :
    ((c.remapped mappings).mappingsOf t).Perm (c.mappingsOf t) :=
  h.filter _

theorem job_eq_of_perm (h : mappings.Perm c.mappings) : (c.remapped mappings).job = c.job := by
  have hempty : ∀ t, ((c.remapped mappings).mappingsOf t).isEmpty = (c.mappingsOf t).isEmpty :=
    fun t => (mappingsOf_perm h t).isEmpty_eq
  simp only [job, hempty]
  rfl

theorem pipeline_eq_of_perm (hnd : c.DistinctMappings) (h : mappings.Perm c.mappings)
    (schema : LiveSchema) (deferred : ReferenceMap) (pass : Pass) :
    (c.remapped mappings).pipeline schema deferred pass = c.pipeline schema deferred pass := by
  have hselect : selectMappings ((c.remapped mappings).mappingsOf pass.table) pass.writes =
      selectMappings (c.mappingsOf pass.table) pass.writes :=
    (selectMappings_eq_of_perm (hnd.nodup_columns _) (mappingsOf_perm h _).symm).symm
  simp only [pipeline, compilePass, stages, hselect]
  rfl

theorem build_eq_of_perm (hnd : c.DistinctMappings) (h : mappings.Perm c.mappings)
    (hagrees : Drift.Agrees c.schema c.mappings) :
    (c.remapped mappings).build = c.build := by
  have horder : (c.remapped mappings).order = c.order := by
    have hvalid : Drift.validate c.schema mappings = .ok () :=
      Drift.validate_eq_ok_iff.2 ((Drift.agrees_iff_of_perm h).2 hagrees)
    rw [order, order, job_eq_of_perm h, Drift.validate_eq_ok_iff.2 hagrees, ← hvalid]
    rfl
  simp only [build, horder]
  cases c.order with
  | error e => rfl
  | ok ordered =>
      have hpipeline : (c.remapped mappings).pipeline c.schema ordered.2 =
          c.pipeline c.schema ordered.2 := funext (pipeline_eq_of_perm hnd h _ _)
      exact congrArg (fun f => (do return ⟨c.id, ← ordered.1.mapM f⟩ : Compile Plan)) hpipeline

/-- The mappings in another order give the same plan or the same error, or two errors about the
schema with the same columns. -/
theorem build_perm (hnd : c.DistinctMappings) (h : mappings.Perm c.mappings) (s : Session) :
    (c.remapped mappings).build.run.run s = c.build.run.run s ∨
      ∃ d d' : DriftError, d'.unknown.Perm d.unknown ∧ d'.unmapped.Perm d.unmapped ∧
        c.build.run.run s = (.error (.drift d), s) ∧
        (c.remapped mappings).build.run.run s = (.error (.drift d'), s) := by
  by_cases hagrees : Drift.Agrees c.schema c.mappings
  · exact .inl (by rw [build_eq_of_perm hnd h hagrees])
  · have hagrees' : ¬ Drift.Agrees c.schema mappings := by rwa [Drift.agrees_iff_of_perm h]
    exact .inr ⟨⟨_, _⟩, ⟨_, _⟩, Drift.unknownColumns_perm h, Drift.unmappedColumns_perm h,
      run_build_eq_error (order_eq_error hagrees) s,
      run_build_eq_error (order_eq_error (c := c.remapped mappings) hagrees') s⟩

/-- Visitors with a badge; their names are generated. -/
def visits : Context where
  id := ⟨"job", "run"⟩
  rows := [⟨"", "visit", "badge", {}⟩, ⟨"", "visit", "name", {}⟩]
  constraints := {}
  mappings := [⟨"", "visit", "name", some ⟨.generateSsn, some .generateSsn⟩⟩,
    ⟨"", "visit", "badge", none⟩]

def visitsPlan : Plan where
  id := ⟨"job", "run"⟩
  pipelines := [
    { pass := {
        table := "visit"
        kind := .insert
        primaryKeys := []
        reads := ["badge", "name"]
        writes := ["badge", "name"]
        needs := [] }
      stages := [.mutation "root.\"name\" = generate_ssn()"]
      arguments := "root = [this.\"badge\", this.\"name\"]"
      columns := ["badge", "name"]
      whereColumns := [] }]

theorem build_perm_visits :
    visits.DistinctMappings ∧ visits.mappings.reverse.Perm visits.mappings ∧
      (visits.build.run.run {}).1 = .ok visitsPlan ∧
      ((visits.remapped visits.mappings.reverse).build.run.run {} = visits.build.run.run {} ∨
        ∃ d d' : DriftError, d'.unknown.Perm d.unknown ∧ d'.unmapped.Perm d.unmapped ∧
          visits.build.run.run {} = (.error (.drift d), {}) ∧
          (visits.remapped visits.mappings.reverse).build.run.run {} =
            (.error (.drift d'), {})) ∧
      ((visits.remapped visits.mappings.reverse).build.run.run {}).1 = .ok visitsPlan := by
  have hnd : visits.DistinctMappings := by
    unfold DistinctMappings
    decide
  have hplan : (visits.build.run.run {}).1 = .ok visitsPlan := by
    have horder : visits.order = .ok (visitsPlan.pipelines.map (·.pass),
        visits.deferred (visitsPlan.pipelines.map (·.pass))) :=
      order_eq_of_pairwise (List.pairwise_pair.2 (Int.le_refl _)) rfl rfl (by decide +kernel)
    rw [build_eq_of_order horder]
    decide +kernel
  have hboth := build_perm hnd (List.reverse_perm _) {}
  refine ⟨hnd, List.reverse_perm _, hplan, hboth, ?_⟩
  obtain heq | ⟨d, d', -, -, herror, -⟩ := hboth
  · rw [heq, hplan]
  · rw [herror] at hplan
    cases hplan

end Context

end TransferPlan
