import TransferPlan.Proofs.Compile.Lines
import TransferPlan.Proofs.Plan.Build

/-!
# The order of written columns

The columns of an insert pass come in the order of the least positions that the rows report for
them, which are the recorded positions unless a column has a later row with a smaller one.  The
columns of an update pass come in the order in which the foreign keys list them, whatever their
positions are.  The lines of the stages follow the columns of their pass, so a pipeline is in the
order of positions exactly if its columns are (`columns_in_position`), which may fail for either
kind of pass (`columns_out_of_position`).
-/

namespace TransferPlan

namespace Context

variable {c : Context} {plan : Plan} {passes : List Pass} {p : Pipeline} {t x y : String}
  {all : List String}

/-! ## Recorded positions -/

/-- The position that the live schema records for a column, the last one if it records none. -/
def recorded (c : Context) (t x : String) : Int :=
  (((c.schema.get? t).bind (·.get? x)).map Column.order).getD Column.lastPosition

/-- The recorded positions do not decrease along the columns. -/
def Follows (c : Context) (t : String) (columns : List String) : Prop :=
  columns.Pairwise fun x y => c.recorded t x ≤ c.recorded t y

instance (c : Context) (t : String) (columns : List String) : Decidable (c.Follows t columns) :=
  inferInstanceAs (Decidable (columns.Pairwise _))

/-- The columns of a pipeline follow their positions, and so do those that are read off the lines of
each stage. -/
structure InPosition (c : Context) (p : Pipeline) : Prop where
  columns : c.Follows p.pass.table p.columns
  lines : ∀ stage ∈ p.stages, ∃ xs, stage.columns? = some xs ∧ c.Follows p.pass.table xs

/-- The position of a column is that of its first row. -/
theorem recorded_eq (c : Context) (t x : String) : c.recorded t x =
    ((c.rows.find? fun r => r.tableKey = t ∧ r.name = x).map (·.column.order)).getD
      Column.lastPosition := by
  have hbind : (c.schema.get? t).bind (·.get? x) = ((c.schema.get? t).getD .empty).get? x := by
    cases c.schema.get? t <;> rfl
  rw [recorded, hbind, schema, Drift.ofRows_eq, Keyed.getD_grouped, Drift.get?_foldl_addRow,
    List.find?_filter]
  simp [Function.comp_def]

theorem exists_row_of_recorded (h : ∃ r ∈ c.rows, r.tableKey = t ∧ r.name = x) :
    ∃ r ∈ c.rows, r.tableKey = t ∧ r.name = x ∧ c.recorded t x = r.column.order := by
  have hfound : (c.rows.find? fun r => r.tableKey = t ∧ r.name = x).isSome := by
    simpa using h
  obtain ⟨r, hr⟩ := Option.isSome_iff_exists.1 hfound
  have hkey : r.tableKey = t ∧ r.name = x := by simpa using List.find?_some hr
  refine ⟨r, List.mem_of_find?_eq_some hr, hkey.1, hkey.2, ?_⟩
  rw [recorded_eq, hr]
  rfl

/-! ## Insert passes -/

/-- For each row of the second column there is one of the first whose position is not greater. -/
def Leads (c : Context) (t x y : String) : Prop :=
  ∀ b ∈ c.rows, b.tableKey = t → b.name = y →
    ∃ a ∈ c.rows, a.tableKey = t ∧ a.name = x ∧ a.column.order ≤ b.column.order

/-- No row of the table reports a smaller position than the first row of its column. -/
def FirstRowsLead (c : Context) (t : String) : Prop :=
  ∀ r ∈ c.rows, r.tableKey = t → c.recorded t r.name ≤ r.column.order

instance (c : Context) (t : String) : Decidable (c.FirstRowsLead t) :=
  inferInstanceAs (Decidable (∀ r ∈ c.rows, r.tableKey = t → _))

theorem pairwise_leads (h : (t, all) ∈ (columnOrder c.rows).entries) :
    all.Pairwise (c.Leads t) := by
  obtain rfl := eq_namesInOrder h
  refine (pairwise_eraseDups_map (ColumnRow.pairwise_sorted _)).imp fun {x y} hxy b hb hbt hby => ?_
  obtain ⟨a, ha, hax, hab⟩ := hxy b (by simp [hb, hbt]) hby
  rw [List.mem_mergeSort, List.mem_filter] at ha
  exact ⟨a, ha.1, eq_of_beq ha.2, hax, hab⟩

theorem Leads.recorded_le (h : c.Leads t x y) (hy : ∃ r ∈ c.rows, r.tableKey = t ∧ r.name = y)
    (hfirst : c.FirstRowsLead t) : c.recorded t x ≤ c.recorded t y := by
  obtain ⟨b, hb, hbt, hby, hrecorded⟩ := exists_row_of_recorded hy
  obtain ⟨a, ha, rfl, rfl, hab⟩ := h b hb hbt hby
  calc c.recorded a.tableKey a.name ≤ a.column.order := hfirst a ha rfl
    _ ≤ b.column.order := hab
    _ = c.recorded a.tableKey y := hrecorded.symm

/-! ## Pipelines -/

namespace BuiltFrom

/-- The lines of the stages follow the columns of the pipeline. -/
theorem inPosition_iff (h : c.BuiltFrom plan passes) (hp : p ∈ plan.pipelines) :
    c.InPosition p ↔ c.Follows p.pass.table p.columns := by
  refine ⟨InPosition.columns, fun hcolumns => ⟨hcolumns, fun stage hstage => ?_⟩⟩
  obtain ⟨s, s', hrun⟩ := (h.isPipelineOf hp).stages
  obtain ⟨xs, hxs, hsub⟩ :=
    exists_columns_of_run (Job.nodup_writes (h.mem_plan hp)) hrun stage hstage
  rw [← h.columns_eq hp] at hsub
  exact ⟨xs, hxs, hcolumns.sublist hsub⟩

theorem exists_inserted (h : c.BuiltFrom plan passes) (hp : p ∈ plan.pipelines)
    (hk : p.pass.kind = .insert) :
    ∃ all, (p.pass.table, all) ∈ (columnOrder c.rows).entries ∧ p.columns.Sublist all := by
  obtain ⟨all, he⟩ := Job.exists_columns (Job.table_mem_of_mem_plan (h.mem_plan hp))
  refine ⟨all, List.mem_of_mem_filter he, ?_⟩
  rw [h.columns_eq hp, Job.eq_insertPass (h.mem_plan hp) hk he, Job.writes_insertPass]
  exact List.filter_sublist.trans (eraseDups_sublist all)

theorem inPosition_of_insert (h : c.BuiltFrom plan passes) (hp : p ∈ plan.pipelines)
    (hk : p.pass.kind = .insert) (hfirst : c.FirstRowsLead p.pass.table) : c.InPosition p := by
  obtain ⟨all, he, hsub⟩ := h.exists_inserted hp hk
  have hall : c.Follows p.pass.table all := (pairwise_leads he).imp_of_mem fun _ hy hlead =>
    hlead.recorded_le ((mem_columnOrder he).1 hy) hfirst
  exact (h.inPosition_iff hp).2 (hall.sublist hsub)

theorem columns_of_update (h : c.BuiltFrom plan passes) (hp : p ∈ plan.pipelines)
    (hk : p.pass.kind = .update) : p.columns = c.job.deferredColumns p.pass.table := by
  rw [h.columns_eq hp, (Job.eq_updatePass (h.mem_plan hp) hk).2]
  rfl

end BuiltFrom

/-- A pipeline with its lines is in the order of the recorded positions exactly if its columns are.
The columns of an insert pipeline come in the order of the least positions of their rows, and they
follow the recorded ones unless a column has a later row with a smaller position than its first.
The columns of an update pipeline are the deferred ones in the order in which the foreign keys list
them. -/
theorem columns_in_position {s s' : Session} (h : c.build.run.run s = (.ok plan, s')) :
    ∀ p ∈ plan.pipelines,
      (c.InPosition p ↔ c.Follows p.pass.table p.columns) ∧
      (p.pass.kind = .insert → p.columns.Pairwise (c.Leads p.pass.table) ∧
        (c.FirstRowsLead p.pass.table → c.InPosition p)) ∧
      (p.pass.kind = .update → p.columns = c.job.deferredColumns p.pass.table) := by
  obtain ⟨passes, hbuilt⟩ := builtFrom_of_build h
  intro p hp
  refine ⟨hbuilt.inPosition_iff hp, fun hk => ⟨?_, hbuilt.inPosition_of_insert hp hk⟩,
    hbuilt.columns_of_update hp⟩
  obtain ⟨all, he, hsub⟩ := hbuilt.exists_inserted hp hk
  exact (pairwise_leads he).sublist hsub

/-- Members of staff have a boss and a mentor.  The foreign keys are listed in the given order. -/
def mentored (keys : List String) : Context where
  id := ⟨"job", "run"⟩
  rows := [⟨"public", "staff", "id", { position := some 1 }⟩,
    ⟨"public", "staff", "boss", { position := some 2 }⟩,
    ⟨"public", "staff", "mentor", { position := some 3 }⟩]
  constraints := {
    foreignKeys := .ofList [("public.staff",
      keys.map fun k => ⟨[k], [false], "public.staff", ["id"], none⟩)]
    primaryKeys := .ofList [("public.staff", ["id"])] }
  mappings := [⟨"public", "staff", "id", none⟩,
    ⟨"public", "staff", "boss", some ⟨.generateNull, none⟩⟩,
    ⟨"public", "staff", "mentor", some ⟨.generateNull, none⟩⟩]

/-- The job of the staff. -/
def mentoredJob (keys : List String) : Job where
  foreignKeys := .ofList [("public.staff",
    keys.map fun k => ⟨[k], [false], "public.staff", ["id"], none⟩)]
  primaryKeys := .ofList [("public.staff", ["id"])]
  columns := .ofList [("public.staff", ["id", "boss", "mentor"])]

/-- The plan for the staff, whose update pass writes the columns in the order of the keys. -/
def mentoredPlan (keys : List String) : Plan where
  id := ⟨"job", "run"⟩
  pipelines := [
    { pass := (mentoredJob keys).insertPass "public.staff" ["id", "boss", "mentor"]
      stages := []
      arguments := insertArguments ["id"]
      columns := ["id"]
      whereColumns := [] },
    { pass := (mentoredJob keys).updatePass "public.staff"
      stages := [.mutation ("\n".intercalate (keys.map fun k => outputPath k ++ " = null"))]
      arguments := insertArguments (keys ++ ["id"])
      columns := keys
      whereColumns := ["id"] }]

theorem order_mentored {keys : List String}
    (h : (mentoredJob keys).order = .ok ((mentoredPlan keys).pipelines.map (·.pass))) :
    (mentored keys).order = .ok ((mentoredPlan keys).pipelines.map (·.pass),
      (mentored keys).deferred ((mentoredPlan keys).pipelines.map (·.pass))) := by
  have hrows : (mentored keys).rows.Pairwise fun a b => a.column.order ≤ b.column.order := by
    simp only [mentored]
    decide
  exact order_eq_of_pairwise hrows rfl rfl h

theorem columns_in_position_mentored :
    ((mentored ["boss", "mentor"]).build.run.run {}).1 = .ok (mentoredPlan ["boss", "mentor"]) ∧
      ∀ p ∈ (mentoredPlan ["boss", "mentor"]).pipelines,
        (mentored ["boss", "mentor"]).InPosition p := by
  have h : ((mentored ["boss", "mentor"]).build.run.run {}).1 =
      .ok (mentoredPlan ["boss", "mentor"]) := by
    rw [build_eq_of_order (order_mentored (by decide +kernel))]
    decide +kernel
  have hfirst : (mentored ["boss", "mentor"]).FirstRowsLead "public.staff" := by decide +kernel
  have hupdate : (mentored ["boss", "mentor"]).Follows "public.staff" ["boss", "mentor"] := by
    decide +kernel
  have hposition := columns_in_position (Prod.ext h rfl)
  refine ⟨h, fun p hp => ?_⟩
  obtain rfl | hp := List.mem_cons.1 hp
  · exact ((hposition _ List.mem_cons_self).2.1 rfl).2 hfirst
  · obtain rfl := List.mem_singleton.1 hp
    exact (hposition _ (List.mem_cons_of_mem _ List.mem_cons_self)).1.2 hupdate

/-- Staff whose ids are reported a second time, under a smaller position. -/
def reportedTwice : Context where
  id := ⟨"job", "run"⟩
  rows := [⟨"public", "staff", "id", { position := some 5 }⟩,
    ⟨"public", "staff", "name", { position := some 2 }⟩,
    ⟨"public", "staff", "id", { position := some 1 }⟩]
  constraints := {}
  mappings := [⟨"public", "staff", "id", none⟩, ⟨"public", "staff", "name", none⟩]

/-- The job of staff that is reported twice. -/
def reportedTwiceJob : Job where
  foreignKeys := .ofList [("public.staff", [])]
  primaryKeys := .empty
  columns := .ofList [("public.staff", ["id", "name"])]

theorem job_reportedTwice : reportedTwice.job = reportedTwiceJob := by
  have hsorted : reportedTwice.rows.mergeSort (fun a b => a.column.order ≤ b.column.order) =
      reportedTwice.rows.reverse := by
    simp [reportedTwice, List.mergeSort, List.MergeSort.Internal.splitInTwo, Column.order]
  have hcolumns : columnOrder reportedTwice.rows = .ofList [("public.staff", ["id", "name"])] := by
    have hrows : rowsByTable reportedTwice.rows =
        .ofList [("public.staff", reportedTwice.rows)] := rfl
    rw [columnOrder, hrows]
    refine Keyed.ext_entries ?_
    show [("public.staff", ((reportedTwice.rows.mergeSort _).map _).eraseDups)] = _
    rw [hsorted]
    rfl
  rw [job, hcolumns]
  rfl

/-- The plan for them, whose one pass writes the columns in the order of the least positions. -/
def reportedTwicePlan : Plan where
  id := ⟨"job", "run"⟩
  pipelines := [
    { pass := reportedTwiceJob.insertPass "public.staff" ["id", "name"]
      stages := []
      arguments := insertArguments ["id", "name"]
      columns := ["id", "name"]
      whereColumns := [] }]

theorem order_reportedTwice : reportedTwice.order = .ok (reportedTwicePlan.pipelines.map (·.pass),
    reportedTwice.deferred (reportedTwicePlan.pipelines.map (·.pass))) :=
  order_eq_ok_iff.2 ⟨Drift.validate_eq_ok_iff.1 rfl,
    job_reportedTwice.symm ▸ (by decide +kernel), rfl⟩

/-- Two foreign keys are listed with the later column first, and the update pass writes them so.  A
column is reported again with a smaller position, and the insert pass writes it there. -/
theorem columns_out_of_position :
    (¬ ∀ (c : Context) (plan : Plan) (s s' : Session), c.build.run.run s = (.ok plan, s') →
      ∀ p ∈ plan.pipelines, p.pass.kind = .update → c.InPosition p) ∧
    ¬ ∀ (c : Context) (plan : Plan) (s s' : Session), c.build.run.run s = (.ok plan, s') →
      ∀ p ∈ plan.pipelines, p.pass.kind = .insert → c.InPosition p := by
  constructor
  · intro hall
    have h : ((mentored ["mentor", "boss"]).build.run.run {}).1 =
        .ok (mentoredPlan ["mentor", "boss"]) := by
      rw [build_eq_of_order (order_mentored (by decide +kernel))]
      decide +kernel
    have hposition :=
      hall _ _ _ _ (Prod.ext h rfl) _ (List.mem_cons_of_mem _ List.mem_cons_self) rfl
    exact absurd hposition.columns (by decide +kernel)
  · intro hall
    have h : (reportedTwice.build.run.run {}).1 = .ok reportedTwicePlan := by
      rw [build_eq_of_order order_reportedTwice]
      decide +kernel
    have hposition := hall _ _ _ _ (Prod.ext h rfl) _ List.mem_cons_self rfl
    exact absurd hposition.columns (by decide +kernel)

end Context

end TransferPlan
