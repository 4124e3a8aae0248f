import TransferPlan.Proofs.Plan.Build

/-!
# Which columns a plan writes

The pipelines of a plan are over the mapped tables.  Each live column of these, which is to say
each mapped column, is written by one pipeline, and so is each column that the constraints report
for a deferrable key; nothing else is written (`columns_written`).  The columns of foreign keys are
not compared with the live schema, so an update pass may write one that is not there
(`unmapped_column_written`).
-/

namespace TransferPlan

/-- The pipelines over a table that write a column. -/
def Plan.writing (plan : Plan) (t x : String) : List Pipeline :=
  plan.pipelines.filter fun p => p.pass.table == t && p.columns.contains x

namespace Context

variable {c : Context} {plan : Plan} {passes : List Pass} {t x : String} {all : List String}

/-- How a plan writes a mapped table. -/
structure Covers (c : Context) (plan : Plan) (t : String) : Prop where
  live_iff : ∀ x, x ∈ Drift.liveColumns c.schema t ↔ Drift.IsMapped c.mappings t x
  written_once : ∀ x, x ∈ Drift.liveColumns c.schema t ∨ c.job.Defers t x →
    ∃ p, plan.writing t x = [p]
  written : ∀ p ∈ plan.pipelines, p.pass.table = t → ∀ x ∈ p.columns,
    x ∈ Drift.liveColumns c.schema t ∨ p.pass.kind = .update ∧ c.job.Defers t x
  nodup : ∀ p ∈ plan.pipelines, p.pass.table = t → p.columns.Nodup

namespace BuiltFrom

theorem map_writing (h : c.BuiltFrom plan passes) (t x : String) :
    (plan.writing t x).map (·.pass) = Pass.writing passes t x := by
  rw [Pass.writing, ← h.map_pass, List.filter_map, Plan.writing]
  exact congrArg _ (List.filter_congr fun p hp => by simp [h.columns_eq hp])

/-- The passes over a mapped table write its live columns and its deferred columns. -/
theorem exists_writes_iff (h : c.BuiltFrom plan passes)
    (hmapped : ∃ m ∈ c.mappings, m.tableKey = t) :
    (∃ q ∈ passes, q.table = t ∧ x ∈ q.writes) ↔
      x ∈ Drift.liveColumns c.schema t ∨ c.job.Defers t x := by
  obtain ⟨all, he⟩ := Job.exists_columns ((mem_tables_iff_of_agrees h.agrees).2 hmapped)
  rw [Job.exists_writes_iff h.order he, mem_columns he]

/-- There is a pipeline over a table if the table is mapped. -/
theorem exists_over_iff (h : c.BuiltFrom plan passes) :
    (∃ p ∈ plan.pipelines, p.pass.table = t) ↔ ∃ m ∈ c.mappings, m.tableKey = t := by
  have hperm := Job.perm_of_order h.order
  rw [← mem_tables_iff_of_agrees h.agrees]
  constructor
  · rintro ⟨p, hp, rfl⟩
    exact Job.table_mem_of_mem_plan (hperm.subset (h.pass_mem hp))
  · intro ht
    obtain ⟨all, he⟩ := Job.exists_columns ht
    have hins : c.job.insertPass t all ∈ plan.pipelines.map (·.pass) :=
      h.map_pass ▸ hperm.mem_iff.2 (Job.insertPass_mem_plan he)
    obtain ⟨p, hp, hpass⟩ := List.mem_map.1 hins
    exact ⟨p, hp, congrArg Pass.table hpass⟩

theorem covers (h : c.BuiltFrom plan passes) (hmapped : ∃ m ∈ c.mappings, m.tableKey = t) :
    c.Covers plan t where
  live_iff := by
    obtain ⟨m, hm, rfl⟩ := hmapped
    exact h.agrees m hm
  written_once x hx := by
    obtain ⟨q, hq, rfl, hqw⟩ := (h.exists_writes_iff hmapped).2 hx
    have hone := Job.writing_eq h.order hq hqw
    rw [← h.map_writing, List.map_eq_singleton_iff] at hone
    obtain ⟨p, hp, -⟩ := hone
    exact ⟨p, hp⟩
  written p hp hpt x hx := by
    rw [h.columns_eq hp] at hx
    refine ((h.exists_writes_iff hmapped).1 ⟨p.pass, h.pass_mem hp, hpt, hx⟩).imp_right fun hd => ?_
    exact ⟨(Job.update_iff_defers h.order (h.pass_mem hp) hx).2 (hpt ▸ hd), hd⟩
  nodup p hp _ := by
    rw [h.columns_eq hp]
    exact Job.nodup_writes ((Job.perm_of_order h.order).subset (h.pass_mem hp))

end BuiltFrom

/-- A plan is over the mapped tables, and covers each of them. -/
theorem columns_written {s s' : Session} (h : c.build.run.run s = (.ok plan, s')) :
    (∀ t, (∃ p ∈ plan.pipelines, p.pass.table = t) ↔ ∃ m ∈ c.mappings, m.tableKey = t) ∧
      ∀ t, (∃ m ∈ c.mappings, m.tableKey = t) → c.Covers plan t := by
  obtain ⟨passes, hbuilt⟩ := builtFrom_of_build h
  exact ⟨fun _ => hbuilt.exists_over_iff, fun _ => hbuilt.covers⟩

/-- Members of staff have a boss, who is entered in the given column. -/
def staff (column : String) : Context where
  id := ⟨"job", "run"⟩
  rows := [⟨"public", "staff", "id", {}⟩, ⟨"public", "staff", "boss", {}⟩]
  constraints := {
    foreignKeys := .ofList [("public.staff", [⟨[column], [false], "public.staff", ["id"], none⟩])]
    primaryKeys := .ofList [("public.staff", ["id"])] }
  mappings := [⟨"public", "staff", "id", none⟩, ⟨"public", "staff", "boss", none⟩]

/-- The job of the staff. -/
def staffJob (column : String) : Job where
  foreignKeys := .ofList [("public.staff", [⟨[column], [false], "public.staff", ["id"], none⟩])]
  primaryKeys := .ofList [("public.staff", ["id"])]
  columns := .ofList [("public.staff", ["id", "boss"])]

def staffPasses (column : String) : List Pass :=
  [(staffJob column).insertPass "public.staff" ["id", "boss"],
    (staffJob column).updatePass "public.staff"]

/-- The plan for the staff, whose insert pass writes the given columns. -/
def staffPlan (column : String) (inserted : List String) : Plan where
  id := ⟨"job", "run"⟩
  pipelines := [
    { pass := (staffJob column).insertPass "public.staff" ["id", "boss"]
      stages := []
      arguments := insertArguments inserted
      columns := inserted
      whereColumns := [] },
    { pass := (staffJob column).updatePass "public.staff"
      stages := []
      arguments := insertArguments [column, "id"]
      columns := [column]
      whereColumns := ["id"] }]

theorem order_staff {column : String}
    (h : (staffJob column).order = .ok (staffPasses column)) :
    (staff column).order =
      .ok (staffPasses column, (staff column).deferred (staffPasses column)) := by
  have hrows : (staff column).rows.Pairwise fun a b => a.column.order ≤ b.column.order :=
    List.pairwise_pair.2 (Int.le_refl _)
  exact order_eq_of_pairwise hrows rfl rfl h

theorem columns_written_staff :
    ((staff "boss").build.run.run {}).1 = .ok (staffPlan "boss" ["id"]) ∧
      (staff "boss").Covers (staffPlan "boss" ["id"]) "public.staff" := by
  have h : ((staff "boss").build.run.run {}).1 = .ok (staffPlan "boss" ["id"]) := by
    rw [build_eq_of_order (order_staff (by decide +kernel))]
    decide +kernel
  exact ⟨h, (columns_written (Prod.ext h rfl)).2 _ (by decide)⟩

/-- The constraints report a key of the staff with a column that is neither live nor mapped, and
the update pass writes it. -/
theorem unmapped_column_written :
    ¬ ∀ (c : Context) (plan : Plan) (s s' : Session), c.build.run.run s = (.ok plan, s') →
      ∀ p ∈ plan.pipelines, ∀ x ∈ p.columns, x ∈ Drift.liveColumns c.schema p.pass.table ∧
        Drift.IsMapped c.mappings p.pass.table x := by
  intro hall
  have h : ((staff "chief").build.run.run {}).1 = .ok (staffPlan "chief" ["id", "boss"]) := by
    rw [build_eq_of_order (order_staff (by decide +kernel))]
    decide +kernel
  obtain ⟨-, hmapped⟩ := hall (staff "chief") _ _ _ (Prod.ext h rfl) _
    (List.mem_cons_of_mem _ List.mem_cons_self) "chief" List.mem_cons_self
  exact absurd hmapped (by decide)

end Context

end TransferPlan
