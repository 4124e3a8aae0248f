import TransferPlan.Proofs.Compile.Arguments
import TransferPlan.Proofs.Plan.Build

/-!
# What the arguments of a pipeline bind

An update pipeline finds its rows by the primary key of the table, which an earlier insert pipeline
has written and no update pipeline changes.  So no column is written and used to find the row, and
the arguments can be read back as the columns that they bind (`binds_safely`).
-/

namespace TransferPlan

namespace Context

variable {c : Context} {plan : Plan} {passes : List Pass} {p : Pipeline}

/-- The columns that a pipeline writes and those that find the row, when `done` are the pipelines
in front of it. -/
structure BindsSafely (c : Context) (plan : Plan) (done : List Pipeline) (p : Pipeline) :
    Prop where
  nodup : (p.columns ++ p.whereColumns).Nodup
  where_ne_nil_iff : p.whereColumns ≠ [] ↔ p.pass.kind = .update
  where_eq : p.pass.kind = .update →
    p.whereColumns = ((c.constraints.primaryKeys.get? p.pass.table).getD []).eraseDups
  inserted_before : ∀ x ∈ p.whereColumns, ∃ q ∈ done,
    q.pass.table = p.pass.table ∧ q.pass.kind = .insert ∧ x ∈ q.columns
  not_updated : ∀ x ∈ p.whereColumns, ∀ q ∈ plan.pipelines,
    q.pass.table = p.pass.table → q.pass.kind = .update → x ∉ q.columns
  arguments : readArguments p.arguments = some (p.columns ++ p.whereColumns)

namespace BuiltFrom

theorem nodup_columns (h : c.BuiltFrom plan passes) (hp : p ∈ plan.pipelines) : p.columns.Nodup :=
  h.columns_eq hp ▸ Job.nodup_writes (h.mem_plan hp)

theorem where_of_insert (h : c.BuiltFrom plan passes) (hp : p ∈ plan.pipelines)
    (hk : p.pass.kind = .insert) : p.whereColumns = [] := by
  rw [(h.isPipelineOf hp).whereColumns, if_neg (by simp [hk])]

theorem where_of_update (h : c.BuiltFrom plan passes) (hp : p ∈ plan.pipelines)
    (hk : p.pass.kind = .update) : p.whereColumns = c.job.keyOf p.pass.table := by
  rw [(h.isPipelineOf hp).whereColumns, if_pos hk, (Job.eq_updatePass (h.mem_plan hp) hk).2]
  rfl

theorem exists_deferrable (h : c.BuiltFrom plan passes) (hp : p ∈ plan.pipelines)
    (hk : p.pass.kind = .update) : ∃ k, c.job.Deferrable p.pass.table k :=
  (Job.deferredOf_ne_nil_iff (Job.table_mem_of_mem_plan (h.mem_plan hp))).1
    (Job.eq_updatePass (h.mem_plan hp) hk).1

/-- No update pipeline writes a column of the primary key. -/
theorem not_mem_columns_of_mem_keyOf (h : c.BuiltFrom plan passes) (hp : p ∈ plan.pipelines)
    (hk : p.pass.kind = .update) {x : String} (hx : x ∈ c.job.keyOf p.pass.table) :
    x ∉ p.columns := by
  intro hw
  rw [h.columns_eq hp] at hw
  exact Job.not_defers_of_mem_keyOf h.order (Job.table_mem_of_mem_plan (h.mem_plan hp))
    (h.exists_deferrable hp hk) hx ((Job.update_iff_defers h.order (h.pass_mem hp) hw).1 hk)

/-- The insert pipeline of a table stands in front of its update pipeline and writes the primary
key. -/
theorem exists_insert_of_mem_keyOf {done rest : List Pipeline} (h : c.BuiltFrom plan passes)
    (hl : plan.pipelines = done ++ p :: rest) (hk : p.pass.kind = .update) {x : String}
    (hx : x ∈ c.job.keyOf p.pass.table) :
    ∃ q ∈ done, q.pass.table = p.pass.table ∧ q.pass.kind = .insert ∧ x ∈ q.columns := by
  have hp : p ∈ plan.pipelines := hl ▸ List.mem_append_right _ List.mem_cons_self
  have hpass := (Job.eq_updatePass (h.mem_plan hp) hk).2
  have hline : passes =
      done.map (·.pass) ++ c.job.updatePass p.pass.table :: rest.map (·.pass) := by
    rw [← h.map_pass, hl, List.map_append, List.map_cons, ← hpass]
  obtain ⟨all, he⟩ := Job.exists_columns (Job.table_mem_of_mem_plan (h.mem_plan hp))
  have hins := Job.insertPass_mem_of_before (Job.perm_of_order h.order)
    (Job.ordered_of_order h.order) hline he
  obtain ⟨q, hq, hqpass⟩ := List.mem_map.1 hins
  refine ⟨q, hq, hqpass ▸ rfl, hqpass ▸ rfl, ?_⟩
  rw [h.columns_eq (hl ▸ List.mem_append_left _ hq), hqpass]
  exact Job.mem_writes_insertPass_of_mem_keyOf h.order hline he hx

theorem bindsSafely {done rest : List Pipeline} (h : c.BuiltFrom plan passes)
    (hl : plan.pipelines = done ++ p :: rest) : c.BindsSafely plan done p := by
  have hp : p ∈ plan.pipelines := hl ▸ List.mem_append_right _ List.mem_cons_self
  have hargs : readArguments p.arguments = some (p.columns ++ p.whereColumns) := by
    rw [(h.isPipelineOf hp).arguments, readArguments_insertArguments]
  cases hk : p.pass.kind with
  | insert =>
      have hwhere := h.where_of_insert hp hk
      exact {
        nodup := by simpa [hwhere] using h.nodup_columns hp
        where_ne_nil_iff := by simp [hwhere, hk]
        where_eq := fun hu => nomatch hk.symm.trans hu
        inserted_before := by simp [hwhere]
        not_updated := by simp [hwhere]
        arguments := hargs }
  | update =>
      have hwhere := h.where_of_update hp hk
      have hkey : c.job.keyOf p.pass.table ≠ [] :=
        ((Job.order_eq_ok_iff.1 h.order).1 _ (Job.table_mem_of_mem_plan (h.mem_plan hp))).key_ne_nil
          (Job.eq_updatePass (h.mem_plan hp) hk).1
      refine {
        nodup := ?_
        where_ne_nil_iff := iff_of_true (hwhere ▸ hkey) hk
        where_eq := fun _ => hwhere
        inserted_before := fun x hx => h.exists_insert_of_mem_keyOf hl hk (hwhere ▸ hx)
        not_updated := fun x hx q hq hqt hqk =>
          h.not_mem_columns_of_mem_keyOf hq hqk (hqt ▸ hwhere ▸ hx)
        arguments := hargs }
      rw [hwhere]
      refine List.nodup_append.2 ⟨h.nodup_columns hp, nodup_eraseDups _, ?_⟩
      rintro x hw _ hx rfl
      exact h.not_mem_columns_of_mem_keyOf hp hk hx hw

end BuiltFrom

/-- The arguments of each pipeline of a plan bind its columns safely. -/
theorem binds_safely {s s' : Session} (h : c.build.run.run s = (.ok plan, s')) :
    ∀ done p rest, plan.pipelines = done ++ p :: rest → c.BindsSafely plan done p := by
  obtain ⟨passes, hbuilt⟩ := builtFrom_of_build h
  exact fun _ _ _ => hbuilt.bindsSafely

/-- Folders with a path, and the path of the folder that they lie in.  The names of the columns
hold quotes and commas. -/
def folders : Context where
  id := ⟨"job", "run"⟩
  rows := [⟨"", "folder", "the \"path\"", {}⟩, ⟨"", "folder", "in, \\", {}⟩]
  constraints := {
    foreignKeys := .ofList [("folder", [⟨["in, \\"], [false], "folder", ["the \"path\""], none⟩])]
    primaryKeys := .ofList [("folder", ["the \"path\"", "the \"path\""])] }
  mappings := [⟨"", "folder", "the \"path\"", none⟩, ⟨"", "folder", "in, \\", none⟩]

def folderJob : Job where
  foreignKeys := .ofList [("folder", [⟨["in, \\"], [false], "folder", ["the \"path\""], none⟩])]
  primaryKeys := .ofList [("folder", ["the \"path\"", "the \"path\""])]
  columns := .ofList [("folder", ["the \"path\"", "in, \\"])]

def folderInsert : Pipeline where
  pass := folderJob.insertPass "folder" ["the \"path\"", "in, \\"]
  stages := []
  arguments := "root = [this.\"the \\\"path\\\"\"]"
  columns := ["the \"path\""]
  whereColumns := []

def folderUpdate : Pipeline where
  pass := folderJob.updatePass "folder"
  stages := []
  arguments := "root = [this.\"in, \\\\\", this.\"the \\\"path\\\"\"]"
  columns := ["in, \\"]
  whereColumns := ["the \"path\""]

theorem binds_safely_folders :
    let plan : Plan := ⟨⟨"job", "run"⟩, [folderInsert, folderUpdate]⟩
    (folders.build.run.run {}).1 = .ok plan ∧
      folders.BindsSafely plan [folderInsert] folderUpdate := by
  intro plan
  have hrows : folders.rows.Pairwise fun a b => a.column.order ≤ b.column.order :=
    List.pairwise_pair.2 (Int.le_refl _)
  have hline : folderJob.order = .ok [folderInsert.pass, folderUpdate.pass] := by decide +kernel
  have horder : folders.order = .ok ([folderInsert.pass, folderUpdate.pass],
      folders.deferred [folderInsert.pass, folderUpdate.pass]) :=
    order_eq_of_pairwise hrows rfl rfl hline
  have h : (folders.build.run.run {}).1 = .ok plan := by
    rw [build_eq_of_order horder]
    decide +kernel
  exact ⟨h, binds_safely (Prod.ext h rfl) [folderInsert] folderUpdate [] rfl⟩

end Context

end TransferPlan
