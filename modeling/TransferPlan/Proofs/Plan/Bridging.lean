import TransferPlan.Proofs.Compile.Bridge
import TransferPlan.Proofs.Plan.Content
import TransferPlan.Proofs.Reference

/-!
# Which columns take their values from the cache

A column takes its values from the cache once for each reference to it from another table by a
column that an update pass fills in, and a plan fails for want of a cache only if there is such a
column (`bridged_by_deferred_columns`).  What counts is the referencing column: the key that makes
the reference need not run in a circle itself, if its column belongs to another key that does
(`bridged_outside_circles`).
-/

namespace TransferPlan

/-- The branch reads what is cached under a key for the values of a column. -/
def Branch.Reads (b : Branch) (key column : String) : Prop :=
  b.reads.map (·.arguments) =
    ["root = [\"" ++ key ++ "\", json(" ++ Text.Quoted.encode column ++ ")]"]

/-! ## References by deferred columns -/

namespace Job

variable {j : Job} {line : List Pass} {r : Reference} {table column : String}

/-- A foreign key of another table references the column by one of its own that an update pass
fills in. -/
structure Bridges (j : Job) (table column : String) (r : Reference) : Prop where
  apart : r.table ≠ table
  paired : ∃ k, j.InJob r.table k ∧ k.target = table ∧
    (column, r.column) ∈ k.targetColumns.zip k.columns
  deferred : j.Defers r.table r.column

/-- Every foreign key that runs in a circle leads back to its own table. -/
def OnlySelfCircles (j : Job) : Prop := ∀ t k, j.Circular t k → k.target = t

/-- No column of an optional foreign key into its own table is a column of a foreign key into
another table. -/
def SelfColumnsApart (j : Job) : Prop :=
  ∀ t k k', j.InJob t k → k.target = t → ¬ k.Required → j.InJob t k' → k'.target ≠ t →
    k.columns.Disjoint k'.columns

theorem isDeferred_iff (h : j.order = .ok line) :
    ReferenceMap.isDeferred line r = true ↔ j.Defers r.table r.column := by
  simp only [ReferenceMap.isDeferred, List.any_eq_true, Bool.and_eq_true, beq_iff_eq,
    List.contains_iff_mem]
  constructor
  · rintro ⟨p, hp, ⟨hk, ht⟩, hw⟩
    exact ht ▸ (update_iff_defers h hp hw).1 hk
  · intro hd
    obtain ⟨k, hk, -⟩ := id hd
    have ht := hk.1.1.owner
    have hup := updatePass_mem_plan ht ((deferredOf_ne_nil_iff ht).2 ⟨k, hk⟩)
    exact ⟨_, (perm_of_order h).mem_iff.2 hup, ⟨rfl, rfl⟩, (mem_writes_updatePass ht).2 hd⟩

/-- If circles are of one table, and their columns are in no other key, no column is filled in that
references another table. -/
theorem not_bridges (hself : j.OnlySelfCircles) (hcolumns : j.SelfColumnsApart) :
    ¬ j.Bridges table column r := by
  rintro ⟨happart, ⟨k', hk', rfl, hpair⟩, k, hk, hmem⟩
  have hdisjoint := hcolumns r.table k k' hk.1.1 (hself r.table k hk.1) hk.2 hk' happart.symm
  exact hdisjoint hmem (List.of_mem_zip hpair).2

end Job

/-! ## Plans -/

namespace Context

variable {c : Context} {plan : Plan} {passes : List Pass} {p : Pipeline} {r : Reference}
  {t : String}

theorem mem_foreignKeys_iff {k : ForeignKey} :
    (∃ ks, (t, ks) ∈ c.job.foreignKeys.entries ∧ k ∈ ks) ↔
      t ∈ c.job.tables ∧ k ∈ (c.job.foreignKeys.get? t).getD [] := by
  have hkeys : c.job.foreignKeys.keys = c.job.tables := Keyed.keys_mapValues _ _
  constructor
  · rintro ⟨ks, he, hk⟩
    refine ⟨hkeys ▸ List.mem_map_of_mem he, ?_⟩
    rwa [Keyed.get?_eq_some_iff.2 he]
  · rintro ⟨ht, hk⟩
    obtain ⟨⟨_, ks⟩, he, rfl⟩ := List.mem_map.1 (hkeys ▸ ht)
    rw [Keyed.get?_eq_some_iff.2 he] at hk
    exact ⟨ks, he, hk⟩

theorem mem_bridges_iff {m : Mapping} (h : c.job.order = .ok passes)
    (ht : m.tableKey ∈ c.job.tables) :
    r ∈ m.bridges (((c.deferred passes).get? m.tableKey).getD .empty) ↔
      c.job.Bridges m.tableKey m.column r := by
  have hreferences : r ∈ m.bridges (((c.deferred passes).get? m.tableKey).getD .empty) ↔
      (r ∈ (ReferenceMap.ofForeignKeys c.job.foreignKeys).referencesTo m.tableKey m.column ∧
        ReferenceMap.isDeferred passes r = true) ∧ r.table ≠ m.tableKey := by
    rw [← List.mem_filter, ← ReferenceMap.referencesTo_deferred]
    exact List.mem_filter.trans (and_congr_right' bne_iff_ne)
  rw [hreferences, Job.isDeferred_iff h, ReferenceMap.referencesTo_ofForeignKeys]
  simp only [List.mem_flatMap, ForeignKey.mem_references_iff]
  constructor
  · rintro ⟨⟨⟨⟨_, ks⟩, he, k, hk, hname, htarget, rfl, hpair⟩, hd⟩, hne⟩
    obtain ⟨howner, howned⟩ := mem_foreignKeys_iff.1 ⟨ks, he, hk⟩
    obtain ⟨hx, hy⟩ := List.of_mem_zip hpair
    exact ⟨hne, ⟨k, ⟨howner, howned, hname, htarget ▸ ht, List.ne_nil_of_mem hy,
      List.ne_nil_of_mem hx⟩, htarget, hpair⟩, hd⟩
  · rintro ⟨hne, ⟨k, hk, htarget, hpair⟩, hd⟩
    obtain ⟨ks, he, hkk⟩ := mem_foreignKeys_iff.2 ⟨hk.owner, hk.owned⟩
    exact ⟨⟨⟨_, he, k, hkk, hk.named, htarget, rfl, hpair⟩, hd⟩, hne⟩

theorem tableKey_of_mem_selectMappings {m : Mapping} {written : List String}
    (hm : m ∈ selectMappings (c.mappingsOf t) written) : m.tableKey = t := by
  simpa using (List.mem_filter.1 (mem_of_mem_selectMappings hm)).2

/-- The selected mappings are those of the written columns that have one. -/
theorem mem_columns_selectMappings_iff {written : List String} {x : String} :
    x ∈ (selectMappings (c.mappingsOf t) written).map (·.column) ↔
      x ∈ written ∧ Drift.IsMapped c.mappings t x := by
  rw [map_column_selectMappings, List.mem_filter]
  refine and_congr_right fun _ => ?_
  simp [mappingsOf, Drift.IsMapped]

theorem BuiltFrom.branch_mem_iff (h : c.BuiltFrom plan passes) (hp : p ∈ plan.pipelines)
    (b : Branch) :
    .branch b ∈ p.stages ↔ ∃ config x r, c.cache = some config ∧ x ∈ p.columns ∧
      Drift.IsMapped c.mappings p.pass.table x ∧ c.job.Bridges p.pass.table x r ∧
      b = Branch.ofReference c.id config x r ∧ b.Reads (cacheKey c.id r.table r.column) x := by
  have ht : p.pass.table ∈ c.job.tables := Job.table_mem_of_mem_plan (h.mem_plan hp)
  have hbridges : ∀ {m r}, m ∈ selectMappings (c.mappingsOf p.pass.table) p.pass.writes →
      (r ∈ m.bridges (((c.deferred passes).get? p.pass.table).getD .empty) ↔
        c.job.Bridges p.pass.table m.column r) := fun {m r} hm => by
    have hmt := tableKey_of_mem_selectMappings hm
    rw [← hmt] at ht ⊢
    exact mem_bridges_iff h.order ht
  rw [Content.branch_mem_stages_iff, h.branches_eq hp, content, Content.mem_branches_iff,
    h.columns_eq hp]
  constructor
  · rintro ⟨config, hcache, m, hm, r, hr, rfl⟩
    obtain ⟨hw, hmapped⟩ := mem_columns_selectMappings_iff.1 (List.mem_map_of_mem hm)
    exact ⟨config, m.column, r, hcache, hw, hmapped, (hbridges hm).1 hr, rfl, rfl⟩
  · rintro ⟨config, x, r, hcache, hw, hmapped, hr, rfl, -⟩
    obtain ⟨m, hm, rfl⟩ := List.mem_map.1 (mem_columns_selectMappings_iff.2 ⟨hw, hmapped⟩)
    exact ⟨config, hcache, m, hm, r, (hbridges hm).2 hr, rfl⟩

/-! ## Failing for want of a cache -/

open Compile

/-- There is no cache, and the error names a column that takes its values from it. -/
def LacksCache (c : Context) (b : BridgeError) : Prop :=
  c.cache = none ∧ c.job.Bridges b.table b.column b.reference

theorem failsOnly_checkCancelled {P : BridgeError → Prop} (table : String) :
    FailsOnly (CompileError.IfBridge P) (c.checkCancelled table) := by
  refine (failsOnly_of_run_eq_ok fun s => ⟨s, s, rfl⟩).bind fun session _ _ _ => ?_
  refine (failsOnly_of_run_eq_ok fun s => ⟨_, _, rfl⟩).bind fun _ _ _ _ => ?_
  split_ifs
  · exact failsOnly_throw nofun
  · exact failsOnly_pure _

theorem failsOnly_pipeline {pass : Pass} (h : c.job.order = .ok passes) (hpass : pass ∈ passes) :
    FailsOnly (CompileError.IfBridge c.LacksCache)
      (c.pipeline c.schema (c.deferred passes) pass) := by
  have ht : pass.table ∈ c.job.tables :=
    Job.table_mem_of_mem_plan ((Job.perm_of_order h).subset hpass)
  have hstages : FailsOnly (CompileError.IfBridge c.LacksCache)
      (stages (c.mappingsOf pass.table) ((c.schema.get? pass.table).getD .empty)
        (((c.deferred passes).get? pass.table).getD .empty) pass c.id c.cache
        (c.lookup.map Resolver.remembering)) := by
    refine (failsOnly_stages c.lookup).mono fun e he b hb => ?_
    obtain ⟨hcache, m, hm, r, hr, rfl⟩ := he b hb
    have hmt := tableKey_of_mem_selectMappings hm
    rw [← hmt] at ht hr
    exact ⟨hcache, (mem_bridges_iff h ht).1 hr⟩
  exact (failsOnly_checkCancelled pass.table).bind fun _ _ _ _ =>
    hstages.bind fun _ _ _ _ => failsOnly_pure _

/-- Neither the check of the schema nor the order of the passes is about a cache. -/
theorem order_ne_bridge (c : Context) (b : BridgeError) : c.order ≠ .error (.bridge b) := by
  intro h
  rcases bind_eq_error_iff.1 h with h | ⟨_, -, h⟩
  · exact absurd h (mapError_ne_error nofun)
  rcases bind_eq_error_iff.1 h with h | ⟨_, -, h⟩
  · exact absurd h (mapError_ne_error nofun)
  · exact nomatch h

theorem failsOnly_build : FailsOnly (CompileError.IfBridge c.LacksCache) c.build := by
  unfold build
  cases horder : c.order with
  | error e =>
      refine failsOnly_throw ?_
      rintro b rfl
      exact absurd horder (c.order_ne_bridge b)
  | ok ordered =>
      obtain ⟨passes, deferred⟩ := ordered
      obtain ⟨-, hline, rfl⟩ := order_eq_ok_iff.1 horder
      exact (FailsOnly.mapM fun pass hpass => failsOnly_pipeline hline hpass).bind
        fun _ _ _ _ => failsOnly_pure _

/-! ## Columns from the cache -/

/-- The branches of a plan are those for the references by deferred columns of other tables, each
with a key of its own, and a compilation fails for want of a cache only if there is such a
reference.  If circles are of one table, and their columns are in no other key, there is none. -/
theorem bridged_by_deferred_columns (c : Context) (s : Session) :
    (∀ plan, (c.build.run.run s).1 = .ok plan → ∀ p ∈ plan.pipelines, ∀ b,
      .branch b ∈ p.stages ↔ ∃ config x r, c.cache = some config ∧ x ∈ p.columns ∧
        Drift.IsMapped c.mappings p.pass.table x ∧ c.job.Bridges p.pass.table x r ∧
        b = Branch.ofReference c.id config x r ∧ b.Reads (cacheKey c.id r.table r.column) x) ∧
    (∀ b, (c.build.run.run s).1 = .error (.bridge b) → c.LacksCache b) ∧
    (c.job.OnlySelfCircles → c.job.SelfColumnsApart →
      (∀ plan, (c.build.run.run s).1 = .ok plan → ∀ p ∈ plan.pipelines, ∀ b,
        .branch b ∉ p.stages) ∧
      ∀ b, (c.build.run.run s).1 ≠ .error (.bridge b)) := by
  have hbridge : ∀ b, (c.build.run.run s).1 = .error (.bridge b) → c.LacksCache b :=
    fun b hb => failsOnly_build s _ _ (Prod.ext hb rfl) b rfl
  refine ⟨fun plan hplan p hp b => ?_, hbridge, fun hself hcolumns =>
    ⟨fun plan hplan p hp b hb => ?_, fun b hb => ?_⟩⟩
  · obtain ⟨passes, hbuilt⟩ := builtFrom_of_build (Prod.ext hplan rfl)
    exact hbuilt.branch_mem_iff hp b
  · obtain ⟨passes, hbuilt⟩ := builtFrom_of_build (Prod.ext hplan rfl)
    obtain ⟨config, x, r, -, -, -, hr, -⟩ := (hbuilt.branch_mem_iff hp b).1 hb
    exact Job.not_bridges hself hcolumns hr
  · exact Job.not_bridges hself hcolumns (hbridge b hb).2

/-- Persons have a helper and members of staff a boss; both are found by their ids. -/
def firm (keys : Keyed (List ForeignKey)) (cache : Option CacheConfig) : Context where
  id := ⟨"job", "run"⟩
  rows := [⟨"public", "person", "id", {}⟩, ⟨"public", "person", "helper", {}⟩,
    ⟨"public", "staff", "id", {}⟩, ⟨"public", "staff", "boss", {}⟩]
  constraints := {
    foreignKeys := keys
    primaryKeys := .ofList [("public.person", ["id"]), ("public.staff", ["id"])] }
  mappings := [⟨"public", "person", "id", none⟩, ⟨"public", "person", "helper", none⟩,
    ⟨"public", "staff", "id", none⟩, ⟨"public", "staff", "boss", none⟩]
  cache

/-- The job of the firm. -/
def firmJob (keys : Keyed (List ForeignKey)) : Job where
  foreignKeys := .ofList [("public.person", (keys.get? "public.person").getD []),
    ("public.staff", (keys.get? "public.staff").getD [])]
  primaryKeys := .ofList [("public.person", ["id"]), ("public.staff", ["id"])]
  columns := .ofList [("public.person", ["id", "helper"]), ("public.staff", ["id", "boss"])]

section Firm

variable {keys : Keyed (List ForeignKey)} {cache : Option CacheConfig}

theorem job_firm : (firm keys cache).job = firmJob keys := by
  have hrows : (firm keys cache).rows.Pairwise fun a b => a.column.order ≤ b.column.order := by
    simp [firm]
  exact job_eq_of_pairwise hrows

theorem order_firm (h : (firmJob keys).order = .ok passes) :
    (firm keys cache).order = .ok (passes, (firm keys cache).deferred passes) :=
  order_eq_ok_iff.2 ⟨Drift.validate_eq_ok_iff.1 rfl, job_firm ▸ h, rfl⟩

end Firm

/-- The helper of a person is a member of staff, whose boss is a person. -/
def helpers : Keyed (List ForeignKey) :=
  .ofList [("public.person", [⟨["helper"], [true], "public.staff", ["id"], none⟩]),
    ("public.staff", [⟨["boss"], [false], "public.person", ["id"], none⟩])]

/-- The boss of a member of staff is one, too. -/
def bosses : Keyed (List ForeignKey) :=
  .ofList [("public.staff", [⟨["boss"], [false], "public.staff", ["id"], none⟩])]

def redis : CacheConfig := { url := "redis" }

def helpersPlan : Plan where
  id := ⟨"job", "run"⟩
  pipelines := [
    { pass := (firmJob helpers).insertPass "public.staff" ["id", "boss"]
      stages := []
      arguments := insertArguments ["id"]
      columns := ["id"]
      whereColumns := [] },
    { pass := (firmJob helpers).insertPass "public.person" ["id", "helper"]
      stages := [.branch (.ofReference ⟨"job", "run"⟩ redis "id" ⟨"public.staff", "boss"⟩)]
      arguments := insertArguments ["id", "helper"]
      columns := ["id", "helper"]
      whereColumns := [] },
    { pass := (firmJob helpers).updatePass "public.staff"
      stages := []
      arguments := insertArguments ["boss", "id"]
      columns := ["boss"]
      whereColumns := ["id"] }]

theorem bridged_by_deferred_columns_firm :
    ((firm helpers (some redis)).build.run.run {}).1 = .ok helpersPlan ∧
      (∀ p ∈ helpersPlan.pipelines, ∀ b, .branch b ∈ p.stages →
        ∃ x r, (firm helpers (some redis)).job.Bridges p.pass.table x r ∧
          b.Reads (cacheKey ⟨"job", "run"⟩ r.table r.column) x) ∧
      (firm bosses none).job.OnlySelfCircles ∧ (firm bosses none).job.SelfColumnsApart ∧
      ∀ b, ((firm bosses none).build.run.run {}).1 ≠ .error (.bridge b) := by
  have horder : (firmJob helpers).order = .ok (helpersPlan.pipelines.map (·.pass)) := by
    decide +kernel
  have hplan : ((firm helpers (some redis)).build.run.run {}).1 = .ok helpersPlan := by
    rw [build_eq_of_order (order_firm horder)]
    decide +kernel
  have hkeys : ∀ t k, (firmJob bosses).InJob t k → k.target = t := by
    have hall : ∀ t ∈ (firmJob bosses).tables,
        ∀ k ∈ ((firmJob bosses).foreignKeys.get? t).getD [], k.target = t := by decide
    exact fun t k hk => hall t hk.owner k hk.owned
  have hself : (firm bosses none).job.OnlySelfCircles := by
    rw [job_firm]
    exact fun t k hk => hkeys t k hk.1
  have hcolumns : (firm bosses none).job.SelfColumnsApart := by
    rw [job_firm]
    exact fun t k k' _ _ _ hk' hne => absurd (hkeys t k' hk') hne
  refine ⟨hplan, fun p hp b hb => ?_, hself, hcolumns,
    ((bridged_by_deferred_columns (firm bosses none) {}).2.2 hself hcolumns).2⟩
  obtain ⟨config, x, r, -, -, -, hr, -, hreads⟩ :=
    ((bridged_by_deferred_columns (firm helpers (some redis)) {}).1 _ hplan p hp b).1 hb
  exact ⟨x, r, hr, hreads⟩

/-- The boss of a member of staff is a member of staff and a person. -/
def personalBosses : Keyed (List ForeignKey) :=
  .ofList [("public.staff", [⟨["boss"], [false], "public.staff", ["id"], none⟩,
    ⟨["boss"], [false], "public.person", ["id"], none⟩])]

def personalBossesPlan : Plan where
  id := ⟨"job", "run"⟩
  pipelines := [
    { pass := (firmJob personalBosses).insertPass "public.person" ["id", "helper"]
      stages := [.branch (.ofReference ⟨"job", "run"⟩ redis "id" ⟨"public.staff", "boss"⟩)]
      arguments := insertArguments ["id", "helper"]
      columns := ["id", "helper"]
      whereColumns := [] },
    { pass := (firmJob personalBosses).insertPass "public.staff" ["id", "boss"]
      stages := []
      arguments := insertArguments ["id"]
      columns := ["id"]
      whereColumns := [] },
    { pass := (firmJob personalBosses).updatePass "public.staff"
      stages := []
      arguments := insertArguments ["boss", "id"]
      columns := ["boss"]
      whereColumns := ["id"] }]

/-- No foreign key leads away from a person. -/
theorem eq_of_reaches_person {t : String}
    (h : (firmJob personalBosses).Reaches "public.person" t) : t = "public.person" := by
  have hkeys : ((firmJob personalBosses).foreignKeys.get? "public.person").getD [] = [] := by
    decide
  obtain rfl | ⟨_, ⟨k, hk, -⟩, -⟩ := Relation.ReflTransGen.cases_head h
  · rfl
  · exact absurd hk.owned (hkeys ▸ List.not_mem_nil)

/-- The bosses are filled in because members of staff reference each other.  They reference persons
as well, so a person takes the id from the cache, though no circle leads through the persons. -/
theorem bridged_outside_circles :
    (¬ ∀ (c : Context) (plan : Plan) (s s' : Session), c.build.run.run s = (.ok plan, s') →
      ∀ p ∈ plan.pipelines, ∀ b, .branch b ∈ p.stages → ∃ config x t y k,
        c.job.InJob t k ∧ t ≠ p.pass.table ∧ k.target = p.pass.table ∧
        (x, y) ∈ k.targetColumns.zip k.columns ∧ ¬ k.Required ∧ c.job.Reaches p.pass.table t ∧
        b = Branch.ofReference c.id config x ⟨t, y⟩) ∧
    ¬ ∀ (c : Context) (s : Session), c.job.OnlySelfCircles →
      ∀ b, (c.build.run.run s).1 ≠ .error (.bridge b) := by
  have horder : (firmJob personalBosses).order =
      .ok (personalBossesPlan.pipelines.map (·.pass)) := by
    decide +kernel
  constructor
  · intro hall
    have hplan : ((firm personalBosses (some redis)).build.run.run {}).1 =
        .ok personalBossesPlan := by
      rw [build_eq_of_order (order_firm horder)]
      decide +kernel
    obtain ⟨-, -, t, -, k, -, hne, -, -, -, hreaches, -⟩ := hall _ _ _ _ (Prod.ext hplan rfl) _
      List.mem_cons_self _ List.mem_cons_self
    rw [job_firm] at hreaches
    exact hne (eq_of_reaches_person hreaches)
  · intro hall
    refine hall (firm personalBosses none) {} (fun t k hk => ?_)
      ⟨"public.person", "id", ⟨"public.staff", "boss"⟩⟩ ?_
    · rw [job_firm] at hk
      have hkeys : ∀ t ∈ (firmJob personalBosses).tables,
          ∀ k ∈ ((firmJob personalBosses).foreignKeys.get? t).getD [],
            k.target = t ∨ t ≠ "public.person" ∧ k.target = "public.person" := by
        decide
      rcases hkeys t hk.1.owner k hk.1.owned with ht | ⟨hne, hperson⟩
      · exact ht
      · exact absurd (eq_of_reaches_person (hperson ▸ hk.2)) hne
    · rw [build_eq_of_order (order_firm horder)]
      decide +kernel

end Context

end TransferPlan
