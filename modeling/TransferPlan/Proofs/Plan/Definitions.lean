import TransferPlan.Proofs.Compile.Definitions
import TransferPlan.Proofs.Plan.Columns
import TransferPlan.Proofs.Plan.Places

/-!
# Plans with definitions

A plan whose mappings refer to definitions is the plan of the mappings that carry the definitions
directly.  However the lookup answers, each id is asked for at most once, so that a plan compiles it
in one way (`definitions_compile_directly`).
-/

namespace TransferPlan

namespace Context

variable {c : Context} {lookup : Lookup}

/-- The context in which each mapping carries the answer for its id, and nothing is looked up. -/
def direct (c : Context) (answers : Answers) : Context :=
  { c.remapped (c.mappings.map (·.direct answers)) with lookup := none }

/-- The mappings of the written columns, pass by pass in the order of the passes. -/
def usedMappings (c : Context) : List Mapping :=
  match c.order with
  | .error _ => []
  | .ok (passes, _) => passes.flatMap fun p => selectMappings (c.mappingsOf p.table) p.writes

/-- The ids that the mappings of the written columns refer to, in the order of their uses. -/
def references (c : Context) : List String :=
  c.usedMappings.filterMap Mapping.definitionId?

theorem map_place_direct (answers : Answers) :
    (c.direct answers).mappings.map Mapping.place = c.mappings.map Mapping.place := by
  refine List.map_map.trans (List.map_congr_left fun m _ => ?_)
  exact Prod.ext (Mapping.tableKey_direct answers m) (Mapping.column_direct answers m)

theorem order_direct (answers : Answers) : (c.direct answers).order = c.order :=
  order_of_place_eq (c := c) (map_place_direct answers)

theorem mappingsOf_direct (answers : Answers) (t : String) :
    (c.direct answers).mappingsOf t = (c.mappingsOf t).map (·.direct answers) := by
  refine List.filter_map.trans (congrArg _ (List.filter_congr fun m _ => ?_))
  rw [Function.comp_apply, Mapping.tableKey_direct]

theorem run_checkCancelled (table : String) (s : Session) :
    (c.checkCancelled table).run.run s =
      (if c.cancelled s.checks then .error (.cancelled table) else .ok (),
        { s with checks := s.checks + 1 }) := by
  refine (Compile.run_bind_of_ok (x := get) rfl).trans ?_
  refine (Compile.run_bind_of_ok (x := set _) rfl).trans ?_
  cases c.cancelled s.checks <;> rfl

/-- Looking whether the compilation is cancelled uses no mapping. -/
theorem follows_checkCancelled (table : String) :
    Follows lookup [] (fun _ => c.checkCancelled table) (c.checkCancelled table) := by
  intro s
  rw [run_checkCancelled]
  refine .same [] [] rfl (fun _ _ => rfl) (.nil rfl rfl) fun _ _ t ht =>
    ⟨{ t with checks := t.checks + 1 }, ?_, congrArg (· + 1) ht⟩
  rw [run_checkCancelled, ht]

theorem follows_pipeline (hlookup : c.lookup = some lookup) (schema : LiveSchema)
    (deferred : ReferenceMap) (pass : Pass) :
    Follows lookup (selectMappings (c.mappingsOf pass.table) pass.writes)
      (fun answers => (c.direct answers).pipeline schema deferred pass)
      (c.pipeline schema deferred pass) := by
  have hstages : Follows lookup _ _ _ := follows_stages (c.mappingsOf pass.table)
    ((schema.get? pass.table).getD .empty) ((deferred.get? pass.table).getD .empty) pass c.id
    c.cache
  simp only [pipeline, compilePass, mappingsOf_direct, hlookup]
  exact (c.follows_checkCancelled pass.table).bind fun _ => hstages.bind_of_run_eq fun _ _ => rfl

theorem follows_build (hlookup : c.lookup = some lookup) :
    Follows lookup c.usedMappings (fun answers => (c.direct answers).build) c.build := by
  simp only [build, order_direct, usedMappings]
  cases c.order with
  | error e => exact follows_of_run_eq fun _ => rfl
  | ok ordered =>
      have hpipelines := Follows.mapM (l := ordered.1) fun pass _ =>
        follows_pipeline hlookup c.schema ordered.2 pass
      exact hpipelines.bind_of_run_eq (f := fun pipelines => pure (Plan.mk c.id pipelines))
        fun _ _ => rfl

theorem mem_mappings_of_mem_usedMappings {m : Mapping} (h : m ∈ c.usedMappings) :
    m ∈ c.mappings := by
  unfold usedMappings at h
  split at h
  · exact nomatch h
  · obtain ⟨p, -, hm⟩ := List.mem_flatMap.1 h
    obtain ⟨x, -, hx⟩ := List.mem_filterMap.1 hm
    exact (List.mem_filter.1 (List.mem_reverse.1 (List.mem_of_find?_eq_some hx))).1

/-- If the lookup has one answer for each id in use, a build gives what it gives for the context in
which the mappings carry the answers.  However the lookup answers, each id is asked for at most
once, in the order of the first uses, and an answer that leads to another definition is an error;
the plan is that of the answers that were given. -/
theorem definitions_compile_directly (hlookup : c.lookup = some lookup) (s : Session) :
    (∀ answers : Answers, answers.Extend s.known →
      (∀ m ∈ c.usedMappings, m.Refers → m.AnsweredBy lookup answers) →
        (c.build.run.run s).1 = ((c.direct answers).build.run.run s).1) ∧
    (∃ asked, (c.build.run.run s).2.asked = s.asked ++ asked ∧
      AsksOnce lookup c.references s (c.build.run.run s).1 asked) ∧
    ∀ plan, (c.build.run.run s).1 = .ok plan →
      (c.build.run.run s).2.asked = s.asked ++ firstUses s.known c.references ∧
      ∃ answers : Answers, answers.Extend s.known ∧
        (∀ front id back, firstUses s.known c.references = front ++ id :: back →
          ∃ d, lookup (s.asked ++ front) id = .ok d ∧ d.transformer = answers id) ∧
        (∀ id ∈ c.references, (answers id).source ≠ .userDefined) ∧
        ((c.direct answers).build.run.run s).1 = .ok plan := by
  have hbuild := follows_build hlookup s
  refine ⟨fun answers hs hans => hbuild.agrees hans hs, hbuild.exists_asksOnce,
    fun plan hplan => ?_⟩
  have hrun : c.build.run.run s = (.ok plan, (c.build.run.run s).2) := Prod.ext hplan rfl
  rw [hrun] at hbuild
  exact hbuild.exists_answers

/-- The ids and the bosses of the staff are masked by one definition. -/
def maskedStaff (lookup : Lookup) : Context :=
  { (staff "boss").remapped [⟨"public", "staff", "id", some (.reference "mask")⟩,
      ⟨"public", "staff", "boss", some (.reference "mask")⟩] with
    lookup := some lookup }

/-- Every id leads to social security numbers. -/
def ssnLookup : Lookup := fun _ id =>
  .ok { id, source := .generateSsn, config := some .generateSsn }

def maskedStaffPlan : Plan where
  id := ⟨"job", "run"⟩
  pipelines := [
    { pass := (staffJob "boss").insertPass "public.staff" ["id", "boss"]
      stages := [.mutation "root.\"id\" = generate_ssn()"]
      arguments := insertArguments ["id"]
      columns := ["id"]
      whereColumns := [] },
    { pass := (staffJob "boss").updatePass "public.staff"
      stages := [.mutation "root.\"boss\" = generate_ssn()"]
      arguments := insertArguments ["boss", "id"]
      columns := ["boss"]
      whereColumns := ["id"] }]

theorem order_maskedStaff (lookup : Lookup) :
    (maskedStaff lookup).order =
      .ok (staffPasses "boss", (staff "boss").deferred (staffPasses "boss")) := by
  have hplaces : (maskedStaff lookup).mappings.map Mapping.place =
      (staff "boss").mappings.map Mapping.place := rfl
  rw [← order_staff (by decide +kernel), ← order_of_place_eq hplaces]
  rfl

theorem definitions_compile_directly_staff :
    let c := maskedStaff ssnLookup
    c.lookup = some ssnLookup ∧
      (c.build.run.run {}).1 = .ok maskedStaffPlan ∧
      ((c.direct fun _ => ⟨.generateSsn, some .generateSsn⟩).build.run.run {}).1 =
        .ok maskedStaffPlan ∧
      (c.build.run.run {}).2.asked = ["mask"] := by
  intro c
  have hplan : (c.build.run.run {}).1 = .ok maskedStaffPlan := by
    rw [build_eq_of_order (order_maskedStaff _)]
    decide +kernel
  have hmasked : ∀ m ∈ c.mappings, m.definitionId? = some "mask" := by decide
  have hreferences : c.references = ["mask", "mask"] := by
    rw [references, usedMappings, order_maskedStaff]
    decide +kernel
  obtain ⟨hdirect, -, hbuilt⟩ := definitions_compile_directly (c := c) (s := {}) rfl
  have hanswers : (c.build.run.run {}).1 =
      ((c.direct fun _ => ⟨.generateSsn, some .generateSsn⟩).build.run.run {}).1 := by
    refine hdirect _ (fun id t h => ?_) fun m hm _ => ⟨"mask", hmasked m ?_, ?_, ?_, ?_⟩
    · exact nomatch (Keyed.get?_empty id).symm.trans h
    · exact mem_mappings_of_mem_usedMappings hm
    · decide
    · decide
    · exact fun _ => ⟨_, rfl, rfl⟩
  refine ⟨rfl, hplan, hanswers ▸ hplan, ?_⟩
  rw [(hbuilt _ hplan).1, hreferences]
  decide

end Context

end TransferPlan
