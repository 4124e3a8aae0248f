import TransferPlan.Proofs.Compile.Lines

/-!
# Each column is treated in one way

The texts of the stages of a pass are read back: the lines of the mutation, the functions and the
lines of the script block, and the branches.  They hold for each written column what the treatment
of its resolved mapping calls for and nothing else, and nothing for other columns (`treated_once`).
-/

namespace TransferPlan

open Text (IsLine)

/-- What a content holds is read off the text of a mutation and of a script block. -/
structure Content.HeldBy (x : Content) (mutation script : Option String) : Prop where
  mutation_eq_none : mutation = none ↔ x.assignments = []
  script_eq_none : script = none ↔ x.scripts = []
  /-- Each line of the mutation assigns one expression to one column. -/
  statements : ∀ text ∈ mutation,
    (linesOf text).map readStatement = x.assignments.map fun a => some (a.1, a.2.render)
  /-- The block declares one function for each script and calls it in one line. -/
  block : ∀ text ∈ script, Script.readBlock (x.scripts.map (·.code)) text =
    some ⟨x.scripts.map fun s => (Script.functionName s.column, s.code),
      x.scripts.map fun s => (s.column, Script.functionName s.column)⟩

/-- A content stands in a mutation, a script block and its branches, in this order. -/
theorem Content.exists_heldBy {x : Content} (h : ∀ a ∈ x.assignments, IsLine (line a)) :
    ∃ mutation script : Option String,
      x.stages = mutation.toList.map .mutation ++ script.toList.map .script ++
        x.branches.map (fun b => .branch b.2) ∧ x.HeldBy mutation script := by
  refine ⟨if x.assignments = [] then none else some ("\n".intercalate (x.assignments.map line)),
    if x.scripts = [] then none else some (Script.block x.scripts), ?_, ?_, ?_, ?_, ?_⟩
  · rw [stages]
    by_cases ha : x.assignments = [] <;> by_cases hs : x.scripts = [] <;> simp [ha, hs]
  · simp
  · simp
  · intro text htext
    split_ifs at htext with hnone
    · exact absurd htext (Option.not_mem_none text)
    · obtain rfl := Option.some.inj htext
      have hline : ∀ l ∈ x.assignments.map line, IsLine l := by
        intro l hl
        obtain ⟨a, ha, rfl⟩ := List.mem_map.1 hl
        exact h a ha
      rw [linesOf_intercalate hline (by simpa using hnone), List.map_map]
      refine List.map_congr_left fun a _ => ?_
      rw [Function.comp_apply, line, readStatement_append]
  · intro text htext
    split_ifs at htext with hnone
    · exact absurd htext (Option.not_mem_none text)
    · obtain rfl := Option.some.inj htext
      exact Script.readBlock_block x.scripts

/-- When the stages of a pass are compiled, they are at most one mutation, then at most one script
block, then branches.  The content that is read off their texts holds for each written column with a
mapping what the treatment of its resolved mapping calls for, in the order in which the columns are
written, and nothing else. -/
theorem treated_once {mappings : List Mapping} {columns : Keyed Column}
    {references : ColumnReferences} {pass : Pass} {id : RunId} {cache : Option CacheConfig}
    {resolver : Option Resolver} {s s' : Session} {out : List Stage} (hnd : pass.writes.Nodup)
    (h : (stages mappings columns references pass id cache resolver).run.run s = (.ok out, s')) :
    ∃ (resolved : List Mapping) (x : Content) (mutation script : Option String),
      resolved.map (·.column) = pass.writes.filter (fun c => mappings.any (·.column == c)) ∧
      (∀ m' ∈ resolved, ∃ m : Mapping, m.IsLastOf mappings ∧ m.ResolvesTo resolver m') ∧
      out = mutation.toList.map .mutation ++ script.toList.map .script ++
        x.branches.map (fun b => .branch b.2) ∧
      x.HeldBy mutation script ∧
      (∀ m ∈ resolved, x.Treats columns references id cache m (m.treatment references)) ∧
      x.InOrder pass.writes ∧ ∀ c ∈ x.columns, c ∈ resolved.map (·.column) := by
  obtain ⟨resolved, s₁, hrun, h⟩ := Compile.run_bind_eq_ok_iff.1 h
  obtain ⟨hcolumns, horigin⟩ := resolved_of_run hrun
  rw [map_column_selectMappings] at hcolumns
  have hsub : (resolved.map (·.column)).Sublist pass.writes := hcolumns ▸ List.filter_sublist
  split at h
  · next out' hout =>
      obtain ⟨rfl, -⟩ := Compile.run_pure_eq_ok_iff.1 h
      obtain ⟨hcompiles, rfl⟩ := stagesOf_eq_ok (hnd.sublist hsub) hout
      obtain ⟨mutation, script, hstages, hheld⟩ :=
        Content.exists_heldBy (x := .ofMappings columns references id cache resolved)
          fun _ => isLine_of_mem_assignments
      exact ⟨resolved, .ofMappings columns references id cache resolved, mutation, script, hcolumns,
        horigin, hstages, hheld,
        fun m hm => treats_of_compiles (hnd.sublist hsub) hm (hcompiles m hm),
        inOrder_ofMappings hnd hsub, fun _ => mem_columns_ofMappings⟩
  · exact absurd h Compile.run_throw_ne_ok

/-- Mappings of people: the id is copied, the badge scripted, the team taken from the cache, and
the name generated, as the second of its mappings says. -/
def people : List Mapping :=
  [⟨"public", "people", "id", none⟩,
    ⟨"public", "people", "name", some ⟨.passthrough, none⟩⟩,
    ⟨"public", "people", "team", some ⟨.generateUuid, none⟩⟩,
    ⟨"public", "people", "badge", some ⟨.transformJavascript, some (.transformJavascript "x")⟩⟩,
    ⟨"public", "people", "name", some ⟨.generateSsn, some .generateSsn⟩⟩]

/-- The leads of teams are filled in later and reference the team of a person. -/
def peopleReferences : ColumnReferences := .ofList [("team", [⟨"public.team", "lead"⟩])]

/-- The name is assigned, the badge has its function, and the team is fetched by the key of the leads
of teams; nothing is said of the id. -/
theorem treated_once_people :
    let pass : Pass :=
      { table := "public.people", kind := .insert, primaryKeys := [], reads := [], needs := []
        writes := ["badge", "name", "team", "id"] }
    let id : RunId := ⟨"job", "run"⟩
    let cache : CacheConfig := { url := "redis" }
    let mutation := "root.\"name\" = generate_ssn()"
    let script := "(() => \x7b\nfunction fn_badge(value, input)\x7b\n  x\n\x7d;\n" ++
      "const input = benthos.v0_msg_as_structured();\nconst output = \x7b ...input \x7d;\n" ++
      "output[\"badge\"] = fn_badge(input[\"badge\"], input);\n" ++
      "benthos.v0_msg_set_structured(output);\n\x7d)();"
    ∃ b, (stages people .empty peopleReferences pass id (some cache) none).run.run {} =
        (.ok [.mutation mutation, .script script, .branch b], {}) ∧
      b.Fetches cache (cacheKey id "public.team" "lead") "team" ∧
      ∃ (resolved : List Mapping) (x : Content),
        resolved.map (·.column) = ["badge", "name", "team", "id"] ∧
        (∀ m' ∈ resolved, ∃ m : Mapping, m.IsLastOf people ∧ m.ResolvesTo none m') ∧
        x.HeldBy (some mutation) (some script) ∧ x.branches.map (·.2) = [b] ∧
        (∀ m ∈ resolved, x.Treats .empty peopleReferences id (some cache) m
          (m.treatment peopleReferences)) ∧
        x.InOrder pass.writes ∧ ∀ c ∈ x.columns, c ∈ resolved.map (·.column) := by
  intro pass id cache mutation script
  let b := Branch.ofReference id cache "team" ⟨"public.team", "lead"⟩
  have hscript : Script.block [⟨"badge", "x"⟩] = script := by decide +kernel
  have h : (stages people .empty peopleReferences pass id (some cache) none).run.run {} =
      (.ok [.mutation mutation, .script script, .branch b], {}) := by
    rw [← hscript]
    rfl
  obtain ⟨resolved, x, found, block, hcolumns, horigin, hout, hheld, htreats, horder, hmem⟩ :=
    treated_once (by decide) h
  refine ⟨b, h, fetches_ofReference "team" _, resolved, x, hcolumns, horigin, ?_⟩
  obtain ⟨rfl, rfl, hbranches⟩ : found = some mutation ∧ block = some script ∧
      x.branches.map (·.2) = [b] := by
    have hnot : ∀ {s : Stage} {rest : List Stage}, (∀ b, s ≠ .branch b) →
        s :: rest ≠ x.branches.map fun b => .branch b.2 := by
      intro s rest hs heq
      have hmem : s ∈ x.branches.map fun b => Stage.branch b.2 := heq ▸ List.mem_cons_self
      obtain ⟨b, -, rfl⟩ := List.mem_map.1 hmem
      exact hs b.2 rfl
    cases found with
    | none =>
        cases block with
        | none => exact absurd hout (hnot nofun)
        | some block => exact nomatch (List.cons.inj hout).1
    | some found =>
        obtain ⟨hfound, hout⟩ := List.cons.inj hout
        cases block with
        | none => exact absurd hout (hnot nofun)
        | some block =>
            obtain ⟨hblock, hout⟩ := List.cons.inj hout
            have hmap : (x.branches.map (·.2)).map Stage.branch = [b].map Stage.branch := by
              simpa using hout.symm
            exact ⟨congrArg some (Stage.mutation.inj hfound).symm,
              congrArg some (Stage.script.inj hblock).symm,
              List.map_injective_iff.2 (fun _ _ => Stage.branch.inj) hmap⟩
  exact ⟨hheld, hbranches, htreats, horder, hmem⟩

end TransferPlan
