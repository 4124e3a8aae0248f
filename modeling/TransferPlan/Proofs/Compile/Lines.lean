import TransferPlan.Proofs.Compile.Blocks
import TransferPlan.Proofs.Compile.Content

/-!
# Columns read off the lines of stages

The columns of a mutation are read off its lines, and those of a script block off the lines that
fill in the output.  What they are does not depend on the code of the scripts, because the lines are
looked for from the end of the block (`Script.outputLines_block`).  The stages of a pass have their
columns in the order in which the pass writes them (`exists_columns_of_run`).
-/

namespace TransferPlan

open Text (IsLine)

/-! ## Script blocks -/

namespace Script

variable {scripts : List Script}

/-- The lines of a block that fill in the output: the last two lines close the block, and before
these come the lines back to the start of the output. -/
def outputLines (text : String) : List String :=
  (((linesOf text).reverse.drop 2).takeWhile (· ≠ outputStart)).reverse

/-- The lines are found whatever the code of the scripts is. -/
theorem outputLines_block (h : scripts ≠ []) :
    outputLines (block scripts) = scripts.map outputLine := by
  have hne : ∀ l ∈ (scripts.map outputLine).reverse, decide (l ≠ outputStart) = true := by
    intro l hl
    obtain ⟨s, -, rfl⟩ := List.mem_map.1 (List.mem_reverse.1 hl)
    refine decide_eq_true fun heq => ?_
    have hread := readOutput_outputLine s
    rw [heq] at hread
    exact nomatch hread
  have hback : (linesOf (block scripts)).reverse.drop 2 =
      (scripts.map outputLine).reverse ++ outputStart ::
        "const input = benthos.v0_msg_as_structured();" ::
          (linesOf ("(() => \x7b\n" ++ "\n".intercalate (scripts.map declaration))).reverse := by
    rw [block_eq h, linesOf_append, linesOf_closing h]
    simp
  rw [outputLines, hback, List.takeWhile_append_of_pos hne, List.takeWhile_cons_of_neg (by simp),
    List.append_nil, List.reverse_reverse]

end Script

/-! ## Stages -/

/-- The columns that are read off the lines of a stage.  A branch has no lines. -/
def Stage.columns? : Stage → Option (List String)
  | .mutation text => (linesOf text).mapM fun line => (readStatement line).map (·.1)
  | .script text => (Script.outputLines text).mapM fun line => (Script.readOutput line).map (·.1)
  | .branch _ => some []

theorem Stage.columns?_mutation {assignments : List (String × Expression)}
    (h : ∀ a ∈ assignments, IsLine (Content.line a)) (hne : assignments ≠ []) :
    (mutation ("\n".intercalate (assignments.map Content.line))).columns? =
      some (assignments.map (·.1)) := by
  have hline : ∀ l ∈ assignments.map Content.line, IsLine l := fun l hl => by
    obtain ⟨a, ha, rfl⟩ := List.mem_map.1 hl
    exact h a ha
  rw [columns?, linesOf_intercalate hline (by simpa using hne)]
  exact mapM_map_eq_some fun a _ => congrArg _ (readStatement_append a.1 a.2.render)

theorem Stage.columns?_script {scripts : List Script} (h : scripts ≠ []) :
    (script (Script.block scripts)).columns? = some (scripts.map (·.column)) := by
  rw [columns?, Script.outputLines_block h]
  exact mapM_map_eq_some fun s _ => congrArg _ s.readOutput_outputLine

section

variable {columns : Keyed Column} {references : ColumnReferences} {id : RunId}
  {cache : Option CacheConfig} {resolved : List Mapping}

theorem isLine_of_mem_assignments {a : String × Expression}
    (h : a ∈ (Content.ofMappings columns references id cache resolved).assignments) :
    IsLine (Content.line a) := by
  obtain ⟨m, -, ha⟩ := List.mem_flatMap.1 h
  rw [Option.mem_toList, Mapping.assignment?] at ha
  split_ifs at ha
  obtain ⟨e, he, rfl⟩ := Option.map_eq_some_iff.1 ha
  exact isLine_statement (m.isLine_of_expression (toOption_eq_some_iff.1 he))

/-- The columns of each stage come in the order in which they are written. -/
theorem exists_columns_of_mem_stages {written : List String} (hnd : written.Nodup)
    (h : (resolved.map (·.column)).Sublist written) {stage : Stage}
    (hstage : stage ∈ (Content.ofMappings columns references id cache resolved).stages) :
    ∃ xs, stage.columns? = some xs ∧ xs.Sublist written := by
  have horder : (Content.ofMappings columns references id cache resolved).InOrder written :=
    inOrder_ofMappings hnd h
  simp only [Content.stages, List.mem_append] at hstage
  rcases hstage with (hstage | hstage) | hstage
  · split_ifs at hstage with hnone
    · exact absurd hstage List.not_mem_nil
    · obtain rfl := List.mem_singleton.1 hstage
      refine ⟨_, Stage.columns?_mutation (fun _ => isLine_of_mem_assignments) ?_,
        horder.assignments⟩
      simpa using hnone
  · split_ifs at hstage with hnone
    · exact absurd hstage List.not_mem_nil
    · obtain rfl := List.mem_singleton.1 hstage
      exact ⟨_, Stage.columns?_script (by simpa using hnone), horder.scripts⟩
  · obtain ⟨b, -, rfl⟩ := List.mem_map.1 hstage
    exact ⟨[], rfl, List.nil_sublist _⟩

end

/-- The stages of a pass. -/
theorem exists_columns_of_run {mappings : List Mapping} {columns : Keyed Column}
    {references : ColumnReferences} {pass : Pass} {id : RunId} {cache : Option CacheConfig}
    {resolver : Option Resolver} {s s' : Session} {out : List Stage} (hnd : pass.writes.Nodup)
    (h : (stages mappings columns references pass id cache resolver).run.run s = (.ok out, s')) :
    ∀ stage ∈ out, ∃ xs, stage.columns? = some xs ∧ xs.Sublist pass.writes := by
  obtain ⟨resolved, s₁, hrun, rfl⟩ := exists_resolved_of_run hnd h
  have hsub : (resolved.map (·.column)).Sublist pass.writes := by
    rw [(resolved_of_run hrun).1, map_column_selectMappings]
    exact List.filter_sublist
  exact fun stage hstage => exists_columns_of_mem_stages hnd hsub hstage

end TransferPlan
