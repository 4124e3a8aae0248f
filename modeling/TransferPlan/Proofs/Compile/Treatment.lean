import TransferPlan.Compile.Stage
import TransferPlan.Proofs.Compile.Fetched

/-!
# Treatments of columns

A resolved mapping has a treatment: its column is cached, copied, scripted or assigned.  Each of the
separate tests that pick the columns of the mutation, of the script block and of the branches is one
treatment (`treatment_eq_assigned_iff` and its neighbours), and what a mapping adds to the stages is
what its treatment calls for (`treats_of_compiles`).
-/

namespace TransferPlan

/-! ## Treatments -/

/-- The ways to treat a column. -/
inductive Treatment where
  /-- Its value comes from the cache. -/
  | cached
  | copied
  /-- A script computes its value. -/
  | scripted
  /-- An expression is assigned to it. -/
  | assigned
deriving DecidableEq

/-- How the column of a resolved mapping is treated.  References from other tables decide first,
then the source of its transformer. -/
def Mapping.treatment (m : Mapping) (references : ColumnReferences) : Treatment :=
  if ∃ r ∈ (references.get? m.column).getD [], r.table ≠ m.tableKey then .cached
  else
    match m.transformer with
    | none => .copied
    | some t =>
      if t.source = .passthrough ∨ t.source = .unspecified then .copied
      else if t.source = .transformJavascript then .scripted
      else .assigned

/-! ## What the stages hold -/

/-- What the stages of a pass hold: expressions and branches with their columns, and scripts. -/
structure Content where
  assignments : List (String × Expression)
  scripts : List Script
  branches : List (String × Branch)

namespace Content

/-- The line that assigns an expression to a column. -/
def line (a : String × Expression) : String := outputPath a.1 ++ " = " ++ a.2.render

/-- One mutation, then one script block, each only if it holds something, then the branches. -/
def stages (x : Content) : List Stage :=
  (if x.assignments.isEmpty then []
    else [.mutation ("\n".intercalate (x.assignments.map line))]) ++
  (if x.scripts.isEmpty then [] else [.script (Script.block x.scripts)]) ++
  x.branches.map fun b => .branch b.2

def assignmentsOf (x : Content) (column : String) : List (String × Expression) :=
  x.assignments.filter (·.1 == column)

def scriptsOf (x : Content) (column : String) : List Script :=
  x.scripts.filter (·.column == column)

def branchesOf (x : Content) (column : String) : List (String × Branch) :=
  x.branches.filter (·.1 == column)

/-- The columns that something is held for, stage by stage. -/
def columns (x : Content) : List String :=
  x.assignments.map (·.1) ++ x.scripts.map (·.column) ++ x.branches.map (·.1)

/-- Every stage holds its columns in the order in which they are written. -/
structure InOrder (x : Content) (written : List String) : Prop where
  assignments : (x.assignments.map (·.1)).Sublist written
  scripts : (x.scripts.map (·.column)).Sublist written
  branches : (x.branches.map (·.1)).Pairwise fun a b => written.idxOf a ≤ written.idxOf b

end Content

section

variable (columns : Keyed Column) (references : ColumnReferences) (id : RunId)
  (cache : Option CacheConfig)

/-- The content holds for the column of a mapping what the treatment calls for, and nothing
else. -/
def Content.Treats (x : Content) (m : Mapping) : Treatment → Prop
  | .cached =>
    x.assignmentsOf m.column = [] ∧ x.scriptsOf m.column = [] ∧ x.branchesOf m.column ≠ [] ∧
      ∀ b ∈ x.branchesOf m.column, ∃ config r, cache = some config ∧
        r ∈ (references.get? m.column).getD [] ∧ r.table ≠ m.tableKey ∧
        b.2.Fetches config (cacheKey id r.table r.column) m.column
  | .copied =>
    x.assignmentsOf m.column = [] ∧ x.scriptsOf m.column = [] ∧ x.branchesOf m.column = []
  | .scripted =>
    x.assignmentsOf m.column = [] ∧ x.branchesOf m.column = [] ∧ ∃ code,
      m.transformer = some ⟨.transformJavascript, some (.transformJavascript code)⟩ ∧
        x.scriptsOf m.column = if code = "" then [] else [⟨m.column, code⟩]
  | .assigned =>
    x.scriptsOf m.column = [] ∧ x.branchesOf m.column = [] ∧ ∃ e,
      m.expression (columns.get? m.column) = .ok e ∧ x.assignmentsOf m.column = [(m.column, e)]

end

/-! ## The tests that pick columns -/

section

variable {m : Mapping} {columns : Keyed Column} {references : ColumnReferences} {id : RunId}
  {cache : Option CacheConfig}

theorem isBridged_iff :
    m.isBridged references = true ↔
      ∃ r ∈ (references.get? m.column).getD [], r.table ≠ m.tableKey := by
  simp [Mapping.isBridged]

theorem treatment_of_isBridged (h : m.isBridged references = true) :
    m.treatment references = .cached :=
  if_pos (isBridged_iff.1 h)

theorem treatment_of_not_isBridged (h : m.isBridged references = false) :
    m.treatment references =
      match m.transformer with
      | none => .copied
      | some t =>
        if t.source = .passthrough ∨ t.source = .unspecified then .copied
        else if t.source = .transformJavascript then .scripted
        else .assigned := by
  refine if_neg fun hr => ?_
  rw [isBridged_iff.2 hr] at h
  exact absurd h.symm Bool.false_ne_true

theorem treatment_eq_cached_iff :
    m.treatment references = .cached ↔ m.isBridged references = true := by
  refine ⟨fun h => ?_, treatment_of_isBridged⟩
  by_contra hb
  rw [treatment_of_not_isBridged (Bool.not_eq_true _ ▸ hb)] at h
  split at h
  · exact nomatch h
  · split_ifs at h

theorem treatment_eq_assigned_iff :
    m.treatment references = .assigned ↔
      m.isBridged references = false ∧ m.isMutated = true := by
  cases hb : m.isBridged references with
  | true => simp [treatment_of_isBridged hb]
  | false =>
      rw [treatment_of_not_isBridged hb, Mapping.isMutated]
      cases m.transformer with
      | none => simp
      | some t =>
          by_cases hp : t.source = .passthrough
          · simp [hp, Source.isCopy]
          · by_cases hu : t.source = .unspecified
            · simp [hu, Source.isCopy]
            · by_cases hj : t.source = .transformJavascript <;> simp [hp, hu, hj, Source.isCopy]

theorem treatment_eq_scripted_iff :
    m.treatment references = .scripted ↔ m.isBridged references = false ∧
      ∃ t, m.transformer = some t ∧ t.source = .transformJavascript := by
  cases hb : m.isBridged references with
  | true => simp [treatment_of_isBridged hb]
  | false =>
      rw [treatment_of_not_isBridged hb]
      cases m.transformer with
      | none => simp
      | some t =>
          by_cases hj : t.source = .transformJavascript
          · simp [hj]
          · by_cases hc : t.source = .passthrough ∨ t.source = .unspecified <;> simp [hc, hj]

/-! ## The share of a mapping -/

variable (m columns references id cache)

/-- The expression that is assigned to the column. -/
def Mapping.assignment? : Option (String × Expression) :=
  if m.treatment references = .assigned then
    (m.expression (columns.get? m.column)).toOption.map fun e => (m.column, e)
  else none

/-- The script that is held for the column. -/
def Mapping.script? : Option Script :=
  if m.treatment references = .scripted then m.script.toOption.join else none

/-- The branches that are held for the column. -/
def Mapping.cacheBranches : List (String × Branch) :=
  cache.toList.flatMap fun config =>
    (m.bridges references).map fun r => (m.column, Branch.ofReference id config m.column r)

/-- What the stages of resolved mappings hold. -/
def Content.ofMappings (resolved : List Mapping) : Content where
  assignments := resolved.flatMap fun m => (m.assignment? columns references).toList
  scripts := resolved.flatMap fun m => (m.script? references).toList
  branches := resolved.flatMap fun m => m.cacheBranches references id cache

/-- The treatment of the column does not fail. -/
structure Mapping.Compiles : Prop where
  assigned : m.treatment references = .assigned → ∃ e, m.expression (columns.get? m.column) = .ok e
  scripted : m.treatment references = .scripted → ∃ o, m.script = .ok o
  cached : m.treatment references = .cached → ∃ config, cache = some config

variable {m columns references id cache}

theorem Config.eq_transformJavascript {c : Config} (h : c.source = .transformJavascript) :
    ∃ code, c = .transformJavascript code := by
  cases c with
  | transformJavascript code => exact ⟨code, rfl⟩
  | _ => exact nomatch h

theorem script_eq_ok {o : Option Script} (h : m.script = .ok o)
    (hs : ∃ t, m.transformer = some t ∧ t.source = .transformJavascript) :
    ∃ code, m.transformer = some ⟨.transformJavascript, some (.transformJavascript code)⟩ ∧
      o = if code = "" then none else some ⟨m.column, code⟩ := by
  obtain ⟨⟨source, config⟩, ht, rfl⟩ := hs
  simp only [Mapping.script, ht, if_true, bind_eq_ok_iff] at h
  obtain ⟨c, hc, ho⟩ := h
  cases config with
  | none => exact nomatch hc
  | some c' =>
      simp only [Transformer.ownConfig] at hc
      split_ifs at hc with hsource
      obtain rfl := Except.ok.inj hc
      obtain ⟨code, rfl⟩ := Config.eq_transformJavascript hsource
      exact ⟨code, ht, (Except.ok.inj ho).symm⟩

theorem script_of_ne (h : ¬ ∃ t, m.transformer = some t ∧ t.source = .transformJavascript) :
    m.script = .ok none := by
  unfold Mapping.script
  split
  · rfl
  · next t ht => exact if_neg fun hs => h ⟨t, ht, hs⟩

theorem fst_of_mem_assignment? {a : String × Expression}
    (h : a ∈ (m.assignment? columns references).toList) : a.1 = m.column := by
  rw [Option.mem_toList, Mapping.assignment?] at h
  split_ifs at h
  obtain ⟨e, -, rfl⟩ := Option.map_eq_some_iff.1 h
  rfl

theorem column_of_mem_script? {x : Script} (h : x ∈ (m.script? references).toList) :
    x.column = m.column := by
  rw [Option.mem_toList, Mapping.script?] at h
  split_ifs at h with hs
  cases ho : m.script with
  | error e =>
      rw [ho] at h
      exact nomatch h
  | ok o =>
      obtain ⟨code, -, rfl⟩ := script_eq_ok ho (treatment_eq_scripted_iff.1 hs).2
      rw [ho] at h
      split_ifs at h
      · exact nomatch h
      · obtain rfl := Option.some.inj h
        rfl

theorem fst_of_mem_cacheBranches {b : String × Branch}
    (h : b ∈ m.cacheBranches references id cache) : b.1 = m.column := by
  obtain ⟨config, -, h⟩ := List.mem_flatMap.1 h
  obtain ⟨r, -, rfl⟩ := List.mem_map.1 h
  rfl

/-- If the treatments do not fail, the content holds what they call for. -/
theorem treats_of_compiles {resolved : List Mapping} (hnd : (resolved.map (·.column)).Nodup)
    (hm : m ∈ resolved) (h : m.Compiles columns references cache) :
    (Content.ofMappings columns references id cache resolved).Treats columns references id cache m
      (m.treatment references) := by
  have ha : (Content.ofMappings columns references id cache resolved).assignmentsOf m.column =
      (m.assignment? columns references).toList :=
    filter_flatMap_key (fun _ _ _ => fst_of_mem_assignment?) hnd hm
  have hs : (Content.ofMappings columns references id cache resolved).scriptsOf m.column =
      (m.script? references).toList :=
    filter_flatMap_key (fun _ _ _ => column_of_mem_script?) hnd hm
  have hb : (Content.ofMappings columns references id cache resolved).branchesOf m.column =
      m.cacheBranches references id cache :=
    filter_flatMap_key (fun _ _ _ => fst_of_mem_cacheBranches) hnd hm
  have hnone : m.treatment references ≠ .cached → m.cacheBranches references id cache = [] := by
    intro hne
    have hbr : m.bridges references = [] := by
      simpa [treatment_eq_cached_iff, isBridged_eq_true_iff] using hne
    simp [Mapping.cacheBranches, hbr]
  cases ht : m.treatment references with
  | cached =>
      obtain ⟨config, rfl⟩ := h.cached ht
      have hbr : m.bridges references ≠ [] :=
        isBridged_eq_true_iff.1 (treatment_eq_cached_iff.1 ht)
      refine ⟨by simp [ha, Mapping.assignment?, ht], by simp [hs, Mapping.script?, ht], ?_, ?_⟩
      · simpa [hb, Mapping.cacheBranches] using hbr
      · intro b hmem
        simp only [hb, Mapping.cacheBranches, Option.toList_some, List.flatMap_singleton,
          List.mem_map] at hmem
        obtain ⟨r, hr, rfl⟩ := hmem
        obtain ⟨hr, hne⟩ := List.mem_filter.1 hr
        exact ⟨config, r, rfl, hr, by simpa using hne, fetches_ofReference m.column r⟩
  | copied =>
      refine ⟨by simp [ha, Mapping.assignment?, ht], by simp [hs, Mapping.script?, ht], ?_⟩
      rw [hb, hnone (by simp [ht])]
  | scripted =>
      obtain ⟨o, ho⟩ := h.scripted ht
      obtain ⟨code, htr, rfl⟩ := script_eq_ok ho (treatment_eq_scripted_iff.1 ht).2
      have hbranches := hb.trans (hnone (by simp [ht]))
      refine ⟨by simp [ha, Mapping.assignment?, ht], hbranches, code, htr, ?_⟩
      rw [hs, Mapping.script?, if_pos ht, ho]
      split <;> rfl
  | assigned =>
      obtain ⟨e, he⟩ := h.assigned ht
      have hbranches := hb.trans (hnone (by simp [ht]))
      refine ⟨by simp [hs, Mapping.script?, ht], hbranches, e, he, ?_⟩
      rw [ha, Mapping.assignment?, if_pos ht, he]
      rfl

end

end TransferPlan
