import TransferPlan.Compile.Bridge
import TransferPlan.Proofs.Compile.Assignments

/-!
# Branches of a column

Where there is a cache, the branches of some columns put a value into every column that is bridged
and into no other, one for each reference from another table.  So each bridged column has exactly
one branch only if none has two references (`single_branches_iff`); a key that two tables refer to
is written twice (`shared_key_written_twice`).
-/

namespace TransferPlan

/-- The column that the result of a branch goes to. -/
def Branch.target? (b : Branch) : Option String := (readStatement b.result).map (·.1)

@[simp] theorem target?_ofReference (id : RunId) (cache : CacheConfig) (column : String)
    (r : Reference) : (Branch.ofReference id cache column r).target? = some column := by
  have hresult : (Branch.ofReference id cache column r).result =
      outputPath column ++ " = " ++ "this" := by
    simp [Branch.ofReference, String.append_assoc]
  rw [Branch.target?, hresult, readStatement_append, Option.map_some]

/-! ## References from other tables -/

/-- The references from other tables to a mapped column. -/
def Mapping.bridges (m : Mapping) (references : ColumnReferences) : List Reference :=
  ((references.get? m.column).getD []).filter (·.table != m.tableKey)

section

variable {m : Mapping} {references : ColumnReferences} {id : RunId}

/-- The test of a column finds a reference exactly if the loop has a branch to make. -/
theorem isBridged_eq_true_iff : m.isBridged references = true ↔ m.bridges references ≠ [] := by
  rw [Mapping.isBridged, List.any_eq_true, Mapping.bridges, ne_eq, List.filter_eq_nil_iff]
  push Not
  rfl

theorem isBridged_eq_false_iff : m.isBridged references = false ↔ m.bridges references = [] := by
  rw [← Bool.not_eq_true, isBridged_eq_true_iff, not_not]

/-- The loop makes a branch for each reference from another table and passes over the others. -/
theorem branchesFor_eq (m : Mapping) (id : RunId) (cache : Option CacheConfig)
    (rs : List Reference) :
    m.branchesFor id cache rs = (rs.filter (·.table != m.tableKey)).mapM (branchOf id cache m) := by
  induction rs with
  | nil => rfl
  | cons r rs ih =>
      rw [Mapping.branchesFor, ih]
      by_cases hr : r.table = m.tableKey
      · have hown : (r.table == m.tableKey) = true := beq_iff_eq.2 hr
        rw [if_pos hown, List.filter_cons_of_neg (by simp [hr])]
      · have hother : ¬ (r.table == m.tableKey) = true := by simpa using hr
        rw [if_neg hother, List.filter_cons_of_pos (by simpa using hr), List.mapM_cons]

theorem branches_eq (cache : Option CacheConfig) :
    m.branches references id cache = (m.bridges references).mapM (branchOf id cache m) :=
  branchesFor_eq m id cache _

end

/-! ## The columns that branches write -/

variable {mappings : List Mapping} {references : ColumnReferences} {id : RunId}
  {cache : CacheConfig}

/-- With a cache no branch is refused. -/
theorem branches_some :
    branches mappings references id (some cache) =
      .ok (mappings.flatMap fun m =>
        (m.bridges references).map (Branch.ofReference id cache m.column)) := by
  have hone : ∀ m : Mapping, m.branches references id (some cache) =
      .ok ((m.bridges references).map (Branch.ofReference id cache m.column)) := fun m =>
    (branches_eq (some cache)).trans List.mapM_pure
  have hall : (mappings.mapM fun m => m.branches references id (some cache)) =
      .ok (mappings.map fun m =>
        (m.bridges references).map (Branch.ofReference id cache m.column)) := by
    simp only [hone]
    exact List.mapM_pure
  rw [branches, hall]
  rfl

/-- The branches write each mapped column once for each reference from another table. -/
theorem targets_eq :
    (mappings.flatMap fun m =>
      (m.bridges references).map (Branch.ofReference id cache m.column)).map Branch.target? =
      mappings.flatMap fun m => List.replicate (m.bridges references).length (some m.column) := by
  rw [List.map_flatMap]
  refine congrArg (List.flatMap · mappings) (funext fun m => ?_)
  rw [List.map_map, ← List.map_const']
  refine List.map_congr_left fun r _ => ?_
  rw [Function.comp_apply, target?_ofReference]

theorem bridgedColumns_eq (h : (mappings.map (·.column)).Nodup) :
    bridgedColumns mappings references =
      (mappings.filter (·.isBridged references)).map (·.column) := by
  refine eraseDups_eq_self (h.sublist ?_)
  exact List.filter_sublist.map _

theorem mem_bridgedColumns_iff {column : String} :
    column ∈ bridgedColumns mappings references ↔
      ∃ m ∈ mappings, m.bridges references ≠ [] ∧ m.column = column := by
  simp [bridgedColumns, List.mem_eraseDups, isBridged_eq_true_iff, and_assoc]

/-- Where no column has two references, the branches write what is bridged. -/
theorem flatMap_replicate_eq (h : ∀ m ∈ mappings, (m.bridges references).length ≤ 1) :
    (mappings.flatMap fun m => List.replicate (m.bridges references).length (some m.column)) =
      ((mappings.filter (·.isBridged references)).map (·.column)).map some := by
  induction mappings with
  | nil => rfl
  | cons m rest ih =>
      obtain ⟨hm, hrest⟩ := List.forall_mem_cons.1 h
      rw [List.flatMap_cons, ih hrest]
      cases hb : m.bridges references with
      | nil => simp [isBridged_eq_false_iff.2 hb]
      | cons r rs =>
          have hrs : rs = [] := by
            rw [hb, List.length_cons] at hm
            exact List.eq_nil_of_length_eq_zero (by omega)
          have hbridged : m.isBridged references = true :=
            isBridged_eq_true_iff.2 (by rw [hb]; exact List.cons_ne_nil r rs)
          simp [hbridged, hrs]

/-- The branches of columns with different names write the bridged columns and no others.  They
write each of them exactly once, in order, if and only if no column has two references from other
tables. -/
theorem single_branches_iff (h : (mappings.map (·.column)).Nodup) :
    ∃ bs, branches mappings references id (some cache) = .ok bs ∧
      bs = mappings.flatMap (fun m =>
        (m.bridges references).map (Branch.ofReference id cache m.column)) ∧
      (∀ column, some column ∈ bs.map Branch.target? ↔
        column ∈ bridgedColumns mappings references) ∧
      (bs.map Branch.target? = (bridgedColumns mappings references).map some ↔
        ∀ m ∈ mappings, (m.bridges references).length ≤ 1) := by
  refine ⟨_, branches_some, rfl, fun column => ?_, ?_⟩
  · rw [targets_eq, mem_bridgedColumns_iff, List.mem_flatMap]
    refine exists_congr fun m => and_congr_right fun _ => ?_
    rw [List.mem_replicate, Option.some_inj, eq_comm (a := column), ne_eq, List.length_eq_zero_iff]
  · rw [targets_eq]
    constructor
    · -- A column with two references would stand twice among the targets, but no bridged column
      -- stands twice.
      intro heq m hm
      have hnd : (mappings.flatMap fun m =>
          List.replicate (m.bridges references).length (some m.column)).Nodup := by
        rw [heq]
        exact (nodup_eraseDups _).map fun _ _ => Option.some.inj
      exact List.nodup_replicate.1 ((List.nodup_flatMap.1 hnd).1 m hm)
    · intro hle
      rw [bridgedColumns_eq h, flatMap_replicate_eq hle]

/-- A table of people with a key and a parent. -/
def personColumns : List Mapping :=
  [⟨"public", "person", "id", none⟩, ⟨"public", "person", "parent", none⟩]

/-- The key is referred to by the table itself and by the tables of a list. -/
def personReferences (tables : List String) : ColumnReferences :=
  .ofList [("id", ⟨"public.person", "parent"⟩ :: tables.map (⟨·, "person"⟩))]

theorem single_branches_order :
    ∃ bs, branches personColumns (personReferences ["public.order"]) ⟨"job", "run"⟩
        (some { url := "redis" }) = .ok bs ∧
      bs.map Branch.target? = [some "id"] := by
  obtain ⟨bs, hbs, -, -, hsingle⟩ := @single_branches_iff personColumns
    (personReferences ["public.order"]) ⟨"job", "run"⟩ { url := "redis" } (by decide)
  exact ⟨bs, hbs, (hsingle.2 (by decide)).trans (by decide)⟩

/-- Of a key that two tables refer to, both branches write the one bridged column. -/
theorem shared_key_written_twice :
    (personColumns.map (·.column)).Nodup ∧
      bridgedColumns personColumns (personReferences ["public.order", "public.invoice"]) = ["id"] ∧
      ∃ bs, branches personColumns (personReferences ["public.order", "public.invoice"])
          ⟨"job", "run"⟩ (some { url := "redis" }) = .ok bs ∧
        bs.map Branch.target? = [some "id", some "id"] :=
  ⟨by decide, by decide, _, branches_some, targets_eq.trans (by decide)⟩

end TransferPlan
