import TransferPlan.Proofs.Compile.Branches

/-!
# Which columns are fetched

The test that takes columns out of the mutation and the loop that makes the branches decide apart
from each other, and they decide alike (`bridging_decisions_agree`).  With a cache every reference
from another table has a branch that reads the key of the referencing column, and the columns that
are written are the bridged ones; without one the first such reference is refused.
-/

namespace TransferPlan

/-- The references from other tables to the columns of some mappings, each with the mapping that it
reaches. -/
def foreignReferences (mappings : List Mapping) (references : ColumnReferences) :
    List (Mapping × Reference) :=
  mappings.flatMap fun m =>
    (((references.get? m.column).getD []).filter (·.table ≠ m.tableKey)).map (m, ·)

/-- The branch looks the values of a column up under a key: rows without a value are left out, and
what is found goes to the column.  All of its texts name the column by one literal. -/
def Branch.Fetches (b : Branch) (cache : CacheConfig) (key column : String) : Prop :=
  ∃ literal, Text.Quoted.decode literal = some column ∧
    b.request =
      "root = if this." ++ literal ++ " == null \x7b deleted() \x7d else \x7b this \x7d" ∧
    b.result = "root." ++ literal ++ " = this" ∧
    b.reads = [{
      url := cache.url
      command := "hget"
      arguments := "root = [\"" ++ key ++ "\", json(" ++ literal ++ ")]"
      kind := cache.kind
      master := cache.master }]

variable {mappings : List Mapping} {references : ColumnReferences} {id : RunId}
  {cache : CacheConfig}

theorem fetches_ofReference (column : String) (r : Reference) :
    (Branch.ofReference id cache column r).Fetches cache (cacheKey id r.table r.column) column := by
  have hinput : "root = if this." ++ Text.Quoted.encode column =
      "root = if " ++ inputPath column := by
    rw [inputPath, ← String.append_assoc]
    rfl
  refine ⟨_, Text.Quoted.decode_encode column, ?_, rfl, rfl⟩
  rw [hinput]
  rfl

theorem foreignReferences_eq :
    foreignReferences mappings references =
      mappings.flatMap fun m => (m.bridges references).map (m, ·) := by
  refine congrArg (List.flatMap · mappings) (funext fun m => congrArg (List.map _) ?_)
  exact List.filter_congr fun r _ => by rw [bne, Bool.beq_eq_decide_eq, decide_not]

/-- The columns that are bridged are those that references from other tables reach. -/
theorem mem_bridgedColumns_iff_foreign {column : String} :
    column ∈ bridgedColumns mappings references ↔
      ∃ s ∈ foreignReferences mappings references, s.1.column = column := by
  rw [mem_bridgedColumns_iff, foreignReferences_eq]
  constructor
  · rintro ⟨m, hm, hne, rfl⟩
    obtain ⟨r, hr⟩ := List.exists_mem_of_ne_nil _ hne
    exact ⟨(m, r), List.mem_flatMap.2 ⟨m, hm, List.mem_map_of_mem hr⟩, rfl⟩
  · rintro ⟨s, hs, rfl⟩
    obtain ⟨m, hm, hs⟩ := List.mem_flatMap.1 hs
    obtain ⟨r, hr, rfl⟩ := List.mem_map.1 hs
    exact ⟨m, hm, List.ne_nil_of_mem hr, rfl⟩

theorem bridgedColumns_eq_nil_iff :
    bridgedColumns mappings references = [] ↔ foreignReferences mappings references = [] := by
  simp only [List.eq_nil_iff_forall_not_mem, mem_bridgedColumns_iff_foreign, not_exists, not_and]
  exact ⟨fun h s hs => h _ s hs rfl, fun h _ s hs _ => h s hs⟩

theorem branches_eq_mapM {cache : Option CacheConfig} :
    branches mappings references id cache =
      (foreignReferences mappings references).mapM fun s => branchOf id cache s.1 s.2 := by
  rw [foreignReferences_eq, mapM_flatMap_eq, map_eq_pure_bind, branches]
  refine congrArg (· >>= _) (congrArg (List.mapM · mappings) (funext fun m => ?_))
  rw [branches_eq]

/-- With a cache every reference from another table has its branch. -/
theorem branches_eq_ok_map :
    branches mappings references id (some cache) =
      .ok ((foreignReferences mappings references).map fun s =>
        Branch.ofReference id cache s.1.column s.2) := by
  rw [branches_eq_mapM]
  exact List.mapM_pure

/-- Without a cache the first reference from another table is refused. -/
theorem branches_none_eq_error_iff {e : BridgeError} :
    branches mappings references id none = .error e ↔
      ∃ s ∈ (foreignReferences mappings references).head?,
        e = ⟨s.1.tableKey, s.1.column, s.2⟩ := by
  rw [branches_eq_mapM]
  cases foreignReferences mappings references with
  | nil => simp [pure, Except.pure]
  | cons s rest => simp [branchOf, bind, Except.bind, eq_comm]

/-- With a cache no reference is refused: each one from another table, and no other, has a branch
that fetches its column by the key of the referencing column, and the columns that the branches
write are the bridged ones.  Without a cache the first of these references is refused, which is to
say that there is a refusal exactly if some column is bridged and else there are no branches. -/
theorem bridging_decisions_agree (mappings : List Mapping) (references : ColumnReferences)
    (id : RunId) :
    (∀ cache, ∃ bs, branches mappings references id (some cache) = .ok bs ∧
      List.Forall₂
        (fun s b => Branch.Fetches b cache (cacheKey id s.2.table s.2.column) s.1.column)
        (foreignReferences mappings references) bs ∧
      ∀ column, (∃ b ∈ bs, b.target? = some column) ↔
        column ∈ bridgedColumns mappings references) ∧
    (∀ e, branches mappings references id none = .error e ↔
      ∃ s ∈ (foreignReferences mappings references).head?,
        e = ⟨s.1.tableKey, s.1.column, s.2⟩) ∧
    ((∃ e, branches mappings references id none = .error e) ↔
      bridgedColumns mappings references ≠ []) ∧
    (bridgedColumns mappings references = [] → branches mappings references id none = .ok []) := by
  refine ⟨fun cache => ⟨_, branches_eq_ok_map, ?_, fun column => ?_⟩,
    fun _ => branches_none_eq_error_iff, ?_, fun hnone => ?_⟩
  · rw [List.forall₂_map_right_iff, List.forall₂_same]
    exact fun s _ => fetches_ofReference s.1.column s.2
  · simp [mem_bridgedColumns_iff_foreign]
  · rw [ne_eq, bridgedColumns_eq_nil_iff]
    simp only [branches_none_eq_error_iff]
    cases foreignReferences mappings references <;> simp
  · rw [branches_eq_mapM, bridgedColumns_eq_nil_iff.1 hnone]
    rfl

/-- The ids of persons and of their orders. -/
def idColumns : List Mapping :=
  [⟨"public", "person", "id", none⟩, ⟨"public", "order", "id", none⟩]

/-- Both tables refer to columns with this name. -/
def idReferences : ColumnReferences :=
  .ofList [("id", [⟨"public.person", "parent"⟩, ⟨"public.order", "person"⟩])]

/-- Each of the two columns is fetched for the reference from the other table, and without a cache
the order of a person is the first reference that is refused. -/
theorem bridging_decisions_agree_id :
    bridgedColumns idColumns idReferences = ["id"] ∧
      (∃ b b', branches idColumns idReferences ⟨"job", "run"⟩ (some { url := "redis" }) =
          .ok [b, b'] ∧
        b.Fetches { url := "redis" } (cacheKey ⟨"job", "run"⟩ "public.order" "person") "id" ∧
        b'.Fetches { url := "redis" } (cacheKey ⟨"job", "run"⟩ "public.person" "parent") "id") ∧
      branches idColumns idReferences ⟨"job", "run"⟩ none =
        .error ⟨"public.person", "id", ⟨"public.order", "person"⟩⟩ := by
  obtain ⟨hcache, hnone, -⟩ := bridging_decisions_agree idColumns idReferences ⟨"job", "run"⟩
  have hforeign : foreignReferences idColumns idReferences =
      [(⟨"public", "person", "id", none⟩, ⟨"public.order", "person"⟩),
        (⟨"public", "order", "id", none⟩, ⟨"public.person", "parent"⟩)] := by
    decide
  rw [hforeign] at hcache hnone
  obtain ⟨bs, hbs, hfetches, -⟩ := hcache { url := "redis" }
  obtain ⟨b, rest, hb, hrest, rfl⟩ := List.forall₂_cons_left_iff.1 hfetches
  obtain ⟨b', last, hb', hlast, rfl⟩ := List.forall₂_cons_left_iff.1 hrest
  obtain rfl := List.forall₂_nil_left_iff.1 hlast
  exact ⟨by decide, ⟨b, b', hbs, hb, hb'⟩, (hnone _).2 ⟨_, rfl, rfl⟩⟩

end TransferPlan
