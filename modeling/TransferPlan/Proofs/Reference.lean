import TransferPlan.Reference
import TransferPlan.Proofs.Keyed

/-!
# References to key columns

The references under a column are those that foreign keys make to it, in the order of tables, keys
and positions (`referencesTo_ofForeignKeys`), and the deferred ones among them are those by columns
that an update pass fills in (`referencesTo_deferred`).  So the deferred references invert the
foreign keys, except that a table without a name is passed over (`deferred_inverts_exactly`).
-/

namespace TransferPlan

/-- The references that a foreign key of a table makes to a column, in the order of positions.  A
key into a table without a name makes none. -/
def ForeignKey.references (k : ForeignKey) (owner table column : String) : List Reference :=
  if k.target = "" ∨ k.target ≠ table then []
  else ((k.targetColumns.zip k.columns).filter (·.1 == column)).map fun pair => ⟨owner, pair.2⟩

theorem ForeignKey.mem_references_iff {k : ForeignKey} {owner table column : String}
    {r : Reference} :
    r ∈ k.references owner table column ↔ k.target ≠ "" ∧ k.target = table ∧ r.table = owner ∧
      (column, r.column) ∈ k.targetColumns.zip k.columns := by
  obtain ⟨t, x⟩ := r
  rw [references]
  split_ifs with hk
  · refine iff_of_false List.not_mem_nil fun h => ?_
    exact hk.elim h.1 fun hne => hne h.2.1
  · obtain ⟨hname, ht⟩ := not_or.1 hk
    rw [not_not] at ht
    simp only [List.mem_map, List.mem_filter, beq_iff_eq, Reference.mk.injEq]
    constructor
    · rintro ⟨⟨_, x⟩, ⟨hpair, rfl⟩, rfl, rfl⟩
      exact ⟨hname, ht, rfl, hpair⟩
    · rintro ⟨-, -, rfl, hpair⟩
      exact ⟨_, ⟨hpair, rfl⟩, rfl, rfl⟩

namespace ReferenceMap

/-- The references to a column of a table. -/
def referencesTo (m : ReferenceMap) (table column : String) : List Reference :=
  (((m.get? table).getD .empty).get? column).getD []

variable {m : ReferenceMap} {passes : List Pass} {table column : String}

/-- One more reference goes to the end of those to its column. -/
theorem referencesTo_alter (m : ReferenceMap) (target targetColumn : String) (r : Reference) :
    referencesTo (m.alter target .empty fun columns =>
        columns.alter targetColumn [] (· ++ [r])) table column =
      m.referencesTo table column ++
        if target = table ∧ targetColumn = column then [r] else [] := by
  unfold referencesTo
  rw [Keyed.get?_alter]
  by_cases ht : target = table
  · subst ht
    rw [if_pos rfl, Option.getD_some, Keyed.get?_alter]
    by_cases hc : targetColumn = column
    · subst hc
      rw [if_pos rfl, if_pos ⟨rfl, rfl⟩]
      rfl
    · rw [if_neg hc, if_neg fun h => hc h.2, List.append_nil]
  · rw [if_neg ht, if_neg fun h => ht h.1, List.append_nil]

theorem referencesTo_addKey (m : ReferenceMap) (owner : String) (k : ForeignKey) :
    (m.addKey owner k).referencesTo table column =
      m.referencesTo table column ++ k.references owner table column := by
  rw [addKey, ForeignKey.references]
  by_cases hname : k.target = ""
  · rw [if_pos hname, if_pos (.inl hname), List.append_nil]
  · rw [if_neg hname, foldl_view (referencesTo · table column) fun m pair =>
      referencesTo_alter m k.target pair.1 ⟨owner, pair.2⟩]
    refine congrArg _ ?_
    by_cases ht : k.target = table
    · rw [if_neg (not_or.2 ⟨hname, not_not.2 ht⟩), ← List.filterMap_eq_map, List.filterMap_filter,
        List.filterMap_eq_flatMap_toList]
      refine List.flatMap_congr fun pair _ => ?_
      by_cases hc : pair.1 = column <;> simp [ht, hc]
    · rw [if_pos (.inr ht)]
      simp [ht]

/-- The references to a column are those that foreign keys make to it. -/
theorem referencesTo_ofForeignKeys (keys : Keyed (List ForeignKey)) (table column : String) :
    (ofForeignKeys keys).referencesTo table column =
      keys.entries.flatMap fun e => e.2.flatMap fun k => k.references e.1 table column :=
  foldl_view (referencesTo · table column) (fun m e =>
    foldl_view (referencesTo · table column) (fun m k => referencesTo_addKey m e.1 k) e.2 m) _ _

/-- The deferred references to a column are those by columns that an update pass fills in. -/
theorem referencesTo_deferred (m : ReferenceMap) (passes : List Pass) (table column : String) :
    (m.deferred passes).referencesTo table column =
      (m.referencesTo table column).filter (isDeferred passes) := by
  -- what is dropped because nothing is left of it counts as empty all the same
  have hcolumn : ∀ columns : Keyed (List Reference),
      ((((columns.mapValues fun _ rs => rs.filter (isDeferred passes)).filter
        fun _ rs => !rs.isEmpty).get? column).getD []) =
      ((columns.get? column).getD []).filter (isDeferred passes) := fun columns => by
    rw [Keyed.get?_filter_eq, Keyed.get?_mapValues]
    cases columns.get? column with
    | none => rfl
    | some rs =>
        cases hrs : rs.filter (isDeferred passes) <;> simp [Option.filter, hrs]
  have htable : ∀ columns : Keyed (List Reference), ((Option.some columns).filter
      fun columns => !columns.entries.isEmpty).getD .empty = columns := fun columns => by
    obtain ⟨entries, hnd⟩ := columns
    cases entries <;> rfl
  unfold referencesTo
  rw [deferred, Keyed.get?_filter_eq, Keyed.get?_mapValues]
  cases m.get? table with
  | none => rfl
  | some columns =>
      rw [Option.map_some, htable, hcolumn]
      rfl

/-! ## The inverse view -/

/-- An update pass of the table fills in the column. -/
def FilledIn (passes : List Pass) (table column : String) : Prop :=
  ∃ p ∈ passes, p.kind = .update ∧ p.table = table ∧ column ∈ p.writes

instance (passes : List Pass) (table column : String) : Decidable (FilledIn passes table column) :=
  inferInstanceAs (Decidable (∃ p ∈ passes, _))

/-- For each table, each of its keys into the given one and each place of the key, in this order,
the column that the key pairs there with the given one, if an update pass fills it in. -/
def filledReferences (keys : Keyed (List ForeignKey)) (passes : List Pass) (table column : String) :
    List Reference :=
  keys.entries.flatMap fun e => (e.2.filter (·.target == table)).flatMap fun k =>
    ((k.targetColumns.zip k.columns).filter fun pair =>
      pair.1 = column ∧ FilledIn passes e.1 pair.2).map fun pair => ⟨e.1, pair.2⟩

theorem isDeferred_iff_filledIn {r : Reference} :
    isDeferred passes r = true ↔ FilledIn passes r.table r.column := by
  simp only [isDeferred, FilledIn, List.any_eq_true, Bool.and_eq_true, beq_iff_eq,
    List.contains_iff_mem, and_assoc]

theorem references_empty (k : ForeignKey) (owner column : String) :
    k.references owner "" column = [] :=
  if_pos (em (k.target = ""))

/-- What is kept of the references that a key makes to a column. -/
theorem filter_references (hname : table ≠ "") (k : ForeignKey) (owner : String) :
    (k.references owner table column).filter (isDeferred passes) =
      if k.target == table then
        ((k.targetColumns.zip k.columns).filter fun pair =>
          pair.1 = column ∧ FilledIn passes owner pair.2).map fun pair => ⟨owner, pair.2⟩
      else [] := by
  rw [ForeignKey.references]
  by_cases ht : k.target = table
  · rw [if_neg (by simp [ht, hname]), if_pos (beq_iff_eq.2 ht), List.filter_map, List.filter_filter]
    refine congrArg _ (List.filter_congr fun pair _ => ?_)
    rw [Bool.eq_iff_iff, Function.comp_apply, Bool.and_eq_true, isDeferred_iff_filledIn, beq_iff_eq,
      decide_eq_true_eq, and_comm]
  · rw [if_pos (.inr ht), if_neg fun h => ht (beq_iff_eq.1 h), List.filter_nil]

theorem referencesTo_deferred_ofForeignKeys (keys : Keyed (List ForeignKey)) (passes : List Pass)
    (hname : table ≠ "") : ((ofForeignKeys keys).deferred passes).referencesTo table column =
      filledReferences keys passes table column := by
  rw [referencesTo_deferred, referencesTo_ofForeignKeys, List.filter_flatMap]
  refine List.flatMap_congr fun e _ => ?_
  rw [List.filter_flatMap, flatMap_filter_eq]
  exact List.flatMap_congr fun k _ => filter_references hname k e.1

/-- Nothing empty is left among the deferred references. -/
theorem ne_empty_of_deferred {columns : Keyed (List Reference)}
    (h : (m.deferred passes).get? table = some columns) :
    columns ≠ .empty ∧ ∀ column rs, columns.get? column = some rs → rs ≠ [] := by
  rw [deferred, Keyed.get?_filter_eq, Option.filter_eq_some_iff, Keyed.get?_mapValues,
    Option.map_eq_some_iff] at h
  obtain ⟨⟨columns, -, rfl⟩, hne⟩ := h
  refine ⟨fun hempty => ?_, fun column rs hrs => ?_⟩
  · rw [hempty] at hne
    exact nomatch hne
  · rw [Keyed.get?_filter_eq, Option.filter_eq_some_iff] at hrs
    simpa using hrs.2

theorem get?_deferred_unnamed (keys : Keyed (List ForeignKey)) (passes : List Pass) :
    ((ofForeignKeys keys).deferred passes).get? "" = none := by
  refine Option.eq_none_iff_forall_ne_some.2 fun columns h => ?_
  obtain ⟨hne, hrs⟩ := ne_empty_of_deferred h
  refine hne (Keyed.ext_entries (List.eq_nil_iff_forall_not_mem.2 fun e he => ?_))
  have hget : columns.get? e.1 = some e.2 := Keyed.get?_eq_some_iff.2 he
  -- under a table without a name every list of references is empty
  have hnone : ((ofForeignKeys keys).deferred passes).referencesTo "" e.1 = [] := by
    rw [referencesTo_deferred, referencesTo_ofForeignKeys]
    simp [references_empty]
  refine hrs e.1 e.2 hget (Eq.trans ?_ hnone)
  rw [referencesTo, h, Option.getD_some, hget, Option.getD_some]

/-- Under each column of a table with a name stand the references that deferred columns make to it,
none of them lost, invented or merged; a table without a name has no entry, and no entry is
empty. -/
theorem deferred_inverts_exactly (keys : Keyed (List ForeignKey)) (passes : List Pass) :
    (∀ table column, table ≠ "" →
      ((ofForeignKeys keys).deferred passes).referencesTo table column =
        filledReferences keys passes table column) ∧
    ((ofForeignKeys keys).deferred passes).get? "" = none ∧
    ∀ table columns, ((ofForeignKeys keys).deferred passes).get? table = some columns →
      columns ≠ .empty ∧ ∀ column rs, columns.get? column = some rs → rs ≠ [] :=
  ⟨fun _ _ hname => referencesTo_deferred_ofForeignKeys keys passes hname,
    get?_deferred_unnamed keys passes, fun _ _ h => ne_empty_of_deferred h⟩

/-- A pass that fills in columns. -/
def filling (table : String) (columns : List String) : Pass where
  table := table
  kind := .update
  primaryKeys := ["id"]
  reads := "id" :: columns
  writes := columns
  needs := []

/-- The boss of a member of staff is a person, which two keys say alike; a third key has the mentor
next to the boss, and the mentor is not filled in. -/
def staffKeys : Keyed (List ForeignKey) :=
  let boss : ForeignKey :=
    { columns := ["boss"], required := [false], target := "person", targetColumns := ["id"] }
  .ofList [("staff", [boss, boss,
    { columns := ["mentor", "boss"], required := [false, false], target := "person"
      targetColumns := ["id", "code"] }])]

theorem deferred_inverts_exactly_staff :
    let m := (ofForeignKeys staffKeys).deferred [filling "staff" ["boss"]]
    "person" ≠ "" ∧
      m.referencesTo "person" "id" = [⟨"staff", "boss"⟩, ⟨"staff", "boss"⟩] ∧
      m.referencesTo "person" "code" = [⟨"staff", "boss"⟩] := by
  have hname : "person" ≠ "" := by decide
  have hlisted := (deferred_inverts_exactly staffKeys [filling "staff" ["boss"]]).1 "person"
  exact ⟨hname, (hlisted "id" hname).trans (by decide +kernel),
    (hlisted "code" hname).trans (by decide +kernel)⟩

/-- A key into a table without a name is listed nowhere, although an update pass fills its column
in. -/
theorem unnamed_target_not_listed :
    let keys : Keyed (List ForeignKey) := .ofList [("order",
      [{ columns := ["user"], required := [false], target := "", targetColumns := ["id"] }])]
    let passes := [filling "order" ["user"]]
    filledReferences keys passes "" "id" = [⟨"order", "user"⟩] ∧
      ((ofForeignKeys keys).deferred passes).referencesTo "" "id" = [] := by
  decide +kernel

end ReferenceMap

end TransferPlan
