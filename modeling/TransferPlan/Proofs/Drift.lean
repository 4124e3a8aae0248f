import TransferPlan.Drift
import TransferPlan.Proofs.Keyed
import Mathlib.Data.List.Perm.Subperm

/-!
# Mappings that agree with the live schema

The check accepts the mappings exactly if each mapped table has its mapped columns and no others
(`validate_eq_ok_iff`).  Both of its parts are tests of sets of columns, and an error lists what is
missing on either side, which is never nothing (`checks_exact`).  The comparison of the numbers of
columns stands for the mapped columns that are not live.
-/

namespace TransferPlan

namespace Drift

/-- Some mapping names the column of the table. -/
def IsMapped (mappings : List Mapping) (t c : String) : Prop :=
  ∃ m ∈ mappings, m.tableKey = t ∧ m.column = c

instance (mappings : List Mapping) (t c : String) : Decidable (IsMapped mappings t c) :=
  inferInstanceAs (Decidable (∃ m ∈ mappings, m.tableKey = t ∧ m.column = c))

/-- The live columns of each mapped table are its mapped columns. -/
def Agrees (live : LiveSchema) (mappings : List Mapping) : Prop :=
  ∀ m ∈ mappings, ∀ c, c ∈ liveColumns live m.tableKey ↔ IsMapped mappings m.tableKey c

variable {live : LiveSchema} {mappings : List Mapping} {t c : String}

/-! ## Live columns -/

theorem mem_liveColumns :
    c ∈ liveColumns live t ↔ ∃ columns, live.get? t = some columns ∧ c ∈ columns.keys := by
  rw [liveColumns]
  cases live.get? t <;> simp

theorem liveColumns_eq {columns : Keyed Column} (h : live.get? t = some columns) :
    liveColumns live t = columns.keys := by
  rw [liveColumns, h]
  rfl

/-- The columns of a table with those of one more row. -/
def addRow (r : ColumnRow) (columns : Keyed Column) : Keyed Column :=
  if columns.contains r.name then columns else columns.insert r.name r.column

theorem mem_keys_addRow {r : ColumnRow} {columns : Keyed Column} :
    c ∈ (addRow r columns).keys ↔ c ∈ columns.keys ∨ r.name = c := by
  rw [addRow]
  split
  · next hr =>
      rw [Keyed.contains, List.contains_iff_mem] at hr
      exact (or_iff_left_of_imp fun h => h ▸ hr).symm
  · next hr =>
      rw [Keyed.contains, List.contains_iff_mem] at hr
      rw [Keyed.keys_insert, if_neg hr, List.mem_append, List.mem_singleton, eq_comm]

theorem mem_keys_foldl_addRow {rows : List ColumnRow} {columns : Keyed Column} :
    c ∈ (rows.foldl (fun columns r => addRow r columns) columns).keys ↔
      c ∈ columns.keys ∨ ∃ r ∈ rows, r.name = c := by
  induction rows generalizing columns with
  | nil => simp
  | cons r rows ih => rw [List.foldl_cons, ih, mem_keys_addRow, List.exists_mem_cons_iff, or_assoc]

theorem get?_addRow {r : ColumnRow} {columns : Keyed Column} :
    (addRow r columns).get? c =
      (columns.get? c).or (if r.name = c then some r.column else none) := by
  have hmem : columns.contains r.name = true ↔ (columns.get? r.name).isSome = true := by
    rw [Keyed.contains, List.contains_iff_mem, Keyed.isSome_get?_iff]
  rw [addRow]
  split_ifs with hr hc hc
  · obtain ⟨v, hv⟩ := Option.isSome_iff_exists.1 (hmem.1 hr)
    rw [← hc, hv, Option.some_or]
  · rw [Option.or_none]
  · have hnone : columns.get? r.name = none := by simpa using mt hmem.2 hr
    rw [Keyed.get?_insert, if_pos hc, ← hc, hnone, Option.none_or]
  · rw [Keyed.get?_insert, if_neg hc, Option.or_none]

/-- Of several rows for a column the first counts. -/
theorem get?_foldl_addRow {rows : List ColumnRow} {columns : Keyed Column} :
    (rows.foldl (fun columns r => addRow r columns) columns).get? c =
      (columns.get? c).or ((rows.find? (·.name == c)).map (·.column)) := by
  induction rows generalizing columns with
  | nil => simp
  | cons r rows ih =>
      rw [List.foldl_cons, ih, get?_addRow, Option.or_assoc]
      by_cases hc : r.name = c <;> simp [hc]

theorem ofRows_eq (rows : List ColumnRow) :
    LiveSchema.ofRows rows = .grouped ColumnRow.tableKey .empty addRow rows := rfl

/-- The live columns of a table are those of its rows. -/
theorem mem_liveColumns_ofRows {rows : List ColumnRow} :
    c ∈ liveColumns (.ofRows rows) t ↔ ∃ r ∈ rows, r.tableKey = t ∧ r.name = c := by
  have hlive : liveColumns (.ofRows rows) t =
      (((LiveSchema.ofRows rows).get? t).getD .empty).keys := by
    rw [liveColumns]
    cases (LiveSchema.ofRows rows).get? t <;> rfl
  rw [hlive, ofRows_eq, Keyed.getD_grouped, mem_keys_foldl_addRow]
  simp [and_assoc]

/-! ## Mapped columns -/

/-- The mapped columns of a table with that of one more mapping. -/
def addMapped (m : Mapping) (columns : List String) : List String :=
  if columns.contains m.column then columns else columns ++ [m.column]

section

variable {m : Mapping} {columns : List String}

theorem mem_addMapped : c ∈ addMapped m columns ↔ c ∈ columns ∨ m.column = c := by
  rw [addMapped]
  split
  · next hm =>
      rw [List.contains_iff_mem] at hm
      exact (or_iff_left_of_imp fun h => h ▸ hm).symm
  · rw [List.mem_append, List.mem_singleton, eq_comm]

theorem nodup_addMapped (h : columns.Nodup) : (addMapped m columns).Nodup := by
  rw [addMapped]
  split
  · exact h
  · next hm =>
      rw [List.contains_iff_mem] at hm
      simpa [List.nodup_append, h] using fun a ha (hac : a = m.column) => hm (hac ▸ ha)

theorem mem_foldl_addMapped :
    c ∈ mappings.foldl (fun columns m => addMapped m columns) columns ↔
      c ∈ columns ∨ ∃ m ∈ mappings, m.column = c := by
  induction mappings generalizing columns with
  | nil => simp
  | cons m mappings ih =>
      rw [List.foldl_cons, ih, mem_addMapped, List.exists_mem_cons_iff, or_assoc]

theorem nodup_foldl_addMapped (h : columns.Nodup) :
    (mappings.foldl (fun columns m => addMapped m columns) columns).Nodup := by
  induction mappings generalizing columns with
  | nil => exact h
  | cons m mappings ih => exact ih (nodup_addMapped h)

end

theorem mappedColumns_eq (mappings : List Mapping) :
    mappedColumns mappings = .grouped Mapping.tableKey [] addMapped mappings := rfl

theorem mem_keys_mappedColumns :
    t ∈ (mappedColumns mappings).keys ↔ ∃ m ∈ mappings, m.tableKey = t :=
  Keyed.mem_keys_grouped _ _ _

/-- The mapped columns of a table are those of its mappings. -/
theorem mem_mappedColumns :
    c ∈ ((mappedColumns mappings).get? t).getD [] ↔ IsMapped mappings t c := by
  rw [mappedColumns_eq, Keyed.getD_grouped, mem_foldl_addMapped]
  simp [IsMapped, and_assoc]

theorem nodup_mappedColumns : (((mappedColumns mappings).get? t).getD []).Nodup := by
  rw [mappedColumns_eq, Keyed.getD_grouped]
  exact nodup_foldl_addMapped List.nodup_nil

/-! ## The check -/

theorem unknownColumns_eq (live : LiveSchema) (mappings : List Mapping) :
    unknownColumns live mappings =
      (mappings.filter fun m => m.column ∉ liveColumns live m.tableKey).map
        fun m => m.tableKey ++ "." ++ m.column := by
  rw [unknownColumns, ← List.filterMap_eq_map, List.filterMap_filter]
  refine List.filterMap_congr fun m _ => ?_
  by_cases hm : m.column ∈ liveColumns live m.tableKey <;> simp [hm]

theorem unknownColumns_eq_nil_iff :
    unknownColumns live mappings = [] ↔ ∀ m ∈ mappings, m.column ∈ liveColumns live m.tableKey := by
  simp [unknownColumns_eq]

theorem unmappedColumns_eq (live : LiveSchema) (mappings : List Mapping) :
    unmappedColumns live mappings = (mappedColumns mappings).keys.flatMap fun t =>
      ((liveColumns live t).filter fun c => ¬ IsMapped mappings t c).map (t ++ "." ++ ·) := by
  rw [unmappedColumns, Keyed.entries_eq_map _ [], List.flatMap_map]
  refine List.flatMap_congr fun t _ => ?_
  rw [← List.filterMap_eq_map, List.filterMap_filter]
  refine List.filterMap_congr fun c _ => ?_
  simp only [List.contains_iff_mem, mem_mappedColumns]
  by_cases hc : IsMapped mappings t c <;> simp [hc]

theorem unmappedColumns_eq_nil_iff :
    unmappedColumns live mappings = [] ↔
      ∀ m ∈ mappings, ∀ c ∈ liveColumns live m.tableKey, IsMapped mappings m.tableKey c := by
  simp [unmappedColumns_eq, List.flatMap_eq_nil_iff, mem_keys_mappedColumns]

/-- The columns are those that are mapped if each of them is mapped and there are as many. -/
theorem forall_mem_keys_iff_isMapped {columns : Keyed Column} :
    (∀ c, c ∈ columns.keys ↔ IsMapped mappings t c) ↔
      (∀ c ∈ columns.keys, IsMapped mappings t c) ∧
        columns.entries.length = (((mappedColumns mappings).get? t).getD []).length := by
  have hlength : columns.keys.length = columns.entries.length := List.length_map _
  simp only [← mem_mappedColumns, ← hlength]
  constructor
  · intro h
    have hperm := (List.perm_ext_iff_of_nodup columns.nodup_keys nodup_mappedColumns).2 h
    exact ⟨fun c => (h c).1, hperm.length_eq⟩
  · rintro ⟨hsub, hlength⟩
    have hperm := (columns.nodup_keys.subperm hsub).perm_of_length_le (Nat.le_of_eq hlength.symm)
    exact fun c => hperm.mem_iff

/-- The comparison of the numbers of columns. -/
theorem any_length_ne_eq_false_iff :
    ((mappedColumns mappings).entries.any fun (table, mapped) =>
        match live.get? table with
        | some columns => columns.entries.length != mapped.length
        | none => false) = false ↔
      ∀ m ∈ mappings, ∀ columns, live.get? m.tableKey = some columns →
        columns.entries.length = (((mappedColumns mappings).get? m.tableKey).getD []).length := by
  rw [Keyed.entries_eq_map _ [], List.any_map, List.any_eq_false]
  constructor
  · intro h m hm columns hlive
    simpa [hlive] using h m.tableKey (mem_keys_mappedColumns.2 ⟨m, hm, rfl⟩)
  · intro h t ht
    obtain ⟨m, hm, rfl⟩ := mem_keys_mappedColumns.1 ht
    cases hlive : live.get? m.tableKey with
    | none => simp [hlive]
    | some columns => simp [hlive, h m hm columns hlive]

/-- Nothing halts the job if each mapped table that is live has its mapped columns and no
others. -/
theorem shouldHalt_eq_false_iff :
    shouldHalt live mappings = false ↔
      ∀ m ∈ mappings, ∀ columns, live.get? m.tableKey = some columns →
        ∀ c, c ∈ columns.keys ↔ IsMapped mappings m.tableKey c := by
  rw [shouldHalt, Bool.or_eq_false_iff, Bool.not_eq_false', List.isEmpty_iff,
    unmappedColumns_eq_nil_iff]
  refine (and_congr_right' any_length_ne_eq_false_iff).trans ?_
  simp only [forall_mem_keys_iff_isMapped]
  constructor
  · rintro ⟨hmapped, hlength⟩ m hm columns hlive
    exact ⟨fun c hc => hmapped m hm c (mem_liveColumns.2 ⟨columns, hlive, hc⟩),
      hlength m hm columns hlive⟩
  · intro h
    refine ⟨fun m hm c hc => ?_, fun m hm columns hlive => (h m hm columns hlive).2⟩
    obtain ⟨columns, hlive, hc⟩ := mem_liveColumns.1 hc
    exact (h m hm columns hlive).1 c hc

theorem isSubset_iff :
    isSubset live mappings = true ↔ ∀ m ∈ mappings, m.column ∈ liveColumns live m.tableKey := by
  rw [isSubset, List.isEmpty_iff, unknownColumns_eq_nil_iff]

theorem validate_eq_ok_iff_checks :
    validate live mappings = .ok () ↔
      isSubset live mappings = true ∧ shouldHalt live mappings = false := by
  rw [validate, isSubset]
  split_ifs with h
  · exact iff_of_true rfl (by simpa using h)
  · exact iff_of_false nofun (by simpa using h)

/-- Mappings that agree with the live schema are over tables that are live. -/
theorem agrees_iff :
    Agrees live mappings ↔ ∀ m ∈ mappings, ∃ columns, live.get? m.tableKey = some columns ∧
      ∀ c, c ∈ columns.keys ↔ IsMapped mappings m.tableKey c := by
  constructor
  · intro h m hm
    obtain ⟨columns, hlive, -⟩ := mem_liveColumns.1 ((h m hm m.column).2 ⟨m, hm, rfl, rfl⟩)
    exact ⟨columns, hlive, fun c => liveColumns_eq hlive ▸ h m hm c⟩
  · intro h m hm c
    obtain ⟨columns, hlive, hcolumns⟩ := h m hm
    rw [liveColumns_eq hlive, hcolumns]

theorem validate_eq_ok_iff : validate live mappings = .ok () ↔ Agrees live mappings := by
  rw [validate_eq_ok_iff_checks, isSubset_iff, shouldHalt_eq_false_iff, agrees_iff]
  constructor
  · rintro ⟨hsubset, hcolumns⟩ m hm
    obtain ⟨columns, hlive, -⟩ := mem_liveColumns.1 (hsubset m hm)
    exact ⟨columns, hlive, hcolumns m hm columns hlive⟩
  · intro h
    constructor
    · intro m hm
      obtain ⟨columns, hlive, hcolumns⟩ := h m hm
      exact mem_liveColumns.2 ⟨columns, hlive, (hcolumns _).2 ⟨m, hm, rfl, rfl⟩⟩
    · intro m hm columns hlive
      obtain ⟨columns', hlive', hcolumns⟩ := h m hm
      obtain rfl := Option.some.inj (hlive.symm.trans hlive')
      exact hcolumns

theorem validate_eq_error (h : ¬ Agrees live mappings) :
    validate live mappings =
      .error ⟨unknownColumns live mappings, unmappedColumns live mappings⟩ := by
  rw [← validate_eq_ok_iff, validate] at h
  exact if_neg fun hok => h (if_pos hok)

/-- What an error about the schema lists: in the order of the mappings, the mapped columns that are
not live; then for each mapped table, the live columns that no mapping names. -/
structure Lists (live : LiveSchema) (mappings : List Mapping) (e : DriftError) : Prop where
  unknown : e.unknown = (mappings.filter fun m => m.column ∉ liveColumns live m.tableKey).map
    fun m => m.tableKey ++ "." ++ m.column
  unmapped : e.unmapped = (mappings.map (·.tableKey)).eraseDups.flatMap fun t =>
    ((liveColumns live t).filter fun c => ¬ IsMapped mappings t c).map (t ++ "." ++ ·)
  not_both_nil : e.unknown ≠ [] ∨ e.unmapped ≠ []

theorem lists_of_validate_eq_error {e : DriftError} (h : validate live mappings = .error e) :
    Lists live mappings e := by
  have hdisagrees : ¬ Agrees live mappings := fun hagrees => by
    rw [validate_eq_ok_iff.2 hagrees] at h
    exact nomatch h
  obtain rfl := Except.error.inj ((validate_eq_error hdisagrees).symm.trans h)
  refine ⟨unknownColumns_eq _ _, ?_, ?_⟩
  · rw [unmappedColumns_eq, mappedColumns_eq, Keyed.keys_grouped]
  · by_contra hnil
    simp only [not_or, not_not, unknownColumns_eq_nil_iff, unmappedColumns_eq_nil_iff] at hnil
    refine hdisagrees fun m hm c => ⟨hnil.2 m hm c, ?_⟩
    rintro ⟨m', hm', ht, rfl⟩
    exact ht ▸ hnil.1 m' hm'

/-- The parts of the check say what they are for, it accepts the mappings exactly if both do not
object, and otherwise it lists what differs. -/
theorem checks_exact (live : LiveSchema) (mappings : List Mapping) :
    (isSubset live mappings = true ↔ ∀ m ∈ mappings, ∃ columns,
      live.get? m.tableKey = some columns ∧ m.column ∈ columns.keys) ∧
    (shouldHalt live mappings = true ↔ ∃ m ∈ mappings, ∃ columns,
      live.get? m.tableKey = some columns ∧
        ¬ ∀ c, c ∈ columns.keys ↔ IsMapped mappings m.tableKey c) ∧
    (validate live mappings = .ok () ↔ ∀ m ∈ mappings, ∃ columns,
      live.get? m.tableKey = some columns ∧
        ∀ c, c ∈ columns.keys ↔ IsMapped mappings m.tableKey c) ∧
    (validate live mappings = .ok () ↔
      isSubset live mappings = true ∧ shouldHalt live mappings = false) ∧
    ∀ e, validate live mappings = .error e → Lists live mappings e := by
  refine ⟨?_, ?_, validate_eq_ok_iff.trans agrees_iff, validate_eq_ok_iff_checks,
    fun e => lists_of_validate_eq_error⟩
  · simp only [isSubset_iff, mem_liveColumns]
  · rw [← Bool.not_eq_false, shouldHalt_eq_false_iff]
    simp only [not_forall, exists_prop]

/-- Of two live columns of visits one is mapped, and so is one that is gone, twice. -/
theorem checks_exact_visits :
    let live : LiveSchema := .ofList [("visit", .ofList [("badge", {}), ("name", {})])]
    let mappings : List Mapping := [⟨"", "visit", "room", none⟩, ⟨"", "visit", "badge", none⟩,
      ⟨"", "visit", "room", none⟩]
    let e : DriftError := ⟨["visit.room", "visit.room"], ["visit.name"]⟩
    validate live mappings = .error e ∧ Lists live mappings e := by
  intro live mappings e
  have h : validate live mappings = .error e := by decide +kernel
  exact ⟨h, (checks_exact live mappings).2.2.2.2 e h⟩

end Drift

end TransferPlan
