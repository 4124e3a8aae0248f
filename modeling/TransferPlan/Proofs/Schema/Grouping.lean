import TransferPlan.Proofs.Drift
import Mathlib.Data.Prod.Lex

/-!
# Rows grouped in two ways

The rows of a catalogue are grouped by table and column, where the first row of a column counts, and
by table as a list of columns, where the rows are put in the order of their positions first.  Both
groupings have the same tables with the same columns (`groupings_agree`).  Rows with equal positions
keep their order, so a column of the list stands where the first of its rows with the least position
is put.
-/

namespace TransferPlan

namespace ColumnRow

variable {own : List ColumnRow} {c d x : String} {i j : Nat} {a b r : ColumnRow}

/-! ## Rows in the order of their positions -/

theorem order_le_trans (a b c : ColumnRow) (hab : decide (a.column.order ≤ b.column.order) = true)
    (hbc : decide (b.column.order ≤ c.column.order) = true) :
    decide (a.column.order ≤ c.column.order) = true :=
  decide_eq_true (Int.le_trans (of_decide_eq_true hab) (of_decide_eq_true hbc))

theorem order_le_total (a b : ColumnRow) :
    (decide (a.column.order ≤ b.column.order) || decide (b.column.order ≤ a.column.order)) =
      true := by
  simpa using Int.le_total a.column.order b.column.order

theorem pairwise_sorted (rs : List ColumnRow) :
    (rs.mergeSort fun a b => a.column.order ≤ b.column.order).Pairwise
      fun a b => a.column.order ≤ b.column.order :=
  (List.pairwise_mergeSort order_le_trans order_le_total rs).imp of_decide_eq_true

/-! ## Places of rows -/

/-- The row at the place is the first of the rows for the column whose position is the least. -/
structure FirstOfLeast (own : List ColumnRow) (c : String) (i : Nat) (r : ColumnRow) : Prop where
  row : own[i]? = some r
  name : r.name = c
  least : ∀ q ∈ own, q.name = c → r.column.order ≤ q.column.order
  first : ∀ k < i, ∀ q, own[k]? = some q → q.name = c → q.column.order ≠ r.column.order

/-- Rows are put in order by their positions, and equal ones by their places. -/
def rank (e : ColumnRow × Nat) : Int ×ₗ Nat := toLex (e.1.column.order, e.2)

theorem rank_le_iff {e e' : ColumnRow × Nat} : rank e ≤ rank e' ↔
    e.1.column.order < e'.1.column.order ∨
      e.1.column.order = e'.1.column.order ∧ e.2 ≤ e'.2 :=
  Prod.Lex.toLex_le_toLex

theorem firstOfLeast_iff : FirstOfLeast own c i r ↔ own[i]? = some r ∧ r.name = c ∧
    ∀ e : ColumnRow × Nat, own[e.2]? = some e.1 → e.1.name = c → rank (r, i) ≤ rank e := by
  constructor
  · intro h
    refine ⟨h.row, h.name, fun e he hname => rank_le_iff.2 ?_⟩
    rcases Int.lt_or_eq_of_le (h.least e.1 (List.mem_of_getElem? he) hname) with hlt | heq
    · exact .inl hlt
    · exact .inr ⟨heq, Nat.le_of_not_lt fun hlt => h.first e.2 hlt e.1 he hname heq.symm⟩
  · rintro ⟨hrow, hname, hle⟩
    refine ⟨hrow, hname, fun q hq hqc => ?_, fun k hk q hq hqc heq => ?_⟩
    · obtain ⟨k, hk⟩ := List.mem_iff_getElem?.1 hq
      rcases rank_le_iff.1 (hle (q, k) hk hqc) with hlt | heq
      · exact Int.le_of_lt hlt
      · exact Int.le_of_eq heq.1
    · rcases rank_le_iff.1 (hle (q, k) hq hqc) with hlt | ⟨-, hik⟩
      · exact Int.ne_of_gt hlt heq
      · exact absurd hk (Nat.not_lt_of_le hik)

/-- The rows in the order of their positions, each with the place that it had before. -/
def placed (own : List ColumnRow) : List (ColumnRow × Nat) :=
  own.zipIdx.mergeSort (List.zipIdxLE fun a b => a.column.order ≤ b.column.order)

theorem map_fst_placed (own : List ColumnRow) :
    (placed own).map (·.1) = own.mergeSort fun a b => a.column.order ≤ b.column.order :=
  List.mergeSort_zipIdx

theorem mem_placed {e : ColumnRow × Nat} : e ∈ placed own ↔ own[e.2]? = some e.1 := by
  rw [placed, List.mem_mergeSort, List.mem_zipIdx_iff_getElem?]

theorem pairwise_rank_placed (own : List ColumnRow) :
    (placed own).Pairwise fun e e' => rank e ≤ rank e' := by
  refine (List.pairwise_mergeSort (List.zipIdxLE_trans order_le_trans)
    (List.zipIdxLE_total order_le_total) own.zipIdx).imp fun {e e'} h => rank_le_iff.2 ?_
  simp only [List.zipIdxLE, decide_eq_true_eq] at h
  split_ifs at h with hle hge
  · exact .inr ⟨Int.le_antisymm hle hge, by simpa using h⟩
  · exact .inl (Int.lt_of_not_ge hge)

/-- A column with a row has a first one with the least position. -/
theorem exists_firstOfLeast (h : ∃ q ∈ own, q.name = c) : ∃ i r, FirstOfLeast own c i r := by
  obtain ⟨q, hq, hname⟩ := h
  obtain ⟨k, hk⟩ := List.mem_iff_getElem?.1 hq
  have hfound : ((placed own).find? (·.1.name == c)).isSome :=
    List.find?_isSome.2 ⟨(q, k), mem_placed.2 hk, by simpa using hname⟩
  obtain ⟨e, he⟩ := Option.isSome_iff_exists.1 hfound
  obtain ⟨hec, front, back, hplaced, hfront⟩ := List.find?_eq_some_iff_append.1 he
  have hpairwise := pairwise_rank_placed own
  rw [hplaced] at hpairwise
  have hback := (List.pairwise_cons.1 (List.pairwise_append.1 hpairwise).2.1).1
  refine ⟨e.2, e.1, firstOfLeast_iff.2 ⟨mem_placed.1 (by simp [hplaced]), by simpa using hec,
    fun e' he' hname' => ?_⟩⟩
  have hmem : e' ∈ front ++ e :: back := hplaced ▸ mem_placed.2 he'
  rcases List.mem_append.1 hmem with hmem | hmem
  · exact absurd hname' (by simpa using hfront e' hmem)
  · rcases List.mem_cons.1 hmem with rfl | hmem
    · exact le_rfl
    · exact hback e' hmem

/-! ## Columns in order -/

/-- The names of the rows in the order of their positions, each at its first place. -/
def namesInOrder (own : List ColumnRow) : List String :=
  ((own.mergeSort fun a b => a.column.order ≤ b.column.order).map (·.name)).eraseDups

theorem mem_namesInOrder : x ∈ namesInOrder own ↔ ∃ r ∈ own, r.name = x := by
  simp [namesInOrder]

/-- Of two columns, the one whose first row with the least position comes earlier stands in
front. -/
theorem pairwise_namesInOrder (own : List ColumnRow) : (namesInOrder own).Pairwise fun c d =>
    ∀ i j a b, FirstOfLeast own c i a → FirstOfLeast own d j b → rank (a, i) < rank (b, j) := by
  have hnames : namesInOrder own = ((placed own).map fun e => e.1.name).eraseDups := by
    rw [namesInOrder, ← map_fst_placed, List.map_map]
    rfl
  have hrows : (namesInOrder own).Pairwise fun c d => ∀ e' ∈ placed own, e'.1.name = d →
      ∃ e ∈ placed own, e.1.name = c ∧ rank e ≤ rank e' :=
    hnames ▸ pairwise_eraseDups_map (pairwise_rank_placed own)
  refine (hrows.and (nodup_eraseDups _)).imp fun {c d} h i j a b ha hb => ?_
  obtain ⟨hcd, hne⟩ := h
  obtain ⟨e, he, hec, hle⟩ := hcd (b, j) (mem_placed.2 hb.row) hb.name
  refine lt_of_le_of_ne (((firstOfLeast_iff.1 ha).2.2 e (mem_placed.1 he) hec).trans hle) fun heq => ?_
  -- rows at the same place are the same row, but these are of different columns
  obtain rfl : i = j := congrArg (fun p => (ofLex p).2) heq
  obtain rfl := Option.some.inj (ha.row.symm.trans hb.row)
  exact hne (ha.name.symm.trans hb.name)

theorem pair_sublist_namesInOrder_iff (ha : FirstOfLeast own c i a) (hb : FirstOfLeast own d j b) :
    [c, d].Sublist (namesInOrder own) ↔ rank (a, i) < rank (b, j) := by
  have hlt : ∀ {c d i j a b}, FirstOfLeast own c i a → FirstOfLeast own d j b →
      [c, d].Sublist (namesInOrder own) → rank (a, i) < rank (b, j) := fun ha hb h =>
    List.pairwise_iff_forall_sublist.1 (pairwise_namesInOrder own) h _ _ _ _ ha hb
  refine ⟨hlt ha hb, fun h => ?_⟩
  have hne : c ≠ d := by
    rintro rfl
    exact absurd h (not_lt_of_ge ((firstOfLeast_iff.1 hb).2.2 (a, i) ha.row ha.name))
  have hmem : ∀ {c i a}, FirstOfLeast own c i a → c ∈ namesInOrder own := fun ha =>
    mem_namesInOrder.2 ⟨_, List.mem_of_getElem? ha.row, ha.name⟩
  exact (pair_sublist_or (hmem ha) (hmem hb) hne).resolve_right fun hdc =>
    lt_asymm h (hlt hb ha hdc)

end ColumnRow

/-! ## The groupings -/

variable {rows rs : List ColumnRow} {t x : String} {all : List String}

theorem eq_filter_of_mem_rowsByTable (h : (t, rs) ∈ (rowsByTable rows).entries) :
    rs = rows.filter (·.tableKey == t) := by
  have hfold := Keyed.getD_grouped ColumnRow.tableKey [] (fun r rs => rs ++ [r]) rows t
  have hget : (Keyed.grouped ColumnRow.tableKey [] (fun r rs => rs ++ [r]) rows).get? t = some rs :=
    Keyed.get?_eq_some_iff.2 h
  simpa [hget, ← List.flatMap_def] using hfold

/-- Rows that come in the order of the positions of their columns keep it. -/
theorem columnOrder_eq_of_pairwise
    (h : rows.Pairwise fun a b => a.column.order ≤ b.column.order) :
    columnOrder rows = (rowsByTable rows).mapValues fun _ rs => (rs.map (·.name)).eraseDups := by
  rw [columnOrder, Keyed.mapValues, Keyed.mapValues, Keyed.mk.injEq]
  refine List.map_congr_left fun e he => ?_
  rw [List.mergeSort_of_pairwise]
  rw [eq_filter_of_mem_rowsByTable he]
  exact (h.imp decide_eq_true).filter _

theorem eq_namesInOrder (h : (t, all) ∈ (columnOrder rows).entries) :
    all = ColumnRow.namesInOrder (rows.filter (·.tableKey == t)) := by
  obtain ⟨⟨t, rs⟩, he, he'⟩ := List.mem_map.1 h
  obtain ⟨rfl, rfl⟩ := Prod.mk.inj he'
  exact congrArg ColumnRow.namesInOrder (eq_filter_of_mem_rowsByTable he)

/-- The columns of a table are those of its rows. -/
theorem mem_columnOrder (h : (t, all) ∈ (columnOrder rows).entries) :
    x ∈ all ↔ ∃ r ∈ rows, r.tableKey = t ∧ r.name = x := by
  rw [eq_namesInOrder h, ColumnRow.mem_namesInOrder]
  simp [and_assoc]

theorem mem_keys_columnOrder : t ∈ (columnOrder rows).keys ↔ ∃ r ∈ rows, r.tableKey = t := by
  rw [columnOrder, Keyed.keys_mapValues]
  exact Keyed.mem_keys_grouped _ _ _

theorem keys_groupings (rows : List ColumnRow) :
    (LiveSchema.ofRows rows).keys = (columnOrder rows).keys := by
  rw [columnOrder, Keyed.keys_mapValues, Drift.ofRows_eq, Keyed.keys_grouped]
  exact (Keyed.keys_grouped ColumnRow.tableKey [] (fun r rs => rs ++ [r]) rows).symm

/-- Both groupings have the same tables in the same order.  The columns of a table in order are its
columns by name, each once, and of two the one comes earlier whose least position is smaller or
else, where these are equal, whose first row with that position comes earlier. -/
theorem groupings_agree (rows : List ColumnRow) :
    (LiveSchema.ofRows rows).keys = (columnOrder rows).keys ∧
    ∀ t all, (columnOrder rows).get? t = some all →
      ∃ columns, (LiveSchema.ofRows rows).get? t = some columns ∧ all.Nodup ∧
        (∀ c, c ∈ all ↔ c ∈ columns.keys) ∧
        (∀ c ∈ all, ∃ i r, ColumnRow.FirstOfLeast (rows.filter (·.tableKey == t)) c i r) ∧
        ∀ c d i j a b, ColumnRow.FirstOfLeast (rows.filter (·.tableKey == t)) c i a →
          ColumnRow.FirstOfLeast (rows.filter (·.tableKey == t)) d j b →
            ([c, d].Sublist all ↔ a.column.order < b.column.order ∨
              a.column.order = b.column.order ∧ i < j) := by
  refine ⟨keys_groupings rows, fun t all h => ?_⟩
  have hentry : (t, all) ∈ (columnOrder rows).entries := Keyed.get?_eq_some_iff.1 h
  have hlive : t ∈ (LiveSchema.ofRows rows).keys :=
    keys_groupings rows ▸ Keyed.isSome_get?_iff.1 (by rw [h]; rfl)
  obtain ⟨columns, hcolumns⟩ := Option.isSome_iff_exists.1 (Keyed.isSome_get?_iff.2 hlive)
  have hmem : ∀ c, c ∈ all ↔ c ∈ columns.keys := fun c => by
    rw [mem_columnOrder hentry, ← Drift.mem_liveColumns_ofRows, Drift.liveColumns_eq hcolumns]
  obtain rfl := eq_namesInOrder hentry
  refine ⟨columns, hcolumns, nodup_eraseDups _, hmem,
    fun c hc => ColumnRow.exists_firstOfLeast (ColumnRow.mem_namesInOrder.1 hc),
    fun c d i j a b ha hb => ?_⟩
  rw [ColumnRow.pair_sublist_namesInOrder_iff ha hb, ColumnRow.rank, ColumnRow.rank,
    Prod.Lex.toLex_lt_toLex]

/-- A row that reports the position of a column. -/
def positionRow (table name : String) (position : Option Int) : ColumnRow :=
  ⟨"public", table, name, { position }⟩

/-- The column `id` of the staff is reported twice, and between its rows stands one of another
table. -/
def staffRows : List ColumnRow :=
  [positionRow "staff" "name" (some 2), positionRow "staff" "id" none,
    positionRow "team" "id" (some 1), positionRow "staff" "id" (some 1)]

theorem groupings_agree_staff :
    let own := staffRows.filter (·.tableKey == "public.staff")
    ColumnRow.FirstOfLeast own "id" 2 (positionRow "staff" "id" (some 1)) ∧
      ColumnRow.FirstOfLeast own "name" 0 (positionRow "staff" "name" (some 2)) ∧
      ∃ all, (columnOrder staffRows).get? "public.staff" = some all ∧
        ["id", "name"].Sublist all := by
  intro own
  have hown : own = [positionRow "staff" "name" (some 2), positionRow "staff" "id" none,
      positionRow "staff" "id" (some 1)] := by decide +kernel
  have hid : ColumnRow.FirstOfLeast own "id" 2 (positionRow "staff" "id" (some 1)) := by
    rw [hown]
    refine ⟨rfl, rfl, by decide, fun k hk q hq hname => ?_⟩
    match k with
    | 0 =>
        obtain rfl := Option.some.inj hq
        exact absurd hname (by decide)
    | 1 =>
        obtain rfl := Option.some.inj hq
        decide
  have hname : ColumnRow.FirstOfLeast own "name" 0 (positionRow "staff" "name" (some 2)) := by
    rw [hown]
    exact ⟨rfl, rfl, by decide, fun k hk => absurd hk (Nat.not_lt_zero k)⟩
  have hkey : "public.staff" ∈ (columnOrder staffRows).keys :=
    mem_keys_columnOrder.2 ⟨positionRow "staff" "name" (some 2), by simp [staffRows],
      by decide +kernel⟩
  obtain ⟨all, hall⟩ := Option.isSome_iff_exists.1 (Keyed.isSome_get?_iff.2 hkey)
  obtain ⟨-, -, -, -, -, hprecedes⟩ := (groupings_agree staffRows).2 _ all hall
  exact ⟨hid, hname, all, hall, (hprecedes _ _ _ _ _ _ hid hname).2 (.inl (by decide))⟩

end TransferPlan
