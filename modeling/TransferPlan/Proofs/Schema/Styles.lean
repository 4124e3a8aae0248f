import TransferPlan.Proofs.Schema.Lookup
import TransferPlan.Proofs.Text.Ascii
import Mathlib.Data.List.Forall2
import Mathlib.Data.List.Nodup

/-!
# Styles of rows

The cells of a row come as a dictionary, as an object with a mapping or as an object with
attributes.  In a dictionary or a mapping all names are put into lower case before a cell is looked
up; among attributes, a name is tried in lower case and then in upper case.  Of several names the
first that finds a cell counts.  If the names are in ASCII, each in one letter case throughout, and
no two differ in letter case only, then the same cells are found (`Row.Offers.agrees`), so the rows
say the same whatever the style of each (`styles_agree`).
-/

namespace TransferPlan

namespace Row

variable {r r' : Row} {cells : List (String × Json)} {f : String × Json} {name key : String}
  {v : Json}

/-- The name is in ASCII and in one letter case throughout. -/
def isUniformName (name : String) : Bool :=
  name.toList.all (·.toNat < 128) &&
    (name.toList.all (fun c => c.toLower == c) || name.toList.all fun c => c.toUpper == c)

/-- The cells of fields with uniform names, no two of which differ in letter case only. -/
structure Plain (cells : List (String × Json)) : Prop where
  names : ∀ f ∈ cells, isUniformName f.1 = true
  distinct : (cells.map fun f => Text.lower f.1).Nodup

/-- The styles in which a row offers its cells.  What an object has under the name `_mapping` is its
mapping and none of its attributes. -/
inductive Offers (cells : List (String × Json)) : Row → Prop where
  | dictionary : Offers cells { fields := cells }
  /-- Cells of the mapping may be attributes of the object as well. -/
  | mapping {attributes : List (String × Json)} (h : attributes ⊆ cells) :
      Offers cells { fields := cells, attributes }
  /-- No mapping is looked into, for want of one or because it is empty. -/
  | object : Offers cells { attributes := cells }

/-- The cell of the field is the value, if letter case is left out of account. -/
def Holds (cells : List (String × Json)) (name : String) (v : Json) : Prop :=
  ∃ f ∈ cells, Text.lower f.1 = name ∧ f.2.nonNull? = some v

/-! ## Letter case -/

theorem isFieldName_iff :
    isFieldName name = true ↔ ∀ c ∈ name.toList, c.toNat < 128 ∧ c.toLower = c := by
  simp [isFieldName]

theorem isUniformName_iff :
    isUniformName name = true ↔ (∀ c ∈ name.toList, c.toNat < 128) ∧
      ((∀ c ∈ name.toList, c.toLower = c) ∨ ∀ c ∈ name.toList, c.toUpper = c) := by
  simp [isUniformName]

theorem lower_toUpper (h : isFieldName name = true)
    (hascii : ∀ c ∈ name.toUpper.toList, c.toNat < 128) : Text.lower name.toUpper = name := by
  rw [← String.toList_inj, Text.toList_lower_of_ascii hascii, String.toUpper, String.toList_map,
    List.map_map]
  conv_rhs => rw [← List.map_id name.toList]
  refine List.map_congr_left fun c hc => ?_
  obtain ⟨hascii, hlower⟩ := isFieldName_iff.1 h c hc
  exact (Text.toLower_toUpper_of_ascii hascii).1.trans hlower

/-- In lower case a uniform name is a field name exactly if it is that name or has it in upper
case. -/
theorem lower_eq_iff {given : String} (h : isUniformName given = true)
    (hname : isFieldName name = true) :
    Text.lower given = name ↔ given = name ∨ given = name.toUpper := by
  obtain ⟨hascii, hcase⟩ := isUniformName_iff.1 h
  constructor
  · rintro rfl
    rcases hcase with hlower | hupper
    · left
      exact (Text.lower_of_ascii fun c hc => ⟨hascii c hc, hlower c hc⟩).symm
    · right
      rw [← String.toList_inj, String.toUpper, String.toList_map,
        Text.toList_lower_of_ascii hascii, List.map_map]
      conv_lhs => rw [← List.map_id given.toList]
      refine List.map_congr_left fun c hc => ?_
      exact (hupper c hc).symm.trans (Text.toLower_toUpper_of_ascii (hascii c hc)).2.symm
  · rintro (rfl | rfl)
    · exact Text.lower_of_ascii (isFieldName_iff.1 hname)
    · exact lower_toUpper hname hascii

theorem Plain.eq_of_lower_eq (h : Plain cells) {g : String × Json} (hf : f ∈ cells) (hg : g ∈ cells)
    (hfg : Text.lower f.1 = Text.lower g.1) : f = g :=
  List.inj_on_of_nodup_map h.distinct hf hg hfg

/-! ## Looking up a cell -/

theorem lastCell?_eq_some_iff (h : ∀ f ∈ cells, ∀ g ∈ cells, f.1 = g.1 → f = g) :
    lastCell? key cells = some v ↔ ∃ f ∈ cells, f.1 = key ∧ f.2.nonNull? = some v := by
  refine ⟨mem_of_lastCell?, fun ⟨f, hf, hkey, hv⟩ => ?_⟩
  have hsome : (cells.reverse.find? (·.1 == key)).isSome := by
    rw [List.find?_isSome]
    exact ⟨f, List.mem_reverse.2 hf, beq_iff_eq.2 hkey⟩
  obtain ⟨g, hg⟩ := Option.isSome_iff_exists.1 hsome
  have hgkey : g.1 = key := by simpa using List.find?_some hg
  obtain rfl : f = g :=
    h f hf g (List.mem_reverse.1 (List.mem_of_find?_eq_some hg)) (hkey.trans hgkey.symm)
  rw [lastCell?, hg]
  exact hv

theorem field?_eq_some_iff (h : Plain r.fields) :
    r.field? name = some v ↔ Holds r.fields name v := by
  rw [field?, lastCell?_eq_some_iff]
  · simp only [List.mem_map, exists_exists_and_eq_and]
    exact Iff.rfl
  · simp only [List.forall_mem_map, Prod.mk.injEq]
    intro f hf g hg hfg
    exact ⟨hfg, congrArg Prod.snd (h.eq_of_lower_eq hf hg hfg)⟩

theorem attribute?_eq_some_iff (h : Plain cells) (hr : r.attributes ⊆ cells)
    (hname : isFieldName name = true) :
    r.attribute? name = some v ↔ Holds r.attributes name v := by
  have hinj : ∀ f ∈ r.attributes, ∀ g ∈ r.attributes, f.1 = g.1 → f = g :=
    fun f hf g hg hfg => h.eq_of_lower_eq (hr hf) (hr hg) (congrArg Text.lower hfg)
  rw [attribute?, Option.or_eq_some_iff, lastCell?_eq_some_iff hinj, lastCell?_eq_some_iff hinj]
  constructor
  · rintro (⟨f, hf, hkey, hv⟩ | ⟨-, f, hf, hkey, hv⟩)
    · exact ⟨f, hf, (lower_eq_iff (h.names f (hr hf)) hname).2 (.inl hkey), hv⟩
    · exact ⟨f, hf, (lower_eq_iff (h.names f (hr hf)) hname).2 (.inr hkey), hv⟩
  · rintro ⟨f, hf, hlower, hv⟩
    cases hsome : lastCell? name r.attributes with
    | some w =>
        -- The attribute in lower case is the same one, since the names differ in more than case.
        obtain ⟨g, hg, hkey, hw⟩ := mem_of_lastCell? hsome
        obtain rfl : f = g := h.eq_of_lower_eq (hr hf) (hr hg)
          (hlower.trans ((lower_eq_iff (h.names g (hr hg)) hname).2 (.inl hkey)).symm)
        exact .inl ⟨f, hf, hkey, hv⟩
    | none =>
        rcases (lower_eq_iff (h.names f (hr hf)) hname).1 hlower with hkey | hkey
        · exact .inl ⟨f, hf, hkey, hv⟩
        · exact .inr ⟨rfl, f, hf, hkey, hv⟩

/-! ## Styles -/

/-- Attributes that are fields as well make no difference. -/
theorem cell?_of_attributes_subset (h : Plain r.fields) (hr : r.attributes ⊆ r.fields)
    {names : List String} (hnames : names.all isFieldName = true) :
    r.cell? names = names.findSome? r.field? := by
  unfold cell?
  cases hfields : names.findSome? r.field? with
  | some v => rfl
  | none =>
      refine List.findSome?_eq_none_iff.2 fun name hname => ?_
      refine Option.eq_none_iff_forall_ne_some.2 fun v hv => ?_
      obtain ⟨f, hf, hfound⟩ :=
        (attribute?_eq_some_iff h hr (List.all_eq_true.1 hnames name hname)).1 hv
      have hfield : r.field? name = some v := (field?_eq_some_iff h).2 ⟨f, hr hf, hfound⟩
      rw [List.findSome?_eq_none_iff.1 hfields name hname] at hfield
      exact nomatch hfield

theorem Offers.cell?_eq (h : Plain cells) (hr : Offers cells r) {names : List String}
    (hnames : names.all isFieldName = true) :
    r.cell? names = names.findSome? (Row.mk cells []).field? := by
  cases hr with
  | dictionary => exact cell?_of_attributes_eq_nil rfl names
  | mapping hsubset => exact cell?_of_attributes_subset h hsubset hnames
  | object =>
      rw [cell?_of_fields_eq_nil rfl names]
      refine findSome?_congr fun name hname => Option.ext fun v => ?_
      rw [attribute?_eq_some_iff h (List.Subset.refl _) (List.all_eq_true.1 hnames name hname),
        field?_eq_some_iff h]

theorem Offers.agrees (h : Plain cells) (hr : Offers cells r) (hr' : Offers cells r') :
    r.Agrees r' :=
  fun _ hnames => (hr.cell?_eq h hnames).trans (hr'.cell?_eq h hnames).symm

end Row

variable {sheets : List (List (String × Json))} {rows rows' : List Row}

theorem agrees_of_offers (h : ∀ cells ∈ sheets, Row.Plain cells)
    (hrows : List.Forall₂ Row.Offers sheets rows) (hrows' : List.Forall₂ Row.Offers sheets rows') :
    List.Forall₂ Row.Agrees rows rows' := by
  induction hrows generalizing rows' with
  | nil =>
      cases hrows'
      exact .nil
  | cons hr _ ih =>
      obtain ⟨hplain, h⟩ := List.forall_mem_cons.1 h
      cases hrows' with
      | cons hr' hrows' => exact .cons (hr.agrees hplain hr') (ih h hrows')

/-- Rows that offer the same plain cells, each in a style of its own, report the same columns to
every dialect, the same constraints and the same privileges, or cannot be read for the same
reason. -/
theorem styles_agree (h : ∀ cells ∈ sheets, Row.Plain cells)
    (hrows : List.Forall₂ Row.Offers sheets rows) (hrows' : List.Forall₂ Row.Offers sheets rows')
    (d : Option Dialect) :
    rows.mapM (ColumnRow.ofRow d) = rows'.mapM (ColumnRow.ofRow d) ∧
      ConstraintSet.ofRows rows = ConstraintSet.ofRows rows' ∧
      privileges rows = privileges rows' := by
  have hagree := agrees_of_offers h hrows hrows'
  exact ⟨ColumnRow.mapM_ofRow_of_agrees hagree d, ConstraintSet.ofRows_of_agrees hagree,
    privileges_of_agrees hagree⟩

/-- A computed key column that may be read, in upper case and under names that are tried last. -/
def shoutedCells : List (String × Json) :=
  [("TABLE_SCHEMA", .null), ("SCHEMA_NAME", .string "app"), ("TABLE_NAME", .string "users"),
    ("COLUMN_NAME", .string "id"), ("ORDINAL_POSITION", .string "2"),
    ("GENERATION_EXP", .string "uuid()"), ("CONSTRAINT_TYPE", .string "primary key"),
    ("CONSTRAINT_COLUMNS", .string "id"), ("PRIVILEGE_TYPE", .string "SELECT")]

/-- A column that may be written, in lower case. -/
def quietCells : List (String × Json) :=
  [("table_schema", .string "app"), ("table_name", .string "users"), ("column_name", .string "name"),
    ("ordinal_position", .int 1), ("generation_expression", .null),
    ("privilege_type", .string "UPDATE")]

theorem styles_agree_users :
    (∀ cells ∈ [shoutedCells, quietCells], Row.Plain cells) ∧
      ∀ rows ∈ [[{ attributes := shoutedCells }, { attributes := quietCells }],
          [{ fields := shoutedCells, attributes := shoutedCells }, { fields := quietCells }]],
        (rows.mapM (ColumnRow.ofRow (some .mysql))).map
            (·.map fun c => (c.tableKey, c.name, c.column.position, c.column.generated)) =
          .ok [("app.users", "id", some 2, some "uuid()"), ("app.users", "name", some 1, none)] ∧
        (ConstraintSet.ofRows rows).map (·.primaryKeys.get? "app.users") = .ok (some ["id"]) ∧
        (privileges rows).entries = [("users", ["SELECT"]), ("app.users", ["UPDATE"])] := by
  have hplain : ∀ cells ∈ [shoutedCells, quietCells], Row.Plain cells := by
    simp only [List.forall_mem_cons, List.not_mem_nil, false_imp_iff, implies_true, and_true]
    exact ⟨⟨by decide +kernel, by decide +kernel⟩, ⟨by decide +kernel, by decide +kernel⟩⟩
  obtain ⟨hcolumns, hconstraints, hprivileges⟩ := styles_agree hplain
    (.cons .object (.cons .object .nil))
    (.cons (.mapping (List.Subset.refl _)) (.cons .dictionary .nil)) (some .mysql)
  refine ⟨hplain, ?_⟩
  simp only [List.forall_mem_cons, List.not_mem_nil, false_imp_iff, implies_true, and_true,
    ← hcolumns, ← hconstraints, ← hprivileges, and_self]
  exact ⟨by decide +kernel, by decide +kernel, by decide +kernel⟩

end TransferPlan
