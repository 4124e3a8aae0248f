import TransferPlan.Proofs.Lists
import TransferPlan.Schema.Column
import TransferPlan.Schema.Constraint

/-!
# Rows that are looked up alike

All that is read of a row are the cells found under the names of fields, which are written in
lower-case ASCII.  So rows in which the same cells are found under all such names report the same
columns, constraints and privileges, or cannot be read for the same reason.
-/

namespace TransferPlan

namespace Row

variable {r r' : Row} {cells : List (String × Json)} {fields : List String} {name key : String}
  {v : Json}

/-! ## Looking up a cell -/

theorem mem_of_lastCell? (h : lastCell? key cells = some v) :
    ∃ c ∈ cells, c.1 = key ∧ c.2.nonNull? = some v := by
  obtain ⟨c, hc, hv⟩ := Option.bind_eq_some_iff.1 h
  have hkey : (c.1 == key) = true := by simpa using List.find?_some hc
  exact ⟨c, List.mem_reverse.1 (List.mem_of_find?_eq_some hc), eq_of_beq hkey, hv⟩

/-- Where there are only fields, they decide. -/
theorem cell?_of_attributes_eq_nil (h : r.attributes = []) (names : List String) :
    r.cell? names = names.findSome? r.field? := by
  have hattributes : names.findSome? r.attribute? = none := by
    refine List.findSome?_eq_none_iff.2 fun name _ => ?_
    rw [attribute?, h]
    rfl
  rw [cell?, hattributes, Option.or_none]

/-- Where there are only attributes, they decide. -/
theorem cell?_of_fields_eq_nil (h : r.fields = []) (names : List String) :
    r.cell? names = names.findSome? r.attribute? := by
  have hfields : names.findSome? r.field? = none := by
    refine List.findSome?_eq_none_iff.2 fun name _ => ?_
    rw [field?, h]
    rfl
  rw [cell?, hfields, Option.none_or]

/-- The name is in lower-case ASCII, as all names are that cells are looked up under. -/
def isFieldName (name : String) : Bool :=
  name.toList.all fun c => c.toNat < 128 && c.toLower == c

/-- The same cells are found in both rows. -/
def Agrees (r r' : Row) : Prop :=
  ∀ names : List String, names.all isFieldName = true → r.cell? names = r'.cell? names

namespace Agrees

/-! ## Cells -/

theorem text_eq (h : r.Agrees r') (hf : fields.all isFieldName = true) :
    r.text fields = r'.text fields := by
  unfold text
  rw [h fields hf]

theorem trimmed?_eq (h : r.Agrees r') (hf : fields.all isFieldName = true) :
    r.trimmed? fields = r'.trimmed? fields := by
  unfold trimmed?
  rw [h fields hf]

theorem names_eq (h : r.Agrees r') (hf : [name].all isFieldName = true) :
    r.names name = r'.names name := by
  unfold names
  rw [h [name] hf]

theorem whole?_eq (h : r.Agrees r') (hf : [name].all isFieldName = true) :
    r.whole? name = r'.whole? name := by
  unfold whole?
  rw [h [name] hf]

theorem grantsNull_eq (h : r.Agrees r') (hf : [name].all isFieldName = true) :
    r.grantsNull name = r'.grantsNull name := by
  unfold grantsNull
  rw [h [name] hf]

theorem isSet_eq (h : r.Agrees r') (hf : [name].all isFieldName = true) :
    r.isSet name = r'.isSet name := by
  unfold isSet
  rw [h [name] hf]

/-! ## Columns -/

theorem identity?_eq (h : r.Agrees r') (d : Dialect) : d.identity? r = d.identity? r' := by
  cases d <;> simp (disch := decide) only [Dialect.identity?, h.isSet_eq, h.trimmed?_eq]

theorem generated?_eq (h : r.Agrees r') (d : Dialect) : d.generated? r = d.generated? r' := by
  cases d <;> simp (disch := decide) only [Dialect.generated?, h.trimmed?_eq]

theorem columnRow_eq (h : r.Agrees r') (d : Option Dialect) :
    ColumnRow.ofRow d r = ColumnRow.ofRow d r' := by
  have hidentity : d.bind (·.identity? r) = d.bind (·.identity? r') :=
    congrArg d.bind (funext h.identity?_eq)
  have hgenerated : d.bind (·.generated? r) = d.bind (·.generated? r') :=
    congrArg d.bind (funext h.generated?_eq)
  unfold ColumnRow.ofRow
  simp (disch := decide) only [h.whole?_eq, h.text_eq, h.grantsNull_eq, hidentity,
    hgenerated]

/-! ## Constraints -/

theorem constraintNames_eq (h : r.Agrees r') (hf : [name].all isFieldName = true) :
    constraintNames r name = constraintNames r' name := by
  unfold constraintNames
  rw [h.names_eq hf]

theorem constraintTable_eq (h : r.Agrees r') : constraintTable r = constraintTable r' := by
  unfold constraintTable
  simp (disch := decide) only [h.text_eq]

theorem foreignKey_eq (h : r.Agrees r') (table : String) (label : Option String)
    (columns : List String) :
    ForeignKey.ofRow r table label columns = ForeignKey.ofRow r' table label columns := by
  unfold ForeignKey.ofRow
  simp (disch := decide) only [h.constraintNames_eq, h.trimmed?_eq]

theorem constraint_eq (h : r.Agrees r') : Constraint.ofRow r = Constraint.ofRow r' := by
  unfold Constraint.ofRow
  simp (disch := decide) only [h.constraintNames_eq, h.trimmed?_eq, h.constraintTable_eq,
    h.foreignKey_eq]

end Agrees

end Row

/-! ## Lists of rows -/

section Rows

variable {rows rows' : List Row}

theorem ColumnRow.mapM_ofRow_of_agrees (h : List.Forall₂ Row.Agrees rows rows')
    (d : Option Dialect) : rows.mapM (ofRow d) = rows'.mapM (ofRow d) :=
  mapM_forall₂_congr (h.imp fun _ _ hr => hr.columnRow_eq d)

theorem ConstraintSet.ofRows_of_agrees (h : List.Forall₂ Row.Agrees rows rows') :
    ofRows rows = ofRows rows' := by
  unfold ofRows
  refine foldlM_congr (fun {r r'} hr s => ?_) h _
  rw [hr.constraint_eq, hr.constraintTable_eq]

theorem privileges_of_agrees (h : List.Forall₂ Row.Agrees rows rows') :
    privileges rows = privileges rows' := by
  unfold privileges
  refine List.rel_foldl (P := Eq) (fun m m' hm r r' hr => ?_) rfl h
  subst hm
  have hcell : r.cell? ["privilege_type"] = r'.cell? ["privilege_type"] :=
    hr _ (by decide)
  simp (disch := decide) only [hr.text_eq, hcell]

end Rows

end TransferPlan
