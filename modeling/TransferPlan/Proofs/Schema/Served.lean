import TransferPlan.Proofs.Keyed
import TransferPlan.Proofs.Schema.Lookup

/-!
# The schema of a captured row

A captured constraint row is served under one schema and read under another: the former is looked
up under names spelled exactly so and is trimmed, the latter in any letter case and as it stands.
Captured rows give the constraints of the schemas that are asked for exactly if the two agree on
every row that says something (`ConstraintSet.forSchemas_filters_as_read_iff`).
-/

namespace TransferPlan

namespace Row

variable {r r' : Row} {key : String} {cells : List (String × Json)} {v : Json}

/-- The schema under which the constraints of a row are kept. -/
def readSchema (r : Row) : String := r.text ["schema_name", "table_schema"]

/-- The row is served under the schema under which its constraints are kept. -/
def ServedAsRead (r : Row) : Prop := r.servedSchema = r.readSchema

/-! ## Letter case of the keys -/

/-- The rows are the same but for the letter case of the names of their fields. -/
structure Respelled (r r' : Row) : Prop where
  fields : r.fields.map (fun f => (Text.lower f.1, f.2)) =
    r'.fields.map fun f => (Text.lower f.1, f.2)
  attributes : r.attributes = r'.attributes

theorem Respelled.cell?_eq (h : Respelled r r') : r.cell? = r'.cell? := by
  have hfield : r.field? = r'.field? := by
    unfold field?
    rw [h.fields]
  have hattribute : r.attribute? = r'.attribute? := by
    unfold attribute?
    rw [h.attributes]
  unfold cell?
  rw [hfield, hattribute]

theorem Respelled.agrees (h : Respelled r r') : r.Agrees r' :=
  fun names _ => congrFun h.cell?_eq names

theorem Respelled.readSchema_eq (h : Respelled r r') : r.readSchema = r'.readSchema :=
  h.agrees.text_eq (by decide)

/-! ## Tidy rows -/

/-- A captured row whose keys are in lower case and whose schema is trimmed text or null. -/
structure Tidy (r : Row) : Prop where
  captured : r.attributes = []
  keys : ∀ f ∈ r.fields, Text.lower f.1 = f.1
  schema : ∀ f ∈ r.fields, f.1 = "schema_name" ∨ f.1 = "table_schema" →
    f.2 = .null ∨ ∃ s, f.2 = .string s ∧ Text.trim s = s

theorem Tidy.eq_string (h : r.Tidy) (hkey : key = "schema_name" ∨ key = "table_schema")
    (hv : lastCell? key r.fields = some v) : ∃ s, v = .string s ∧ Text.trim s = s := by
  obtain ⟨f, hf, rfl, hnull⟩ := mem_of_lastCell? hv
  rcases h.schema f hf hkey with hf | ⟨s, hf, hs⟩
  · rw [hf] at hnull
    exact nomatch hnull
  · rw [hf] at hnull
    exact ⟨s, (Option.some.inj hnull).symm, hs⟩

theorem Tidy.cell?_schema (h : r.Tidy) :
    r.cell? ["schema_name", "table_schema"] =
      (lastCell? "schema_name" r.fields).or (lastCell? "table_schema" r.fields) := by
  have hfields : r.fields.map (fun f => (Text.lower f.1, f.2)) = r.fields := by
    conv_rhs => rw [← List.map_id r.fields]
    exact List.map_congr_left fun f hf => Prod.ext (h.keys f hf) rfl
  have hfield : ∀ name, r.field? name = lastCell? name r.fields := by
    intro name
    rw [field?, hfields]
  rw [cell?_of_attributes_eq_nil h.captured, List.findSome?_cons, List.findSome?_cons,
    List.findSome?_nil, hfield, hfield]
  cases lastCell? "schema_name" r.fields <;> cases lastCell? "table_schema" r.fields <;> rfl

theorem Tidy.servedAsRead (h : r.Tidy) : r.ServedAsRead := by
  unfold ServedAsRead readSchema text servedSchema
  rw [h.cell?_schema]
  cases hv : (lastCell? "schema_name" r.fields).or (lastCell? "table_schema" r.fields) with
  | none => rfl
  | some v =>
      obtain ⟨s, rfl, hs⟩ : ∃ s, v = .string s ∧ Text.trim s = s := by
        rcases Option.or_eq_some_iff.1 hv with hv | ⟨-, hv⟩
        · exact h.eq_string (.inl rfl) hv
        · exact h.eq_string (.inr rfl) hv
      show Text.trim s = if (s == "") = true then "" else s
      rw [hs]
      split_ifs with hempty
      · exact eq_of_beq hempty
      · rfl

end Row

namespace ConstraintSet

variable {rows rows' : List Row} {schemas : List String}

/-- Takes in a row. -/
def addRow (s : ConstraintSet) (r : Row) : Except ConstraintError ConstraintSet :=
  (Constraint.ofRow r).map fun c => c.elim s (s.add (constraintTable r))

theorem ofRows_eq_foldlM (rows : List Row) : ofRows rows = rows.foldlM addRow {} := by
  unfold ofRows
  congr 1
  funext s r
  unfold addRow
  rcases Constraint.ofRow r with e | _ | c <;> rfl

theorem addRow_of_silent {r : Row} (h : Constraint.ofRow r = .ok none) (s : ConstraintSet) :
    s.addRow r = .ok s := by
  rw [addRow, h]
  rfl

theorem add_ne_empty (t : String) (c : Constraint) : add {} t c ≠ {} := by
  intro h
  cases c with
  | foreignKey key => exact Keyed.alter_ne_empty .empty t [] (· ++ [key]) (congrArg foreignKeys h)
  | primaryKey columns =>
      exact Keyed.alter_ne_empty .empty t [] (fun old : List String => (old ++ columns).eraseDups)
        (congrArg primaryKeys h)
  | unique columns =>
      exact Keyed.alter_ne_empty .empty t [] (· ++ [columns.eraseDups]) (congrArg uniques h)

/-- A row gives no constraints exactly if it says nothing. -/
theorem ofRows_singleton_eq_empty_iff {r : Row} :
    ofRows [r] = .ok {} ↔ Constraint.ofRow r = .ok none := by
  rw [ofRows_eq_foldlM, List.foldlM_cons]
  simp only [List.foldlM_nil, bind_pure, addRow]
  rcases Constraint.ofRow r with e | _ | c
  · exact iff_of_false nofun nofun
  · exact iff_of_true rfl rfl
  · exact iff_of_false (fun h => add_ne_empty _ c (Except.ok.inj h)) nofun

theorem forSchemas_of_ne_nil (h : schemas ≠ []) :
    forSchemas ⟨true, rows⟩ schemas =
      ofRows (rows.filter fun r => schemas.contains r.servedSchema) := by
  unfold forSchemas RowSource.forSchemas
  rw [if_neg (by simpa using h), if_pos rfl]

/-- Rows that are served as they are read, or say nothing, are filtered as they are read. -/
theorem forSchemas_of_servedAsRead
    (hrows : ∀ r ∈ rows, r.ServedAsRead ∨ Constraint.ofRow r = .ok none) (h : schemas ≠ []) :
    forSchemas ⟨true, rows⟩ schemas =
      ofRows (rows.filter fun r => schemas.contains r.readSchema) := by
  rw [forSchemas_of_ne_nil h, ofRows_eq_foldlM, ofRows_eq_foldlM]
  refine foldlM_filter_congr (fun r hr => ?_) _
  rcases hrows r hr with hserved | hsilent
  · left
    rw [show r.servedSchema = r.readSchema from hserved]
  · exact .inr (addRow_of_silent hsilent)

/-- A row that says something and is filtered as it is read is served as it is read. -/
theorem servedAsRead_of_forSchemas {r : Row} (hheard : Constraint.ofRow r ≠ .ok none)
    (h : forSchemas ⟨true, [r]⟩ [r.readSchema] =
      ofRows ([r].filter fun r' => [r.readSchema].contains r'.readSchema)) : r.ServedAsRead := by
  by_contra hserved
  have hdropped : [r.readSchema].contains r.servedSchema = false := by
    unfold Row.ServedAsRead at hserved
    simpa using hserved
  have hkept : [r.readSchema].contains r.readSchema = true := by simp
  rw [forSchemas_of_ne_nil (List.cons_ne_nil _ _), List.filter_singleton, List.filter_singleton,
    hdropped, hkept] at h
  exact hheard (ofRows_singleton_eq_empty_iff.1 h.symm)

theorem ofRows_respelled (h : List.Forall₂ Row.Respelled rows rows') :
    ofRows rows = ofRows rows' :=
  ofRows_of_agrees (h.imp fun _ _ hr => hr.agrees)

theorem filter_readSchema_respelled (h : List.Forall₂ Row.Respelled rows rows')
    (schemas : List String) :
    List.Forall₂ Row.Respelled (rows.filter fun r => schemas.contains r.readSchema)
      (rows'.filter fun r => schemas.contains r.readSchema) := by
  refine List.rel_filter (fun r r' hr => ?_) h
  show schemas.contains r.readSchema = true ↔ schemas.contains r'.readSchema = true
  rw [hr.readSchema_eq]

/-- Captured rows, and any part of them, give the constraints of the rows that are read under one of
the schemas exactly if every row that says something is served under the schema under which it is
read.  Rows that differ in the letter case of their keys give the same constraints when they are
read, and also when they are served if that holds of them all.  It holds of tidy rows. -/
theorem forSchemas_filters_as_read_iff (rows : List Row) :
    ((∀ part, part.Sublist rows → ∀ schemas, schemas ≠ [] → forSchemas ⟨true, part⟩ schemas =
        ofRows (part.filter fun r => schemas.contains r.readSchema)) ↔
      ∀ r ∈ rows, r.ServedAsRead ∨ Constraint.ofRow r = .ok none) ∧
    (∀ rows', List.Forall₂ Row.Respelled rows rows' → ofRows rows = ofRows rows' ∧
      ((∀ r ∈ rows, r.ServedAsRead) → (∀ r ∈ rows', r.ServedAsRead) →
        ∀ schemas, forSchemas ⟨true, rows⟩ schemas = forSchemas ⟨true, rows'⟩ schemas)) ∧
    ∀ r ∈ rows, r.Tidy → r.ServedAsRead := by
  refine ⟨⟨fun h r hr => ?_, fun h part hpart schemas hne => ?_⟩, fun rows' hrows => ?_,
    fun r _ htidy => htidy.servedAsRead⟩
  · by_cases hheard : Constraint.ofRow r = .ok none
    · exact .inr hheard
    · exact .inl (servedAsRead_of_forSchemas hheard
        (h [r] (List.singleton_sublist.2 hr) _ (List.cons_ne_nil _ _)))
  · exact forSchemas_of_servedAsRead (fun r hr => h r (hpart.subset hr)) hne
  · refine ⟨ofRows_respelled hrows, fun hserved hserved' schemas => ?_⟩
    by_cases hne : schemas = []
    · rw [hne]
      rfl
    · rw [forSchemas_of_servedAsRead (fun r hr => .inl (hserved r hr)) hne,
        forSchemas_of_servedAsRead (fun r hr => .inl (hserved' r hr)) hne]
      exact ofRows_respelled (filter_readSchema_respelled hrows schemas)

/-- A primary key. -/
def userKey : Row where
  fields := [("table_schema", .string "public"), ("table_name", .string "users"),
    ("constraint_type", .string "PRIMARY KEY"), ("constraint_columns", .string "id")]

/-- The same with keys in upper case. -/
def shoutedUserKey : Row where
  fields := [("TABLE_SCHEMA", .string "public"), ("TABLE_NAME", .string "users"),
    ("CONSTRAINT_TYPE", .string "PRIMARY KEY"), ("CONSTRAINT_COLUMNS", .string "id")]

theorem shouted_key_is_not_served :
    Row.Respelled userKey shoutedUserKey ∧ shoutedUserKey.readSchema = "public" ∧
      (forSchemas ⟨true, [userKey]⟩ ["public"]).map (·.primaryKeys.get? "public.users") =
        .ok (some ["id"]) ∧
      (ofRows [shoutedUserKey]).map (·.primaryKeys.get? "public.users") = .ok (some ["id"]) ∧
      forSchemas ⟨true, [shoutedUserKey]⟩ ["public"] = .ok {} := by
  have hkeys : ["table_schema", "table_name", "constraint_type", "constraint_columns"].map
      Text.lower = ["TABLE_SCHEMA", "TABLE_NAME", "CONSTRAINT_TYPE", "CONSTRAINT_COLUMNS"].map
      Text.lower := by
    decide +kernel
  simp only [List.map_cons, List.map_nil, List.cons.injEq, and_true] at hkeys
  obtain ⟨hschema, htable, htype, hcolumns⟩ := hkeys
  have hrespelled : Row.Respelled userKey shoutedUserKey := by
    refine ⟨?_, rfl⟩
    simp only [userKey, shoutedUserKey, List.map_cons, List.map_nil, hschema, htable, htype,
      hcolumns]
  refine ⟨hrespelled, by decide +kernel, by decide +kernel, by decide +kernel, ?_⟩
  have hserved : shoutedUserKey.servedSchema = "" := by decide +kernel
  rw [forSchemas_of_ne_nil (List.cons_ne_nil _ _), List.filter_singleton, hserved]
  rfl

end ConstraintSet

end TransferPlan
