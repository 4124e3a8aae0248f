import TransferPlan.Proofs.Keyed
import TransferPlan.Proofs.Schema.Unreadable
import TransferPlan.Proofs.Text.Trimmed

/-!
# Folding constraint rows

Rows whose lists can be read are refused for the first foreign key with a target whose lists differ
in length, and for nothing else.  Otherwise each table has what its own rows report
(`ConstraintSet.folds_foldl`), a foreign key comes with as many flags and referenced columns as it
has columns (`ForeignKey.wellFormed_reported`), and a table does not notice how its rows are mixed
with those of others.  `ConstraintSet.ofRows_per_table` says all of it.
-/

namespace TransferPlan

/-! ## Cells -/

namespace Row

variable {r : Row} {name : String}

/-- The names that a cell lists, none if it is not text. -/
def listed (r : Row) (name : String) : List String :=
  match r.cell? [name] with
  | some (.string s) => Text.names "," s
  | _ => []

theorem names_eq_listed (h : r.Lists name) : r.names name = .ok (r.listed name) := by
  unfold Lists at h
  unfold names listed
  generalize r.cell? [name] = cell at h
  rcases cell with _ | v
  · rfl
  · cases v with
    | string s => rfl
    | _ => exact if_pos ((h _ rfl).resolve_right nofun)

theorem lists_of_names {l : List String} (h : r.names name = .ok l) : r.Lists name := by
  by_contra hlists
  exact nomatch h.symm.trans (names_eq_error_iff.2 ⟨hlists, rfl⟩)

instance (r : Row) (name : String) : Decidable (r.Lists name) :=
  decidable_of_iff (r.names name = .ok (r.listed name)) ⟨lists_of_names, names_eq_listed⟩

/-- The columns that a constraint row is about. -/
def constrained (r : Row) : List String := r.listed "constraint_columns"

/-- The columns that they reference. -/
def referenced (r : Row) : List String := r.listed "referenced_columns"

/-- The words that say of each column whether it may be null. -/
def nullability (r : Row) : List String := r.listed "constraint_columns_nullability"

theorem isName_of_trimmed? {fields : List String} {s : String} (h : r.trimmed? fields = some s) :
    Text.IsName s := by
  obtain ⟨v, -, hv⟩ := Option.bind_eq_some_iff.1 h
  exact Text.isName_of_trim? hv

theorem isName_of_mem_listed {s : String} (h : s ∈ r.listed name) : Text.IsName s := by
  unfold listed at h
  split at h
  · exact Text.isName_of_mem_names h
  · exact absurd h List.not_mem_nil

end Row

theorem constraintNames_eq_listed {r : Row} {name : String} (h : r.Lists name) :
    constraintNames r name = .ok (r.listed name) :=
  mapError_eq_ok_iff.2 (Row.names_eq_listed h)

/-! ## Kinds of rows -/

theorem Text.eq_of_isWord {s word word' : String} (h : Text.isWord word s = true)
    (h' : Text.isWord word' s = true) : word = word' :=
  String.toList_inj.1 ((eq_of_beq h).symm.trans (eq_of_beq h'))

namespace Constraint

/-- The row is about a constraint of the given kind. -/
def IsOfKind (kind : String) (r : Row) : Prop :=
  Text.isWord kind ((r.trimmed? ["constraint_type"]).getD "") = true

instance (kind : String) : DecidablePred (IsOfKind kind) :=
  fun _ => inferInstanceAs (Decidable (_ = _))

theorem IsOfKind.unique {kind kind' : String} {r : Row} (h : IsOfKind kind r)
    (h' : IsOfKind kind' r) : kind = kind' :=
  Text.eq_of_isWord h h'

instance : DecidablePred IsForeignKey := fun r => inferInstanceAs (Decidable (IsOfKind _ r))

end Constraint

/-! ## Foreign keys -/

namespace ForeignKey

variable {r : Row} {e : ConstraintError}

theorem hasTarget_iff : HasTarget r ↔
    (r.trimmed? ["referenced_table"]).isSome ∧ r.referenced ≠ [] := by
  unfold HasTarget Row.referenced
  rw [Option.isSome_iff_exists]
  refine and_congr_right fun _ => ⟨?_, fun h => ⟨_, Row.names_eq_listed fun v hv => ?_, h⟩⟩
  · rintro ⟨targets, htargets, hne⟩
    rw [Row.names_eq_listed (Row.lists_of_names htargets)] at htargets
    exact Except.ok.inj htargets ▸ hne
  · unfold Row.listed at h
    rw [hv] at h
    cases v with
    | string s => exact .inr ⟨s, rfl⟩
    | _ => exact absurd rfl h

instance : DecidablePred HasTarget := fun _ => decidable_of_iff _ hasTarget_iff.symm

instance : DecidablePred Lists := fun r =>
  decidable_of_iff (r.Lists "referenced_columns" ∧
    (HasTarget r → r.Lists "constraint_columns_nullability"))
    ⟨fun h => ⟨h.1, h.2⟩, fun h => ⟨h.targets, h.flags⟩⟩

/-- The row reports a foreign key. -/
def Reports (r : Row) : Prop := Constraint.IsForeignKey r ∧ HasTarget r

instance : DecidablePred Reports := fun _ => inferInstanceAs (Decidable (_ ∧ _))

/-- The key that a row reports. -/
def reported (r : Row) : ForeignKey where
  columns := r.constrained
  required := r.nullability.map (Text.isWord "NOT NULL")
  target := qualifiedTarget (r.trimmed? ["referenced_schema_name", "referenced_schema"])
    ((r.trimmed? ["referenced_table"]).getD "")
  targetColumns := r.referenced
  name := r.trimmed? ["constraint_name"]

/-- The row reports a foreign key with another number of referenced columns or of flags than of
columns. -/
def Mismatched (r : Row) : Prop :=
  Reports r ∧
    (r.constrained.length ≠ r.referenced.length ∨ r.constrained.length ≠ r.nullability.length)

instance : DecidablePred Mismatched := fun _ => inferInstanceAs (Decidable (_ ∧ _))

/-- The error names the key of the row, its table and the numbers that differ. -/
inductive Mismatch (r : Row) : ConstraintError → Prop
  | targets (h : r.constrained.length ≠ r.referenced.length) :
    Mismatch r (.targetCount (r.trimmed? ["constraint_name"]) (constraintTable r)
      r.constrained.length r.referenced.length)
  | flags (h : r.constrained.length = r.referenced.length)
    (h' : r.constrained.length ≠ r.nullability.length) :
    Mismatch r (.flagCount (r.trimmed? ["constraint_name"]) (constraintTable r)
      r.constrained.length r.nullability.length)

/-- What a row with a target gives: its key, unless the numbers differ. -/
theorem ofRow_eq_ite (h : Lists r) (ht : HasTarget r) (table : String) :
    ofRow r table (r.trimmed? ["constraint_name"]) r.constrained =
      if r.constrained.length ≠ r.referenced.length then
        .error (.targetCount (r.trimmed? ["constraint_name"]) table
          r.constrained.length r.referenced.length)
      else if r.constrained.length ≠ r.nullability.length then
        .error (.flagCount (r.trimmed? ["constraint_name"]) table
          r.constrained.length r.nullability.length)
      else .ok (some (reported r)) := by
  obtain ⟨hsome, hne⟩ := hasTarget_iff.1 ht
  obtain ⟨target, htarget⟩ := Option.isSome_iff_exists.1 hsome
  have hempty : ¬ r.referenced.isEmpty = true := by simpa using hne
  unfold ofRow reported
  rw [constraintNames_eq_listed h.targets, constraintNames_eq_listed (h.flags ht), htarget]
  show (if r.referenced.isEmpty = true then _ else _) = _
  rw [if_neg hempty]
  rfl

theorem exists_mismatch (h : Lists r) (hm : Mismatched r) :
    ∃ e, Mismatch r e ∧
      ofRow r (constraintTable r) (r.trimmed? ["constraint_name"]) r.constrained = .error e := by
  obtain ⟨⟨-, ht⟩, hne⟩ := hm
  rw [ofRow_eq_ite h ht]
  by_cases htargets : r.constrained.length = r.referenced.length
  · have hflags := hne.resolve_left (not_not_intro htargets)
    exact ⟨_, .flags htargets hflags, by rw [if_neg (not_not_intro htargets), if_pos hflags]⟩
  · exact ⟨_, .targets htargets, if_pos htargets⟩

theorem ofRow_of_not_mismatched (h : Lists r) (hr : Reports r) (hm : ¬ Mismatched r)
    (table : String) :
    ofRow r table (r.trimmed? ["constraint_name"]) r.constrained = .ok (some (reported r)) := by
  obtain ⟨htargets, hflags⟩ := not_or.1 fun hne => hm ⟨hr, hne⟩
  rw [ofRow_eq_ite h hr.2, if_neg htargets, if_neg hflags]

/-! ## Well-formed keys -/

/-- The lists of the key correspond by position, and its names are names. -/
structure WellFormed (k : ForeignKey) : Prop where
  columns_ne_nil : k.columns ≠ []
  length_required : k.required.length = k.columns.length
  length_targetColumns : k.targetColumns.length = k.columns.length
  isName : ∀ s ∈ k.target :: k.name.toList ++ k.columns ++ k.targetColumns, Text.IsName s

theorem isName_qualifiedTarget {schema : Option String} {table : String}
    (hschema : ∀ s, schema = some s → Text.IsName s) (htable : Text.IsName table) :
    Text.IsName (qualifiedTarget schema table) := by
  cases schema with
  | none => exact htable
  | some s =>
      have hs := hschema s rfl
      unfold qualifiedTarget TableName.key
      dsimp only
      rw [if_neg hs.1]
      split_ifs
      · exact htable
      · exact hs.append htable "."

theorem wellFormed_reported (hr : Reports r) (hm : ¬ Mismatched r) : (reported r).WellFormed := by
  obtain ⟨htargets, hflags⟩ := not_or.1 fun hne => hm ⟨hr, hne⟩
  rw [not_not] at htargets hflags
  obtain ⟨hsome, hne⟩ := hasTarget_iff.1 hr.2
  obtain ⟨target, htarget⟩ := Option.isSome_iff_exists.1 hsome
  refine ⟨fun h => hne ?_, ?_, htargets.symm, fun s hs => ?_⟩
  · have hlength : r.constrained.length = 0 := congrArg List.length h
    exact List.length_eq_zero_iff.1 (htargets.symm.trans hlength)
  · exact (List.length_map _).trans hflags.symm
  · have hqualified : Text.IsName (reported r).target := by
      unfold reported
      dsimp only
      rw [htarget]
      exact isName_qualifiedTarget (fun _ => Row.isName_of_trimmed?)
        (Row.isName_of_trimmed? htarget)
    simp only [List.cons_append, List.append_assoc, List.mem_cons, List.mem_append,
      Option.mem_toList] at hs
    rcases hs with rfl | hname | hcolumn | hcolumn
    · exact hqualified
    · exact Row.isName_of_trimmed? hname
    · exact Row.isName_of_mem_listed hcolumn
    · exact Row.isName_of_mem_listed hcolumn

end ForeignKey

/-! ## What a row says -/

namespace Constraint

variable {r : Row}

instance : DecidablePred Lists := fun r =>
  decidable_of_iff (r.Lists "constraint_columns" ∧ (IsForeignKey r → ForeignKey.Lists r))
    ⟨fun h => ⟨h.1, h.2⟩, fun h => ⟨h.columns, h.foreignKey⟩⟩

/-- What a row says that is not mismatched. -/
def said (r : Row) : Option Constraint :=
  if IsForeignKey r then
    if ForeignKey.HasTarget r then some (.foreignKey (ForeignKey.reported r)) else none
  else if IsOfKind "PRIMARY KEY" r then some (.primaryKey r.constrained)
  else if IsOfKind "UNIQUE" r then some (.unique r.constrained)
  else none

theorem ofRow_of_isForeignKey (h : Lists r) (hr : IsForeignKey r) :
    ofRow r = (ForeignKey.ofRow r (constraintTable r) (r.trimmed? ["constraint_name"])
      r.constrained).map (·.map .foreignKey) := by
  unfold ofRow Row.constrained
  rw [constraintNames_eq_listed h.columns]
  refine (if_pos hr).trans ?_
  cases ForeignKey.ofRow r _ _ _ <;> rfl

theorem exists_mismatch (h : Lists r) (hm : ForeignKey.Mismatched r) :
    ∃ e, ForeignKey.Mismatch r e ∧ ofRow r = .error e := by
  have hr : IsForeignKey r := hm.1.1
  obtain ⟨e, he, hread⟩ := ForeignKey.exists_mismatch (h.foreignKey hr) hm
  exact ⟨e, he, by rw [ofRow_of_isForeignKey h hr, hread]; rfl⟩

theorem ofRow_eq_said (h : Lists r) (hm : ¬ ForeignKey.Mismatched r) : ofRow r = .ok (said r) := by
  unfold said
  by_cases hr : IsForeignKey r
  · rw [ofRow_of_isForeignKey h hr, if_pos hr]
    have hlists := h.foreignKey hr
    by_cases ht : ForeignKey.HasTarget r
    · rw [ForeignKey.ofRow_of_not_mismatched hlists ⟨hr, ht⟩ hm, if_pos ht]
      rfl
    · rw [ForeignKey.ofRow_of_not_hasTarget (Row.names_eq_listed hlists.targets) ht, if_neg ht]
      rfl
  · unfold ofRow
    rw [constraintNames_eq_listed h.columns, if_neg hr]
    refine (if_neg hr).trans ?_
    show (if IsOfKind "PRIMARY KEY" r then _ else if IsOfKind "UNIQUE" r then _ else _) = _
    split_ifs <;> rfl

theorem mismatched_of_ofRow_eq_error (h : Lists r) {e : ConstraintError}
    (he : ofRow r = .error e) : ForeignKey.Mismatched r ∧ ForeignKey.Mismatch r e := by
  have hm : ForeignKey.Mismatched r :=
    by_contra fun hm => nomatch he.symm.trans (ofRow_eq_said h hm)
  obtain ⟨e', hnamed, he'⟩ := exists_mismatch h hm
  exact ⟨hm, Except.error.inj (he'.symm.trans he) ▸ hnamed⟩

end Constraint

namespace ConstraintSet

variable {rows rows' : List Row} {s s' : ConstraintSet} {t : String} {α : Type}

/-! ## Folding -/

/-- Takes in what a row says. -/
def report (s : ConstraintSet) (r : Row) : ConstraintSet :=
  match Constraint.said r with
  | some c => s.add (constraintTable r) c
  | none => s

theorem foreignKeys_report (s : ConstraintSet) (r : Row) :
    (s.report r).foreignKeys = if ForeignKey.Reports r then
      s.foreignKeys.alter (constraintTable r) [] (· ++ [ForeignKey.reported r])
      else s.foreignKeys := by
  unfold report Constraint.said
  by_cases hr : ForeignKey.Reports r
  · rw [if_pos hr, if_pos hr.1, if_pos hr.2]
    rfl
  · rw [if_neg hr]
    by_cases hf : Constraint.IsForeignKey r
    · rw [if_pos hf, if_neg fun ht => hr ⟨hf, ht⟩]
    · rw [if_neg hf]
      split_ifs <;> rfl

theorem primaryKeys_report (s : ConstraintSet) (r : Row) :
    (s.report r).primaryKeys = if Constraint.IsOfKind "PRIMARY KEY" r then
      s.primaryKeys.alter (constraintTable r) [] fun old => (old ++ r.constrained).eraseDups
      else s.primaryKeys := by
  unfold report Constraint.said
  by_cases hp : Constraint.IsOfKind "PRIMARY KEY" r
  · have hf : ¬ Constraint.IsForeignKey r := fun hf => absurd (hp.unique hf) (by decide)
    rw [if_neg hf, if_pos hp, if_pos hp]
    rfl
  · rw [if_neg hp, if_neg hp]
    split_ifs <;> rfl

theorem uniques_report (s : ConstraintSet) (r : Row) :
    (s.report r).uniques = if Constraint.IsOfKind "UNIQUE" r then
      s.uniques.alter (constraintTable r) [] (· ++ [r.constrained.eraseDups])
      else s.uniques := by
  unfold report Constraint.said
  by_cases hu : Constraint.IsOfKind "UNIQUE" r
  · have hf : ¬ Constraint.IsForeignKey r := fun hf => absurd (hu.unique hf) (by decide)
    have hp : ¬ Constraint.IsOfKind "PRIMARY KEY" r := fun hp => absurd (hu.unique hp) (by decide)
    rw [if_neg hf, if_neg hp, if_pos hu, if_pos hu]
    rfl
  · rw [if_neg hu, if_neg hu]
    split_ifs <;> rfl

theorem ofRows_eq_foldl (h : ∀ r ∈ rows, Constraint.Lists r)
    (hm : ∀ r ∈ rows, ¬ ForeignKey.Mismatched r) : ofRows rows = .ok (rows.foldl report {}) := by
  refine foldlM_eq_pure (fun r hr s => ?_) _
  rw [Constraint.ofRow_eq_said (h r hr) (hm r hr)]
  unfold report
  cases Constraint.said r <;> rfl

/-! ## Tables -/

/-- What the rows of a table that pass a test give together, if there are any. -/
def gathered (rows : List Row) (t : String) (p : Row → Prop) [DecidablePred p]
    (f : List Row → α) : Option α :=
  let own := (rows.filter (constraintTable · == t)).filter p
  if own.isEmpty then none else some (f own)

/-- The constraints of a table are those that its own rows report, in their order. -/
structure Folds (s : ConstraintSet) (rows : List Row) (t : String) : Prop where
  foreignKeys : s.foreignKeys.get? t =
    gathered rows t ForeignKey.Reports (·.map ForeignKey.reported)
  primaryKeys : s.primaryKeys.get? t = gathered rows t (Constraint.IsOfKind "PRIMARY KEY")
    fun own => (own.flatMap (·.constrained)).eraseDups
  uniques : s.uniques.get? t = gathered rows t (Constraint.IsOfKind "UNIQUE")
    (·.map fun r => r.constrained.eraseDups)

/-- Two sets say the same about a table. -/
structure AgreesOn (s s' : ConstraintSet) (t : String) : Prop where
  foreignKeys : s.foreignKeys.get? t = s'.foreignKeys.get? t
  primaryKeys : s.primaryKeys.get? t = s'.primaryKeys.get? t
  uniques : s.uniques.get? t = s'.uniques.get? t

theorem gathered_congr {p : Row → Prop} [DecidablePred p] {f : List Row → α}
    (h : rows.filter (constraintTable · == t) = rows'.filter (constraintTable · == t)) :
    gathered rows t p f = gathered rows' t p f := by
  unfold gathered
  rw [h]

theorem Folds.agreesOn (h : s.Folds rows t) (h' : s'.Folds rows' t)
    (hrows : rows.filter (constraintTable · == t) = rows'.filter (constraintTable · == t)) :
    s.AgreesOn s' t where
  foreignKeys := h.foreignKeys.trans ((gathered_congr hrows).trans h'.foreignKeys.symm)
  primaryKeys := h.primaryKeys.trans ((gathered_congr hrows).trans h'.primaryKeys.symm)
  uniques := h.uniques.trans ((gathered_congr hrows).trans h'.uniques.symm)

theorem get?_grouped_filter {p : Row → Prop} [DecidablePred p] (d : α) (f : Row → α → α) :
    (Keyed.grouped constraintTable d f (rows.filter p)).get? t =
      gathered rows t p fun own => own.foldl (fun v r => f r v) d := by
  have hkey : t ∈ (rows.filter p).map constraintTable ↔
      (rows.filter p).filter (constraintTable · == t) ≠ [] := by
    simp only [List.mem_map, ne_eq, List.filter_eq_nil_iff, beq_iff_eq, not_forall, not_not,
      exists_prop]
  rw [Keyed.get?_grouped, gathered, List.filter_comm (fun r => decide (p r))]
  by_cases hown : (rows.filter p).filter (constraintTable · == t) = []
  · rw [if_neg fun h => hkey.1 h hown, hown]
    rfl
  · rw [if_pos (hkey.2 hown), if_neg (mt List.isEmpty_iff.1 hown)]

/-- What becomes of one of the three maps. -/
theorem get?_foldl_report (view : ConstraintSet → Keyed α) {p : Row → Prop} [DecidablePred p]
    {d : α} {f : Row → α → α} (hempty : view {} = .empty)
    (h : ∀ s r, view (s.report r) =
      if p r then (view s).alter (constraintTable r) d (f r) else view s) :
    (view (rows.foldl report {})).get? t =
      gathered rows t p fun own => own.foldl (fun v r => f r v) d := by
  rw [foldl_view_of_filter view (g := fun m r => m.alter (constraintTable r) d (f r)) h, hempty]
  exact get?_grouped_filter d f

theorem folds_foldl (rows : List Row) (t : String) : (rows.foldl report {}).Folds rows t where
  foreignKeys := by
    rw [get?_foldl_report foreignKeys rfl foreignKeys_report]
    refine congrArg (gathered rows t _) (funext fun own => ?_)
    exact (foldl_view id (fun _ _ => rfl) own []).trans List.map_eq_flatMap.symm
  primaryKeys := by
    rw [get?_foldl_report primaryKeys rfl primaryKeys_report]
    refine congrArg (gathered rows t _) (funext fun own => ?_)
    exact foldl_eraseDups_append _ own []
  uniques := by
    rw [get?_foldl_report uniques rfl uniques_report]
    refine congrArg (gathered rows t _) (funext fun own => ?_)
    exact (foldl_view id (fun _ _ => rfl) own []).trans List.map_eq_flatMap.symm

/-! ## Refusals -/

theorem mismatched_of_ofRows_eq_error (h : ∀ r ∈ rows, Constraint.Lists r) {e : ConstraintError}
    (he : ofRows rows = .error e) : ∃ front r back, rows = front ++ r :: back ∧
      (∀ q ∈ front, ¬ ForeignKey.Mismatched q) ∧ ForeignKey.Mismatched r ∧
      ForeignKey.Mismatch r e := by
  obtain ⟨front, r, back, rfl, hfront, hr⟩ := ofRows_eq_error_iff.1 he
  refine ⟨front, r, back, rfl, fun q hq hm => ?_,
    Constraint.mismatched_of_ofRow_eq_error (h r (by simp)) hr⟩
  obtain ⟨e', -, he'⟩ := Constraint.exists_mismatch (h q (List.mem_append_left _ hq)) hm
  obtain ⟨c, hc⟩ := hfront q hq
  exact nomatch hc.symm.trans he'

theorem exists_ofRows_eq_error (h : ∀ r ∈ rows, Constraint.Lists r) {r : Row} (hr : r ∈ rows)
    (hm : ForeignKey.Mismatched r) : ∃ e, ofRows rows = .error e := by
  -- the first mismatched row is the one that the fold stops at
  have hfound : (rows.find? fun r => ForeignKey.Mismatched r).isSome :=
    List.find?_isSome.2 ⟨r, hr, decide_eq_true hm⟩
  obtain ⟨first, hfirst⟩ := Option.isSome_iff_exists.1 hfound
  obtain ⟨hm, front, back, rfl, hfront⟩ := List.find?_eq_some_iff_append.1 hfirst
  obtain ⟨e, -, he⟩ := Constraint.exists_mismatch (h first (by simp)) (of_decide_eq_true hm)
  refine ⟨e, ofRows_eq_error_iff.2 ⟨front, first, back, rfl, fun q hq => ?_, he⟩⟩
  have hq' : ¬ ForeignKey.Mismatched q := by simpa using hfront q hq
  exact ⟨_, Constraint.ofRow_eq_said (h q (List.mem_append_left _ hq)) hq'⟩

theorem ofRows_eq_error_iff_mismatched (h : ∀ r ∈ rows, Constraint.Lists r) :
    (∃ e, ofRows rows = .error e) ↔ ∃ r ∈ rows, ForeignKey.Mismatched r := by
  constructor
  · rintro ⟨e, he⟩
    obtain ⟨front, r, back, rfl, -, hm, -⟩ := mismatched_of_ofRows_eq_error h he
    exact ⟨r, by simp, hm⟩
  · rintro ⟨r, hr, hm⟩
    exact exists_ofRows_eq_error h hr hm

theorem wellFormed_of_folds (hm : ∀ r ∈ rows, ¬ ForeignKey.Mismatched r) (h : s.Folds rows t)
    {keys : List ForeignKey} (hkeys : s.foreignKeys.get? t = some keys) :
    ∀ k ∈ keys, k.WellFormed := by
  have hgathered := h.foreignKeys.symm.trans hkeys
  unfold gathered at hgathered
  dsimp only at hgathered
  split_ifs at hgathered
  obtain rfl := Option.some.inj hgathered
  intro k hk
  obtain ⟨r, hr, rfl⟩ := List.mem_map.1 hk
  obtain ⟨hr, hreports⟩ := List.mem_filter.1 hr
  have hr : r ∈ rows := List.mem_of_mem_filter hr
  exact ForeignKey.wellFormed_reported (of_decide_eq_true hreports) (hm r hr)

/-- Where the lists of constraint rows are text or blank, the rows are refused for the first
foreign key with a target whose lists differ in length, and for nothing else.  Otherwise each table
has what its own rows report, every foreign key is well-formed, and any rows that are the same
table by table, a reordering of these, give every table the same constraints. -/
theorem ofRows_per_table (h : ∀ r ∈ rows, Constraint.Lists r) :
    ((∃ e, ofRows rows = .error e) ↔ ∃ r ∈ rows, ForeignKey.Mismatched r) ∧
    (∀ e, ofRows rows = .error e → ∃ front r back, rows = front ++ r :: back ∧
      (∀ q ∈ front, ¬ ForeignKey.Mismatched q) ∧ ForeignKey.Mismatched r ∧
      ForeignKey.Mismatch r e) ∧
    ∀ s, ofRows rows = .ok s → (∀ t, s.Folds rows t) ∧
      (∀ t keys, s.foreignKeys.get? t = some keys → ∀ k ∈ keys, k.WellFormed) ∧
      ∀ rows', (∀ t, rows'.filter (constraintTable · == t) = rows.filter (constraintTable · == t)) →
        ∃ s', ofRows rows' = .ok s' ∧ ∀ t, s'.AgreesOn s t := by
  refine ⟨ofRows_eq_error_iff_mismatched h, fun e he => mismatched_of_ofRows_eq_error h he,
    fun s hs => ?_⟩
  have hm : ∀ r ∈ rows, ¬ ForeignKey.Mismatched r := fun r hr hm => by
    obtain ⟨e, he⟩ := exists_ofRows_eq_error h hr hm
    exact nomatch hs.symm.trans he
  have hfolds : ∀ t, s.Folds rows t := fun t => by
    rw [Except.ok.inj (hs.symm.trans (ofRows_eq_foldl h hm))]
    exact folds_foldl rows t
  refine ⟨hfolds, fun t keys => wellFormed_of_folds hm (hfolds t), fun rows' hrows => ?_⟩
  have hmem : ∀ r ∈ rows', r ∈ rows := fun r hr => by
    have hown : r ∈ rows'.filter (constraintTable · == constraintTable r) :=
      List.mem_filter.2 ⟨hr, beq_self_eq_true _⟩
    exact List.mem_of_mem_filter (hrows _ ▸ hown)
  have haccepted := ofRows_eq_foldl (fun r hr => h r (hmem r hr)) fun r hr => hm r (hmem r hr)
  exact ⟨_, haccepted, fun t => (folds_foldl rows' t).agreesOn (hfolds t) (hrows t)⟩

/-- A foreign key of two columns and a primary key that lists its column twice. -/
def orderRows : List Row :=
  [{ fields := [("schema_name", .string "public"), ("table_name", .string "orders"),
      ("constraint_name", .string "orders_user_fk"), ("constraint_type", .string "FOREIGN KEY"),
      ("constraint_columns", .string "user_id, region"),
      ("constraint_columns_nullability", .string "NOT NULL, NULL"),
      ("referenced_schema_name", .string "public"), ("referenced_table", .string "users"),
      ("referenced_columns", .string "id,region")] },
    { fields := [("schema_name", .string "public"), ("table_name", .string "orders"),
      ("constraint_type", .string "PRIMARY KEY"), ("constraint_columns", .string "id,id")] }]

theorem ofRows_per_table_orderRows : (∀ r ∈ orderRows, Constraint.Lists r) ∧
    ∃ s, ofRows orderRows = .ok s ∧
      s.foreignKeys.get? "public.orders" = some [{
        columns := ["user_id", "region"], required := [true, false]
        target := "public.users", targetColumns := ["id", "region"]
        name := some "orders_user_fk" }] ∧
      s.primaryKeys.get? "public.orders" = some ["id"] := by
  have hlists : ∀ r ∈ orderRows, Constraint.Lists r := by decide +kernel
  have hm : ¬ ∃ r ∈ orderRows, ForeignKey.Mismatched r := by decide +kernel
  obtain ⟨hrefused, -, haccepted⟩ := ofRows_per_table hlists
  refine ⟨hlists, ?_⟩
  cases hs : ofRows orderRows with
  | error e => exact absurd (hrefused.1 ⟨e, hs⟩) hm
  | ok s =>
      have hfolds := (haccepted s hs).1 "public.orders"
      refine ⟨s, rfl, hfolds.foreignKeys.trans ?_, hfolds.primaryKeys.trans ?_⟩ <;> decide +kernel

end ConstraintSet

end TransferPlan
