import TransferPlan.Proofs.Lists
import TransferPlan.Schema.Column
import TransferPlan.Schema.Constraint

/-!
# Rows that cannot be read

Two kinds of cells stop the reading of a catalogue: an infinite number in a field for a whole
number, and a list of names that is neither text nor blank.  A row about a column stops at the
former (`ColumnRow.ofRow_eq_error_iff`), a row about a constraint at the latter
(`Constraint.ofRow_eq_unreadable_iff`).
-/

namespace TransferPlan

/-! ## Cells -/

namespace Row

variable {r : Row} {name : String} {e : CellError}

/-- The cell is an infinite number. -/
def IsInfinite (r : Row) (name : String) : Prop :=
  ∃ negative, r.cell? [name] = some (.float (.infinite negative))

/-- The cell is absent, blank or text, so that it lists names. -/
def Lists (r : Row) (name : String) : Prop :=
  ∀ v, r.cell? [name] = some v → v.isBlank = true ∨ ∃ s, v = .string s

theorem whole?_eq_error_iff : r.whole? name = .error e ↔ r.IsInfinite name ∧ e = .infinite := by
  unfold whole? IsInfinite
  generalize r.cell? [name] = cell
  rcases cell with _ | v
  · simp
  · cases v with
    | float x => cases x <;> simp [eq_comm]
    | _ => simp

theorem names_eq_error_iff : r.names name = .error e ↔ ¬ r.Lists name ∧ e = .notText := by
  have hother : ∀ v : Json, (∀ s, v ≠ .string s) →
      ((if v.isBlank then .ok [] else .error .notText : Except CellError (List String)) = .error e ↔
        ¬ (∀ w, some v = some w → w.isBlank = true ∨ ∃ s, w = .string s) ∧ e = .notText) := by
    intro v hv
    have hlists : (∀ w, some v = some w → w.isBlank = true ∨ ∃ s, w = .string s) ↔
        v.isBlank = true := by
      simp only [Option.some.injEq, forall_eq', hv, exists_false, or_false]
    rw [hlists]
    cases v.isBlank <;> simp [eq_comm]
  unfold names Lists
  generalize r.cell? [name] = cell
  rcases cell with _ | v
  · simp
  · cases v with
    | string s => simp
    | _ => exact hother _ nofun

theorem exists_names_of_lists (h : r.Lists name) : ∃ l, r.names name = .ok l := by
  cases hl : r.names name with
  | ok l => exact ⟨l, rfl⟩
  | error e => exact absurd h (names_eq_error_iff.1 hl).1

end Row

/-! ## Rows about columns -/

namespace ColumnRow

variable {d : Option Dialect} {r : Row} {e : CellError}

/-- The fields of a column that hold whole numbers. -/
def numbers : List String :=
  ["ordinal_position", "character_maximum_length", "numeric_precision", "numeric_scale"]

theorem ofRow_eq_error_iff :
    ofRow d r = .error e ↔ (∃ name ∈ numbers, r.IsInfinite name) ∧ e = .infinite := by
  have hread : ∀ {name : String} {Q : Prop} {f : Option Int → Except CellError ColumnRow},
      (∀ n e, f n = .error e ↔ Q ∧ e = .infinite) →
        ∀ e, (r.whole? name >>= f) = .error e ↔ (r.IsInfinite name ∨ Q) ∧ e = .infinite :=
    fun hf e => by
      rw [bind_eq_error_iff_of_error (fun _ => Row.whole?_eq_error_iff) fun n _ => hf n e]
      tauto
  have hdone : ∀ c e, (pure c : Except CellError ColumnRow) = .error e ↔ False ∧ e = .infinite :=
    fun c e => iff_of_false (fun h => nomatch h) fun h => h.1
  refine (hread (fun _ => hread fun _ => hread fun _ => hread fun _ => hdone _) e).trans ?_
  simp only [numbers, List.mem_cons, List.not_mem_nil, or_false, exists_eq_or_imp, exists_eq_left]

end ColumnRow

/-! ## Rows about constraints -/

theorem constraintNames_eq_error_iff {r : Row} {name : String} {e : ConstraintError} :
    constraintNames r name = .error e ↔ ¬ r.Lists name ∧ e = .unreadable .notText :=
  mapError_eq_error_iff_of_error fun _ => Row.names_eq_error_iff

namespace ForeignKey

variable {r : Row} {table : String} {name : Option String} {columns : List String} {e : CellError}

/-- The row names a referenced table and at least one column of it. -/
def HasTarget (r : Row) : Prop :=
  (∃ target, r.trimmed? ["referenced_table"] = some target) ∧
    ∃ targets, r.names "referenced_columns" = .ok targets ∧ targets ≠ []

/-- The lists of a foreign key can be read, those that are looked at. -/
structure Lists (r : Row) : Prop where
  targets : r.Lists "referenced_columns"
  flags : HasTarget r → r.Lists "constraint_columns_nullability"

theorem ofRow_of_not_hasTarget {targets : List String}
    (htargets : r.names "referenced_columns" = .ok targets) (h : ¬ HasTarget r) :
    ofRow r table name columns = .ok none := by
  unfold ofRow constraintNames
  rw [htargets]
  cases htarget : r.trimmed? ["referenced_table"] with
  | none => rfl
  | some target =>
      have hempty : targets = [] :=
        by_contra fun hne => h ⟨⟨target, htarget⟩, targets, htargets, hne⟩
      rw [hempty]
      rfl

theorem ofRow_of_hasTarget (h : HasTarget r) :
    ofRow r table name columns = .error (.unreadable e) ↔
      ¬ r.Lists "constraint_columns_nullability" ∧ e = .notText := by
  obtain ⟨⟨target, htarget⟩, targets, htargets, hne⟩ := h
  have hread : constraintNames r "referenced_columns" = .ok targets :=
    mapError_eq_ok_iff.2 htargets
  have hempty : ¬ targets.isEmpty = true := by simpa using hne
  unfold ofRow
  rw [hread, htarget]
  show (if targets.isEmpty = true then _ else _) = _ ↔ _
  rw [if_neg hempty]
  refine (bind_eq_error_iff_of_error (Q := False) (fun _ => constraintNames_eq_error_iff)
    fun flags _ => iff_false_intro fun h => ?_).trans ?_
  · split_ifs at h <;> exact nomatch h
  · simp

theorem ofRow_eq_unreadable_iff :
    ofRow r table name columns = .error (.unreadable e) ↔ ¬ Lists r ∧ e = .notText := by
  by_cases htargets : r.Lists "referenced_columns"
  · obtain ⟨targets, hread⟩ := Row.exists_names_of_lists htargets
    by_cases htarget : HasTarget r
    · rw [ofRow_of_hasTarget htarget]
      refine and_congr_left fun _ => not_congr ⟨fun h => ⟨htargets, fun _ => h⟩, fun h => ?_⟩
      exact h.flags htarget
    · rw [ofRow_of_not_hasTarget hread htarget]
      refine iff_of_false (fun h => nomatch h) fun h => ?_
      exact h.1 ⟨htargets, fun h => absurd h htarget⟩
  · have hread : constraintNames r "referenced_columns" = .error (.unreadable .notText) :=
      constraintNames_eq_error_iff.2 ⟨htargets, rfl⟩
    rw [ofRow, hread, and_iff_right fun h : Lists r => htargets h.targets]
    exact ⟨fun h => (ConstraintError.unreadable.inj (Except.error.inj h)).symm, fun h => h ▸ rfl⟩

end ForeignKey

namespace Constraint

variable {r : Row} {e : CellError}

/-- The row is about a foreign key. -/
def IsForeignKey (r : Row) : Prop :=
  Text.isWord "FOREIGN KEY" ((r.trimmed? ["constraint_type"]).getD "") = true

/-- The lists of the row can be read, those that are looked at. -/
structure Lists (r : Row) : Prop where
  columns : r.Lists "constraint_columns"
  foreignKey : IsForeignKey r → ForeignKey.Lists r

theorem ofRow_eq_unreadable_iff :
    ofRow r = .error (.unreadable e) ↔ ¬ Lists r ∧ e = .notText := by
  unfold ofRow
  refine (bind_eq_error_iff_of_error (Q := (IsForeignKey r ∧ ¬ ForeignKey.Lists r) ∧ e = .notText)
    (fun _ => constraintNames_eq_error_iff) fun columns _ => ?_).trans ?_
  · split
    · next hkind =>
      have hforeign : IsForeignKey r := hkind
      rw [bind_eq_error_iff, ForeignKey.ofRow_eq_unreadable_iff, and_iff_right hforeign]
      apply or_iff_left
      rintro ⟨key, -, h⟩
      exact nomatch h
    · next hkind =>
      refine iff_of_false (fun h => ?_) fun h => hkind h.1.1
      split_ifs at h <;> exact nomatch h
  · rw [ConstraintError.unreadable.injEq]
    have hlists : Lists r ↔ r.Lists "constraint_columns" ∧
        (IsForeignKey r → ForeignKey.Lists r) := ⟨fun h => ⟨h.1, h.2⟩, fun h => ⟨h.1, h.2⟩⟩
    rw [hlists]
    tauto

end Constraint

/-- The rows are refused for the first of them that is. -/
theorem ConstraintSet.ofRows_eq_error_iff {rows : List Row} {e : ConstraintError} :
    ofRows rows = .error e ↔ ∃ front r back, rows = front ++ r :: back ∧
      (∀ q ∈ front, ∃ c, Constraint.ofRow q = .ok c) ∧ Constraint.ofRow r = .error e := by
  refine foldlM_eq_error_iff fun s r e => ?_
  rw [bind_eq_error_iff]
  apply or_iff_left
  rintro ⟨c, -, h⟩
  cases c <;> exact nomatch h

end TransferPlan
