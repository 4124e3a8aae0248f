import TransferPlan.Proofs.Pass.Part

/-!
# Tables in another order

Two jobs may list the same tables in different orders.  Each is then a part of the other, so the
foreign keys that count, the circles that they run in and the passes of each table are the same;
only their place in the plan differs, and two orders hold the same passes (`order_perm`).
-/

namespace TransferPlan

namespace Job

/-- The second job lists the tables of the first in another order. -/
structure Reordered (j j' : Job) : Prop where
  foreignKeys : j'.foreignKeys = j.foreignKeys
  primaryKeys : j'.primaryKeys = j.primaryKeys
  filters : j'.filters = j.filters
  columns : j'.columns.entries.Perm j.columns.entries

namespace Reordered

variable {j j' : Job} {t r : String} {line line' : List Pass}

theorem mem_tables_iff (h : Reordered j j') : t ∈ j'.tables ↔ t ∈ j.tables :=
  (h.columns.map Prod.fst).mem_iff

/-- All tables are a part. -/
theorem part (h : Reordered j j') : Part j j' where
  columns _ he := h.columns.subset he
  closed _ _ _ hk := h.mem_tables_iff.2 hk.target
  foreignKeys t _ := by rw [h.foreignKeys]
  primaryKeys t _ := by rw [h.primaryKeys]
  filters t _ := by rw [h.filters]

theorem reaches_iff (h : Reordered j j') : j'.Reaches t r ↔ j.Reaches t r := by
  have href : j'.References = j.References := by
    funext a b
    refine propext (h.part.references_iff.trans (and_iff_right_of_imp ?_))
    rintro ⟨k, hk, -⟩
    exact h.mem_tables_iff.2 hk.owner
  rw [Reaches, Reaches, href]

theorem plannable_iff (h : Reordered j j') (ht : t ∈ j.tables) :
    j'.Plannable t ↔ j.Plannable t :=
  h.part.plannable_iff (h.mem_tables_iff.2 ht)

/-- The passes are the same, in another order. -/
theorem plan_perm (h : Reordered j j') : j'.plan.Perm j.plan := by
  rw [h.part.plan_eq]
  exact h.columns.flatMap_right _

/-- If there is an order for either listing of the tables, the two hold the same passes. -/
theorem order_perm (h : Reordered j j') (hline : j.order = .ok line)
    (hline' : j'.order = .ok line') : line'.Perm line :=
  calc line'.Perm j'.plan := perm_of_order hline'
    _ |>.Perm j.plan := h.plan_perm
    _ |>.Perm line := (perm_of_order hline).symm

/-- A class has a teacher and may have a room, and a teacher may lead a class. -/
def school (columns : Keyed (List String)) : Job where
  foreignKeys := .ofList [
    ("class", [⟨["teacher"], [true], "teacher", ["id"], none⟩,
      ⟨["room"], [false], "room", ["id"], none⟩]),
    ("teacher", [⟨["lead"], [false], "class", ["id"], none⟩])]
  primaryKeys := .ofList [("teacher", ["id"])]
  columns

theorem order_perm_school :
    let j := school (.ofList [("class", ["id", "teacher", "room"]), ("teacher", ["id", "lead"]),
      ("room", ["id"])])
    let j' := school (.ofList [("room", ["id"]), ("teacher", ["id", "lead"]),
      ("class", ["id", "teacher", "room"])])
    j.Reordered j' ∧ ∃ line line', j.order = .ok line ∧ j'.order = .ok line' ∧
      line.map (fun p => (p.table, p.kind)) = [("teacher", .insert), ("room", .insert),
        ("class", .insert), ("teacher", .update)] ∧
      line'.map (fun p => (p.table, p.kind)) = [("room", .insert), ("teacher", .insert),
        ("class", .insert), ("teacher", .update)] ∧
      line'.Perm line := by
  intro j j'
  have hline : j.order = .ok [j.insertPass "teacher" ["id", "lead"], j.insertPass "room" ["id"],
      j.insertPass "class" ["id", "teacher", "room"], j.updatePass "teacher"] := by
    decide +kernel
  have hline' : j'.order = .ok [j'.insertPass "room" ["id"], j'.insertPass "teacher" ["id", "lead"],
      j'.insertPass "class" ["id", "teacher", "room"], j'.updatePass "teacher"] := by
    decide +kernel
  have h : j.Reordered j' := ⟨rfl, rfl, rfl, by decide⟩
  exact ⟨h, _, _, hline, hline', rfl, rfl, h.order_perm hline hline'⟩

end Reordered

end Job

end TransferPlan
