import TransferPlan.Proofs.Pass.Plan

/-!
# Foreign keys are satisfied in order

A pass that writes a column of a foreign key comes after the passes that write the columns which
the key references (`references_written_before`).  The test of a finished order says so of the
needs that a pass carries; the point is that the pass carries the right ones, or stands behind
one that does: the update pass of a table comes after its insert pass, and so inherits what that
one has waited for.
-/

namespace TransferPlan

namespace Job

variable {j : Job} {line done rest : List Pass} {t : String} {k : ForeignKey} {p : Pass}

/-- When the insert pass of a table is done, the keys that it does not defer are satisfied. -/
theorem met_of_insertPass_mem (h : j.order = .ok line) {all : List String}
    (hl : line = done ++ rest) (hi : j.insertPass t all ∈ done) (hk : j.InJob t k)
    (hd : ¬ j.Deferrable t k) : Need.Met ⟨k.target, k.targetColumns⟩ done := by
  obtain ⟨front, back, rfl⟩ := List.append_of_mem hi
  refine (ordered_of_order h front (j.insertPass t all) (back ++ rest) (by simp [hl]) _
    ((mem_needs_insertPass hk.owner).2 ⟨k, ⟨hk, hd⟩, rfl⟩)).mono fun q hq => ?_
  exact List.mem_append_left _ hq

/-- Whatever pass writes a column of a foreign key, the columns that the key references have been
written before it. -/
theorem references_written_before (h : j.order = .ok line) (hk : j.InJob t k)
    (hl : line = done ++ p :: rest) (hp : p.table = t) (hc : ∃ c ∈ p.writes, c ∈ k.columns) :
    ∀ c ∈ k.targetColumns, ∃ q ∈ done, q.table = k.target ∧ c ∈ q.writes := by
  suffices hm : Need.Met ⟨k.target, k.targetColumns⟩ done from hm.written
  have hplan : p ∈ j.plan := (perm_of_order h).subset (hl ▸ List.mem_append_right _ (by simp))
  obtain ⟨all, he⟩ := exists_columns hk.owner
  subst hp
  cases hkind : p.kind with
  | insert =>
      have hpi := eq_insertPass hplan hkind he
      have hd : ¬ j.Deferrable p.table k := fun hd => by
        obtain ⟨c, hcw, hck⟩ := hc
        rw [hpi, mem_writes_insertPass hk.owner] at hcw
        exact hcw.2 ⟨k, hd, hck⟩
      refine ordered_of_order h _ _ _ hl _ ?_
      rw [hpi]
      exact (mem_needs_insertPass hk.owner).2 ⟨k, ⟨hk, hd⟩, rfl⟩
  | update =>
      have hpu := (eq_updatePass hplan hkind).2
      by_cases hd : j.Deferrable p.table k
      · refine ordered_of_order h _ _ _ hl _ ?_
        rw [hpu]
        exact (mem_needs_updatePass hk.owner).2 (.inr ⟨k, hd, rfl⟩)
      · -- A kept key shares a column with a deferred one: the insert pass has waited for it.
        exact met_of_insertPass_mem h hl
          (insertPass_mem_of_before (perm_of_order h) (ordered_of_order h) (hpu ▸ hl) he) hk hd

/-- A table whose deferred key and kept key share the column `manager`. -/
def sharedColumn : Job where
  foreignKeys := .ofList [("staff",
    [⟨["manager"], [false], "staff", ["id"], none⟩,
      ⟨["manager", "unit"], [false, true], "unit", ["head", "id"], none⟩])]
  primaryKeys := .ofList [("staff", ["id"])]
  columns := .ofList [("staff", ["id", "manager", "unit"]), ("unit", ["id", "head"])]

theorem references_written_before_shared_column :
    ∃ unit staff update : Pass, sharedColumn.order = .ok [unit, staff, update] ∧
      update.table = "staff" ∧ update.writes = ["manager"] ∧
      sharedColumn.InJob "staff"
        ⟨["manager", "unit"], [false, true], "unit", ["head", "id"], none⟩ ∧
      ∀ c ∈ ["head", "id"], ∃ q ∈ [unit, staff], q.table = "unit" ∧ c ∈ q.writes := by
  have h : sharedColumn.order = .ok
      [sharedColumn.insertPass "unit" ["id", "head"],
        sharedColumn.insertPass "staff" ["id", "manager", "unit"],
        sharedColumn.updatePass "staff"] := by decide +kernel
  have hk : sharedColumn.InJob "staff"
      ⟨["manager", "unit"], [false, true], "unit", ["head", "id"], none⟩ :=
    ⟨by decide, by decide, by decide, by decide, by decide, by decide⟩
  refine ⟨_, _, _, h, rfl, by decide +kernel, hk, ?_⟩
  exact references_written_before h hk (rfl : [_, _, _] = [_, _] ++ _ :: []) rfl
    ⟨"manager", by decide +kernel, by decide⟩

/-- A table references one whose key is the empty name. -/
def unnamedTarget : Job where
  foreignKeys := .ofList [("order", [⟨["user"], [true], "", ["id"], none⟩])]
  columns := .ofList [("order", ["id", "user"]), ("", ["id"])]

/-- A foreign key into a table with the empty name is not waited for. -/
theorem unnamed_target_not_awaited :
    ¬ ∀ (j : Job) (line : List Pass), j.order = .ok line →
      ∀ (t : String) (k : ForeignKey), t ∈ j.tables → k ∈ (j.foreignKeys.get? t).getD [] →
        k.target ∈ j.tables → k.columns ≠ [] → k.targetColumns ≠ [] →
        ∀ (done rest : List Pass) (p : Pass), line = done ++ p :: rest → p.table = t →
          (∃ c ∈ p.writes, c ∈ k.columns) →
          ∀ c ∈ k.targetColumns, ∃ q ∈ done, q.table = k.target ∧ c ∈ q.writes := by
  intro hall
  have h : unnamedTarget.order = .ok
      [unnamedTarget.insertPass "order" ["id", "user"], unnamedTarget.insertPass "" ["id"]] := by
    decide +kernel
  obtain ⟨q, hq, -⟩ := hall unnamedTarget _ h "order" ⟨["user"], [true], "", ["id"], none⟩
    (by decide) (by decide) (by decide) (by decide) (by decide) [] _ _ rfl rfl
    ⟨"user", by decide +kernel, by decide⟩ "id" (by decide)
  exact absurd hq List.not_mem_nil

end Job

end TransferPlan
