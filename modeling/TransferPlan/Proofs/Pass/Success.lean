import TransferPlan.Proofs.Pass.Precedence

/-!
# When a job can be ordered

On closed metadata a job is ordered exactly when no required foreign keys run in a circle and every
table with a deferrable key has a primary key (`order_succeeds_iff`).  Then nothing is stuck, and
each need is met: a column that is not deferred is written by the insert pass, and a deferred one
is only needed from outside the circle, after both passes.
-/

namespace TransferPlan

namespace Job

open Relation

variable {j : Job} {t c : String} {k : ForeignKey} {all : List String} {n : Need} {p q : Pass}
  {line : List Pass}

/-- The columns that keys lead to exist, and those that are needed while a circle is being filled
in are not deferred. -/
structure Closed (j : Job) : Prop where
  /-- A foreign key references columns of its target. -/
  referenced : ∀ t k all, j.InJob t k → (k.target, all) ∈ j.columns.entries →
    ∀ c ∈ k.targetColumns, c ∈ all
  /-- A key that runs in a circle references no column that its target defers. -/
  undeferred : ∀ t k, j.Circular t k → ∀ c ∈ k.targetColumns, ¬ j.Defers k.target c
  /-- The primary key of a table with a deferrable key has columns that are not deferred. -/
  keys : ∀ t all, (t, all) ∈ j.columns.entries → (∃ k, j.Deferrable t k) →
    ∀ c ∈ j.keyOf t, c ∈ all ∧ ¬ j.Defers t c

/-- Required keys do not run in a circle, and the rows of a table with a deferrable key can be
found. -/
structure Orderable (j : Job) : Prop where
  no_circle : ∀ t, ¬ TransGen j.Requires t t
  key_ne_nil : ∀ t, (∃ k, j.Deferrable t k) → j.keyOf t ≠ []

theorem Orderable.plannable (h : j.Orderable) (ht : t ∈ j.tables) : j.Plannable t := by
  refine (plannable_iff ht).2 ⟨fun k hk hd hself => ?_, h.key_ne_nil t⟩
  have hreq := requires_of_not_deferrable (circular_of_target_eq hk hself) hd
  rw [hself] at hreq
  exact h.no_circle t (.single hreq)

/-! ## Every need is met -/

/-- A column that a pass needs exists. -/
theorem Closed.mem_columns (h : j.Closed) (hp : p ∈ j.plan) (hn : n ∈ p.needs)
    (he : (n.table, all) ∈ j.columns.entries) (hc : c ∈ n.columns) : c ∈ all := by
  cases hk : p.kind with
  | insert =>
      obtain ⟨k, hkept, rfl⟩ := (mem_needs_of_insert hp hk).1 hn
      exact h.referenced _ k all hkept.1 he c hc
  | update =>
      have hd := (deferredOf_ne_nil_iff (table_mem_of_mem_plan hp)).1 (eq_updatePass hp hk).1
      rcases (mem_needs_of_update hp hk).1 hn with rfl | ⟨k, hk, rfl⟩
      · exact (h.keys _ all he hd c hc).1
      · exact h.referenced _ k all hk.1.1 he c hc

/-- A deferred column is needed by insert passes outside the circle only. -/
theorem Closed.insert_of_defers (h : j.Closed) (hp : p ∈ j.plan) (hn : n ∈ p.needs)
    (hc : c ∈ n.columns) (hd : j.Defers n.table c) :
    p.kind = .insert ∧ ¬ j.Reaches n.table p.table := by
  cases hk : p.kind with
  | insert =>
      obtain ⟨k, hkept, rfl⟩ := (mem_needs_of_insert hp hk).1 hn
      exact ⟨rfl, fun hr => h.undeferred _ k ⟨hkept.1, hr⟩ c hc hd⟩
  | update =>
      rcases (mem_needs_of_update hp hk).1 hn with rfl | ⟨k, hk, rfl⟩
      · obtain ⟨all, he⟩ := exists_columns (table_mem_of_mem_plan hp)
        obtain ⟨k, hk, -⟩ := id hd
        exact absurd hd (h.keys _ all he ⟨k, hk⟩ c hc).2
      · exact absurd hd (h.undeferred _ k hk.1 c hc)

theorem Closed.ordered (h : j.Closed) (hl : Lines (precedes j.components) j.plan line []) :
    Pass.Ordered line := by
  intro done p rest hsplit n hn
  have hp : p ∈ j.plan := hl.mem_pending (by simp [hsplit])
  have ht := table_mem_of_need hp hn
  obtain ⟨all, he⟩ := exists_columns ht
  have hins := insertPass_mem_of_need hl hsplit hn he
  refine ⟨⟨_, hins, rfl⟩, fun c hc => ?_⟩
  by_cases hd : j.Defers n.table c
  · have hup : j.updatePass n.table ∈ j.plan := by
      obtain ⟨k, hk, -⟩ := hd
      exact updatePass_mem_plan ht ((deferredOf_ne_nil_iff ht).2 ⟨k, hk⟩)
    obtain ⟨hk, hr⟩ := h.insert_of_defers hp hn hc hd
    exact ⟨_, hl.mem_of_before hsplit hup (precedes_of_need_of_not_reaches hp hk hn rfl hr), rfl,
      (mem_writes_updatePass ht).2 hd⟩
  · exact ⟨_, hins, rfl, (mem_writes_insertPass ht).2 ⟨h.mem_columns hp hn he hc, hd⟩⟩

/-! ## The condition -/

theorem orderable_of_order (h : j.order = .ok line) : j.Orderable where
  no_circle _ := not_required_circle_of_ordered (perm_of_order h) (ordered_of_order h)
  key_ne_nil t hd := by
    obtain ⟨k, hk⟩ := id hd
    have ht := hk.1.1.owner
    exact ((plannable_iff ht).1 ((order_eq_ok_iff.1 h).1 t ht)).2 hd

theorem Closed.exists_order (h : j.Closed) (ho : j.Orderable) : ∃ line, j.order = .ok line :=
  Job.exists_order (fun _ ht => ho.plannable ht) ho.no_circle fun _ hl => h.ordered hl

/-- On closed metadata the tables are ordered exactly when no required keys run in a circle and
each table with a deferrable key has a primary key; otherwise there is an error. -/
theorem order_succeeds_iff (h : j.Closed) :
    ((∃ line, j.order = .ok line) ↔ j.Orderable) ∧
      (¬ j.Orderable → ∃ e, j.order = .error e) := by
  have hiff : (∃ line, j.order = .ok line) ↔ j.Orderable :=
    ⟨fun ⟨_, hline⟩ => orderable_of_order hline, h.exists_order⟩
  refine ⟨hiff, fun hno => ?_⟩
  cases hord : j.order with
  | ok line => exact absurd (hiff.1 ⟨line, hord⟩) hno
  | error e => exact ⟨e, rfl⟩

/-- Employees belong to a department and may have a manager; a department may have a head. -/
def staffing : Job where
  foreignKeys := .ofList [
    ("department", [⟨["head"], [false], "employee", ["id"], none⟩]),
    ("employee", [⟨["department"], [true], "department", ["id"], none⟩,
      ⟨["manager"], [false], "employee", ["id"], none⟩])]
  primaryKeys := .ofList [("department", ["id"]), ("employee", ["id"])]
  columns := .ofList [("department", ["id", "head"]), ("employee", ["id", "department", "manager"])]

theorem staffing_keys (hk : staffing.InJob t k) :
    k.targetColumns = ["id"] ∧ "id" ∉ k.columns ∧ staffing.keyOf t = ["id"] ∧
      (k.Required → t = "employee" ∧ k.target = "department") := by
  have hall : ∀ t ∈ staffing.tables, ∀ k ∈ (staffing.foreignKeys.get? t).getD [],
      k.targetColumns = ["id"] ∧ "id" ∉ k.columns ∧ staffing.keyOf t = ["id"] ∧
        (true ∈ k.required → t = "employee" ∧ k.target = "department") := by
    decide +kernel
  exact hall t hk.owner k hk.owned

theorem closed_staffing : staffing.Closed := by
  have hid : ∀ e ∈ staffing.columns.entries, "id" ∈ e.2 := by decide +kernel
  have hdef : ∀ t, ¬ staffing.Defers t "id" := by
    rintro t ⟨k, hk, hc⟩
    exact (staffing_keys hk.1.1).2.1 hc
  refine ⟨fun t k all hk he c hc => ?_, fun t k hk c hc => ?_, fun t all he ⟨k, hk⟩ c hc => ?_⟩
  · rw [(staffing_keys hk).1, List.mem_singleton] at hc
    exact hc ▸ hid _ he
  · rw [(staffing_keys hk.1).1, List.mem_singleton] at hc
    exact hc ▸ hdef _
  · rw [(staffing_keys hk.1.1).2.2.1, List.mem_singleton] at hc
    exact hc ▸ ⟨hid _ he, hdef _⟩

theorem orderable_staffing : staffing.Orderable where
  no_circle t ht := by
    obtain ⟨r, ⟨k, hk, rfl, hreq⟩, hback⟩ := TransGen.head'_iff.1 ht
    obtain ⟨rfl, hr⟩ := (staffing_keys hk).2.2.2 hreq
    rw [hr] at hback
    -- No required key leads on from the department.
    rcases hback.cases_head with he | ⟨_, ⟨k', hk', -, hreq'⟩, -⟩
    · exact absurd he (by decide)
    · exact absurd ((staffing_keys hk').2.2.2 hreq').1 (by decide)
  key_ne_nil t := by
    rintro ⟨k, hk⟩
    rw [(staffing_keys hk.1.1).2.2.1]
    exact List.cons_ne_nil _ _

theorem order_succeeds_iff_staffing :
    staffing.Closed ∧ staffing.Orderable ∧ ∃ line, staffing.order = .ok line :=
  ⟨closed_staffing, orderable_staffing,
    (order_succeeds_iff closed_staffing).1.2 orderable_staffing⟩

/-- A table with the empty name references itself through a required key. -/
def unnamedRequired : Job where
  foreignKeys := .ofList [("", [⟨["parent"], [true], "", ["id"], none⟩])]
  columns := .ofList [("", ["id", "parent"])]

/-- A required key from a table with the empty name to itself is no obstacle. -/
theorem unnamed_required_self_ordered :
    ¬ ∀ (j : Job) (t : String) (k : ForeignKey) (all : List String),
      j.columns.entries = [(t, all)] → j.foreignKeys.entries = [(t, [k])] →
        k.target = t → k.columns ≠ [] → k.targetColumns ≠ [] →
        (∀ c ∈ k.targetColumns, c ∈ all) → k.Required → ¬ ∃ line, j.order = .ok line := by
  intro hall
  refine hall unnamedRequired "" ⟨["parent"], [true], "", ["id"], none⟩ ["id", "parent"] rfl rfl
    rfl (by decide) (by decide) (by decide) (by simp [ForeignKey.Required])
    ⟨[unnamedRequired.insertPass "" ["id", "parent"]], by decide +kernel⟩

end Job

end TransferPlan
