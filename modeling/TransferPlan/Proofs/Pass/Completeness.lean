import TransferPlan.Proofs.Pass.Precedence
import TransferPlan.Proofs.Pass.Reordered

/-!
# What an error excludes

Update passes come after all insert passes of their circle, and otherwise stand in the order of the
tables.  An order is found whenever some order with late updates is valid, unless an update pass
awaits another that stands behind it in the plan (`order_error_only_if`).
-/

namespace TransferPlan

open scoped List

/-- An update pass needs a column that the update pass of another table writes. -/
structure Pass.Awaits (p q : Pass) : Prop where
  update : p.kind = .update
  awaited : q.kind = .update
  other : p.table ≠ q.table
  need : ∃ n ∈ p.needs, n.table = q.table ∧ ∃ c ∈ n.columns, c ∈ q.writes

namespace Job

variable {j j' : Job} {line σ : List Pass} {p q : Pass}

/-- No update pass stands in front of an insert pass of its circle. -/
def UpdatesLate (j : Job) (σ : List Pass) : Prop :=
  σ.Pairwise fun p q => p.kind = .update → q.kind = .insert →
    ¬ (j.Reaches p.table q.table ∧ j.Reaches q.table p.table)

/-! ## Lines and valid orders -/

theorem updatesLate_of_lines (h : Lines (precedes j.components) j.plan line []) :
    j.UpdatesLate line := by
  refine List.pairwise_iff_forall_sublist.2 fun {p q} hpq hpk hqk hj => ?_
  have hpm : p ∈ j.plan := h.mem_pending (hpq.subset (by simp))
  have hqm : q ∈ j.plan := h.mem_pending (hpq.subset (by simp))
  obtain ⟨front, back, hl, hp, hq⟩ := List.cons_sublist_iff.1 hpq
  obtain ⟨done, rest, rfl⟩ := List.append_of_mem hp
  rw [List.singleton_sublist] at hq
  have hsplit : line = done ++ p :: (rest ++ back) := by simp [hl]
  have hprec : precedes j.components q p = true :=
    (precedes_iff_of_update hpm hpk hqm).2 ⟨hqk, hj⟩
  rw [h.before_eq_false hsplit (by simp [hq])] at hprec
  exact absurd hprec Bool.false_ne_true

/-- Update passes of one circle keep the order of the plan. -/
theorem update_mem_of_sublist (h : Lines (precedes j.components) j.plan line [])
    {done rest : List Pass} (hl : line = done ++ p :: rest) (hqp : [q, p] <+ j.plan)
    (hp : p.kind = .update) (hq : q.kind = .update)
    (hj : j.Reaches p.table q.table ∧ j.Reaches q.table p.table) : q ∈ done := by
  have hpm : p ∈ j.plan := hqp.subset (by simp)
  have hqm : q ∈ j.plan := hqp.subset (by simp)
  refine h.mem_of_sublist (nodup_plan j) hqp (fun i hi hiq => ?_) hl
  obtain ⟨hik, hqi, hiq⟩ := (precedes_iff_of_update hqm hq hi).1 hiq
  exact (precedes_iff_of_update hpm hp hi).2 ⟨hik, hj.1.trans hqi, hiq.trans hj.2⟩

/-- A line without stuck passes is valid if some order of the plan with late updates is. -/
theorem ordered_of_updatesLate (h : Lines (precedes j.components) j.plan line [])
    (hσ : σ.Perm j.plan) (ho : Pass.Ordered σ) (hlate : j.UpdatesLate σ)
    (hno : ∀ p q, [p, q] <+ j.plan → ¬ p.Awaits q) : Pass.Ordered line := by
  intro done p rest hsplit n hn
  have hp : p ∈ j.plan := h.mem_pending (by simp [hsplit])
  obtain ⟨all, he⟩ := exists_columns (table_mem_of_need hp hn)
  refine ⟨⟨_, insertPass_mem_of_need h hsplit hn he, rfl⟩, fun c hc => ?_⟩
  obtain ⟨front, back, rfl⟩ := List.append_of_mem (hσ.mem_iff.2 hp)
  obtain ⟨q, hq, hqn, hqc⟩ := (ho front p back rfl n hn).written c hc
  refine ⟨q, ?_, hqn, hqc⟩
  have hqm : q ∈ j.plan := hσ.subset (List.mem_append_left _ hq)
  cases hqk : q.kind with
  | insert => exact h.mem_of_before hsplit hqm (precedes_of_need hp hqm hqk hn hqn)
  | update =>
      cases hpk : p.kind with
      | insert =>
          -- An update pass of the circle would stand behind `p`.
          have hout : ¬ j.Reaches n.table p.table := fun hback =>
            (List.pairwise_append.1 hlate).2.2 q hq p (by simp) hqk hpk
              (hqn ▸ ⟨hback, reaches_of_need hp hn⟩)
          exact h.mem_of_before hsplit hqm (precedes_of_need_of_not_reaches hp hpk hn hqn hout)
      | update =>
          have hne : q ≠ p := by
            rintro rfl
            exact (List.nodup_append.1 (hσ.nodup_iff.2 (nodup_plan j))).2.2 q hq q (by simp) rfl
          have htable : p.table ≠ q.table := fun e =>
            hne (eq_of_mem_plan hqm hp e.symm (hqk.trans hpk.symm))
          have hawaits : p.Awaits q := ⟨hpk, hqk, htable, n, hn, hqn.symm, c, hc, hqc⟩
          have hqp := (pair_sublist_or hqm hp hne).resolve_right (hno p q · hawaits)
          exact update_mem_of_sublist h hsplit hqp hpk hqk (hqn ▸ joined_of_need hp hpk hn)

/-- An order is found if some order of the plan with late updates is valid and no update pass
awaits one that stands behind it in the plan. -/
theorem exists_order_of_updatesLate (hplan : ∀ t ∈ j.tables, j.Plannable t) (hσ : σ.Perm j.plan)
    (ho : Pass.Ordered σ) (hlate : j.UpdatesLate σ)
    (hno : ∀ p q, [p, q] <+ j.plan → ¬ p.Awaits q) : ∃ line, j.order = .ok line :=
  exists_order hplan (fun _ => not_required_circle_of_ordered hσ ho)
    fun _ hl => ordered_of_updatesLate hl hσ ho hlate hno

/-! ## Errors -/

theorem Reordered.updatesLate_iff (h : Reordered j j') : j'.UpdatesLate σ ↔ j.UpdatesLate σ := by
  simp only [UpdatesLate, h.reaches_iff]

/-- Where no update pass awaits another, there is an order exactly when some order with late updates
is valid. -/
theorem exists_order_iff_updatesLate (hplan : ∀ t ∈ j.tables, j.Plannable t)
    (hno : ∀ p ∈ j.plan, ∀ q ∈ j.plan, ¬ p.Awaits q) :
    (∃ line, j.order = .ok line) ↔ ∃ σ, σ.Perm j.plan ∧ Pass.Ordered σ ∧ j.UpdatesLate σ := by
  constructor
  · rintro ⟨line, h⟩
    exact ⟨line, perm_of_order h, ordered_of_order h, updatesLate_of_lines (lines_of_order h)⟩
  · rintro ⟨σ, hσ, ho, hlate⟩
    exact exists_order_of_updatesLate hplan hσ ho hlate fun p q hpq =>
      hno p (hpq.subset (by simp)) q (hpq.subset (by simp))

/-- If the tables can be split but not ordered, no order of the passes with late updates is valid,
or an update pass awaits one that stands behind it; and where no update pass awaits another, the
order in which the tables are listed makes no difference. -/
theorem order_error_only_if {ps : List Pass} (h : j.passes j.components = .ok ps) :
    ((∃ e, j.order = .error e) →
      (∀ σ, σ.Perm ps → j.UpdatesLate σ → Pass.isValidOrder σ = false) ∨
        ∃ p q, [p, q] <+ ps ∧ p.Awaits q) ∧
    ((∀ p ∈ ps, ∀ q ∈ ps, ¬ p.Awaits q) → ∀ j', j.Reordered j' →
      ((∃ line, j'.order = .ok line) ↔ ∃ line, j.order = .ok line)) := by
  obtain ⟨hplan, rfl⟩ := passes_eq_ok_iff.1 h
  refine ⟨?_, fun hno j' hj => ?_⟩
  · rintro ⟨e, he⟩
    by_contra hcon
    rw [not_or] at hcon
    obtain ⟨hvalid, hawaits⟩ := hcon
    refine hvalid fun σ hσ hlate => Bool.not_eq_true _ ▸ fun hv => ?_
    obtain ⟨line, hline⟩ := exists_order_of_updatesLate hplan hσ ((Pass.isValidOrder_iff σ).1 hv)
      hlate fun p q hpq hpa => hawaits ⟨p, q, hpq, hpa⟩
    exact nomatch he.symm.trans hline
  · have hplan' : ∀ t ∈ j'.tables, j'.Plannable t := fun t ht =>
      (hj.plannable_iff (hj.mem_tables_iff.1 ht)).2 (hplan t (hj.mem_tables_iff.1 ht))
    have hno' : ∀ p ∈ j'.plan, ∀ q ∈ j'.plan, ¬ p.Awaits q := fun p hp q hq =>
      hno p (hj.plan_perm.subset hp) q (hj.plan_perm.subset hq)
    rw [exists_order_iff_updatesLate hplan' hno', exists_order_iff_updatesLate hplan hno]
    refine exists_congr fun σ => and_congr ?_ (and_congr_right fun _ => hj.updatesLate_iff)
    exact ⟨fun hσ => hσ.trans hj.plan_perm, fun hσ => hσ.trans hj.plan_perm.symm⟩

/-- An invoice goes to the owner of an account, who is a contact and may have a last invoice. -/
def invoicing : Job where
  foreignKeys := .ofList [
    ("account", [⟨["owner"], [false], "contact", ["id"], none⟩]),
    ("invoice", [⟨["owner"], [true], "account", ["owner"], none⟩]),
    ("contact", [⟨["last"], [false], "invoice", ["id"], none⟩])]
  primaryKeys := .ofList [("account", ["id"]), ("contact", ["id"])]
  columns := .ofList [("account", ["id", "owner"]), ("invoice", ["id", "owner"]),
    ("contact", ["id", "last"])]

theorem order_invoicing :
    invoicing.order =
      .error (.unmet ["account", "invoice", "contact", "account", "contact"]) := by
  decide +kernel

theorem order_error_only_if_invoicing :
    (∀ σ, σ.Perm invoicing.plan → invoicing.UpdatesLate σ → Pass.isValidOrder σ = false) ∧
      ∀ j', invoicing.Reordered j' → ¬ ∃ line, j'.order = .ok line := by
  have hpasses : invoicing.passes invoicing.components = .ok invoicing.plan := by decide +kernel
  have hno : ∀ p ∈ invoicing.plan, ∀ q ∈ invoicing.plan, ¬ p.Awaits q := by
    have hall : ∀ p ∈ invoicing.plan, ∀ q ∈ invoicing.plan, p.kind = .update → q.kind = .update →
        p.table ≠ q.table → ∀ n ∈ p.needs, n.table = q.table → ∀ c ∈ n.columns, c ∉ q.writes := by
      decide +kernel
    rintro p hp q hq ⟨hpk, hqk, hne, n, hn, hnq, c, hc, hcq⟩
    exact hall p hp q hq hpk hqk hne n hn hnq c hc hcq
  have hmain := order_error_only_if hpasses
  refine ⟨(hmain.1 ⟨_, order_invoicing⟩).resolve_right ?_, fun j' hj => ?_⟩
  · rintro ⟨p, q, hpq, hpa⟩
    exact hno p (hpq.subset (by simp)) q (hpq.subset (by simp)) hpa
  · rw [hmain.2 hno j' hj, order_invoicing]
    exact fun ⟨_, h⟩ => nomatch h

/-- Accounts and members reference each other; the key of the account leads to the deferred column
of the member. -/
def membership : Job where
  foreignKeys := .ofList [
    ("account", [⟨["member"], [false], "member", ["account"], none⟩]),
    ("member", [⟨["account"], [false], "account", ["id"], none⟩])]
  primaryKeys := .ofList [("account", ["id"]), ("member", ["id"])]
  columns := .ofList [("member", ["id", "account"]), ("account", ["id", "member"])]

/-- The same tables, accounts first. -/
def accountsFirst : Job :=
  { membership with
    columns := .ofList [("account", ["id", "member"]), ("member", ["id", "account"])] }

theorem order_membership :
    membership.order = .ok [membership.insertPass "member" ["id", "account"],
      membership.insertPass "account" ["id", "member"], membership.updatePass "member",
      membership.updatePass "account"] := by
  decide +kernel

theorem order_accountsFirst :
    accountsFirst.order = .error (.unmet ["account", "member", "account", "member"]) := by
  decide +kernel

/-- A valid order may fill in a column before the last insert pass of the circle, and it may need
the update passes in another order than that of the tables. -/
theorem valid_order_not_found :
    (¬ ∀ (j : Job) (ps σ : List Pass), j.passes j.components = .ok ps → σ.Perm ps →
      Pass.isValidOrder σ = true → ∃ line, j.order = .ok line) ∧
    ¬ ∀ (j j' : Job) (ps : List Pass), j.passes j.components = .ok ps → j.Reordered j' →
      ((∃ line, j'.order = .ok line) ↔ ∃ line, j.order = .ok line) := by
  constructor
  · intro hall
    obtain ⟨line, hline⟩ := hall invoicing invoicing.plan
      [invoicing.insertPass "account" ["id", "owner"],
        invoicing.insertPass "contact" ["id", "last"], invoicing.updatePass "account",
        invoicing.insertPass "invoice" ["id", "owner"], invoicing.updatePass "contact"]
      (by decide +kernel) (by decide +kernel) (by decide +kernel)
    exact nomatch order_invoicing.symm.trans hline
  · intro hall
    have hpasses : membership.passes membership.components = .ok membership.plan := by
      decide +kernel
    have hswap : membership.Reordered accountsFirst := ⟨rfl, rfl, rfl, .swap _ _ _⟩
    obtain ⟨line, hline⟩ := (hall _ _ _ hpasses hswap).2 ⟨_, order_membership⟩
    exact nomatch order_accountsFirst.symm.trans hline

end Job

end TransferPlan
