import TransferPlan.Proofs.Pass.Plan

/-!
# Precedence and circles of required keys

Which passes must precede a pass, in terms of the foreign keys.  Passes can be stuck only where
required foreign keys run in a circle (`exists_required_circle`), and then no valid order exists
(`not_required_circle_of_ordered`).
-/

namespace TransferPlan

namespace Job

open Relation

variable {j : Job} {t r : String} {k : ForeignKey} {all : List String} {n : Need} {p q : Pass}

/-- A foreign key with a required column leads from the one table to the other. -/
def Requires (j : Job) (t r : String) : Prop := ∃ k, j.InJob t k ∧ k.target = r ∧ k.Required

theorem circular_of_target_eq (hk : j.InJob t k) (ht : k.target = t) : j.Circular t k := by
  subst ht
  exact ⟨hk, .refl⟩

/-- A key that runs in a circle and is not deferred is required. -/
theorem requires_of_not_deferrable (hk : j.Circular t k) (hd : ¬ j.Deferrable t k) :
    j.Requires t k.target :=
  ⟨k, hk.1, rfl, not_not.1 fun h => hd ⟨hk, h⟩⟩

/-! ## What a pass needs -/

theorem mem_needs_of_insert (hp : p ∈ j.plan) (hk : p.kind = .insert) :
    n ∈ p.needs ↔ ∃ k, (j.InJob p.table k ∧ ¬ j.Deferrable p.table k) ∧
      ⟨k.target, k.targetColumns⟩ = n := by
  have ht := table_mem_of_mem_plan hp
  obtain ⟨all, he⟩ := exists_columns ht
  rw [eq_insertPass hp hk he]
  exact mem_needs_insertPass ht

theorem mem_needs_of_update (hp : p ∈ j.plan) (hk : p.kind = .update) :
    n ∈ p.needs ↔ n = ⟨p.table, j.keyOf p.table⟩ ∨
      ∃ k, j.Deferrable p.table k ∧ ⟨k.target, k.targetColumns⟩ = n := by
  rw [(eq_updatePass hp hk).2]
  exact mem_needs_updatePass (table_mem_of_mem_plan hp)

theorem table_mem_of_need (hp : p ∈ j.plan) (hn : n ∈ p.needs) : n.table ∈ j.tables := by
  cases hk : p.kind with
  | insert =>
      obtain ⟨k, hkept, rfl⟩ := (mem_needs_of_insert hp hk).1 hn
      exact hkept.1.target
  | update =>
      rcases (mem_needs_of_update hp hk).1 hn with rfl | ⟨k, hd, rfl⟩
      · exact table_mem_of_mem_plan hp
      · exact hd.1.1.target

/-- An update pass needs tables of its circle only. -/
theorem joined_of_need (hp : p ∈ j.plan) (hk : p.kind = .update) (hn : n ∈ p.needs) :
    j.Reaches p.table n.table ∧ j.Reaches n.table p.table := by
  rcases (mem_needs_of_update hp hk).1 hn with rfl | ⟨k, hd, rfl⟩
  · exact ⟨.refl, .refl⟩
  · exact ⟨hd.1.1.reaches, hd.1.2⟩

theorem reaches_of_need (hp : p ∈ j.plan) (hn : n ∈ p.needs) : j.Reaches p.table n.table := by
  cases hk : p.kind with
  | insert =>
      obtain ⟨k, hkept, rfl⟩ := (mem_needs_of_insert hp hk).1 hn
      exact hkept.1.reaches
  | update => exact (joined_of_need hp hk hn).1

/-! ## What must precede a pass -/

/-- An insert pass comes after the insert passes that it needs, and after the update passes of the
tables that it needs outside its circle. -/
theorem precedes_iff_of_insert (hp : p ∈ j.plan) (hk : p.kind = .insert) :
    precedes j.components q p = true ↔
      ∃ k, (j.InJob p.table k ∧ ¬ j.Deferrable p.table k) ∧ k.target = q.table ∧
        (q.kind = .insert ∨ ¬ j.Circular p.table k) := by
  have hjoins : ∀ k, j.InJob p.table k → k.target = q.table →
      (j.components.joins p.table q.table = true ↔ j.Circular p.table k) := by
    intro k hin hq
    rw [← hq, joins_iff hin.owner hin.target]
    exact ⟨fun h => ⟨hin, h.2⟩, fun h => ⟨hin.reaches, h.2⟩⟩
  have hneeds : p.needs.any (·.table == q.table) = true ↔
      ∃ k, (j.InJob p.table k ∧ ¬ j.Deferrable p.table k) ∧ k.target = q.table := by
    simp only [List.any_eq_true, mem_needs_of_insert hp hk, beq_iff_eq]
    constructor
    · rintro ⟨n, ⟨k, hkept, rfl⟩, hq⟩
      exact ⟨k, hkept, hq⟩
    · rintro ⟨k, hkept, hq⟩
      exact ⟨_, ⟨k, hkept, rfl⟩, hq⟩
  simp only [precedes, hk, Bool.and_eq_true, hneeds, Bool.or_eq_true, Bool.not_eq_true',
    ← Bool.not_eq_true, beq_iff_eq]
  constructor
  · rintro ⟨⟨k, hkept, hq⟩, h⟩
    exact ⟨k, hkept, hq, h.imp_right fun hj hc => hj ((hjoins k hkept.1 hq).2 hc)⟩
  · rintro ⟨k, hkept, hq, h⟩
    exact ⟨⟨k, hkept, hq⟩, h.imp_right fun hc hj => hc ((hjoins k hkept.1 hq).1 hj)⟩

/-- An update pass comes after the insert passes of its circle. -/
theorem precedes_iff_of_update (hp : p ∈ j.plan) (hk : p.kind = .update) (hq : q ∈ j.plan) :
    precedes j.components q p = true ↔
      q.kind = .insert ∧ j.Reaches p.table q.table ∧ j.Reaches q.table p.table := by
  simp only [precedes, hk, Bool.and_eq_true, beq_iff_eq,
    joins_iff (table_mem_of_mem_plan hp) (table_mem_of_mem_plan hq)]

/-- The insert pass of a table precedes each pass that needs the table. -/
theorem precedes_of_need (hp : p ∈ j.plan) (hq : q ∈ j.plan) (hk : q.kind = .insert)
    (hn : n ∈ p.needs) (hqn : q.table = n.table) : precedes j.components q p = true := by
  cases hpk : p.kind with
  | insert =>
      obtain ⟨k, hkept, rfl⟩ := (mem_needs_of_insert hp hpk).1 hn
      exact (precedes_iff_of_insert hp hpk).2 ⟨k, hkept, hqn.symm, .inl hk⟩
  | update => exact (precedes_iff_of_update hp hpk hq).2 ⟨hk, hqn ▸ joined_of_need hp hpk hn⟩

/-- Each pass over a table precedes the insert passes that need it from outside its circle. -/
theorem precedes_of_need_of_not_reaches (hp : p ∈ j.plan) (hk : p.kind = .insert)
    (hn : n ∈ p.needs) (hqn : q.table = n.table) (hr : ¬ j.Reaches n.table p.table) :
    precedes j.components q p = true := by
  obtain ⟨k, hkept, rfl⟩ := (mem_needs_of_insert hp hk).1 hn
  exact (precedes_iff_of_insert hp hk).2 ⟨k, hkept, hqn.symm, .inr fun hc => hr hc.2⟩

/-- In a line the insert pass of a table comes before each pass that needs the table. -/
theorem insertPass_mem_of_need {line stuck done rest : List Pass}
    (h : Lines (precedes j.components) j.plan line stuck) (hl : line = done ++ p :: rest)
    (hn : n ∈ p.needs) (he : (n.table, all) ∈ j.columns.entries) :
    j.insertPass n.table all ∈ done :=
  have hp : p ∈ j.plan := h.mem_pending (by simp [hl])
  h.mem_of_before hl (insertPass_mem_plan he)
    (precedes_of_need hp (insertPass_mem_plan he) rfl hn rfl)

/-! ## Circles -/

/-- A pass of the plan that must come before another. -/
structure Before (j : Job) (q p : Pass) : Prop where
  left : q ∈ j.plan
  right : p ∈ j.plan
  precedes : precedes j.components q p = true

namespace Before

theorem reaches (h : j.Before q p) : j.Reaches p.table q.table := by
  cases hk : p.kind with
  | insert =>
      obtain ⟨k, hkept, hkq, -⟩ := (precedes_iff_of_insert h.right hk).1 h.precedes
      exact hkq ▸ hkept.1.reaches
  | update => exact ((precedes_iff_of_update h.right hk h.left).1 h.precedes).2.1

theorem reaches_of_star (h : ReflTransGen j.Before q p) : j.Reaches p.table q.table := by
  induction h with
  | refl => exact .refl
  | tail _ e ih => exact e.reaches.trans ih

/-- Within a circle only insert passes must come before a pass. -/
theorem kind (h : j.Before q p) (hback : j.Reaches q.table p.table) : q.kind = .insert := by
  cases hk : p.kind with
  | insert =>
      obtain ⟨k, hkept, hkq, hkind⟩ := (precedes_iff_of_insert h.right hk).1 h.precedes
      exact hkind.resolve_right (not_not.2 ⟨hkept.1, hkq ▸ hback⟩)
  | update => exact ((precedes_iff_of_update h.right hk h.left).1 h.precedes).1

/-- Within a circle an insert pass waits along required keys. -/
theorem requires (h : j.Before q p) (hk : p.kind = .insert) (hback : j.Reaches q.table p.table) :
    j.Requires p.table q.table := by
  obtain ⟨k, ⟨hin, hd⟩, hkq, -⟩ := (precedes_iff_of_insert h.right hk).1 h.precedes
  exact hkq ▸ requires_of_not_deferrable ⟨hin, hkq ▸ hback⟩ hd

end Before

/-- Passes that wait for each other in a circle are over tables of a circle of required keys. -/
theorem required_circle_of_before (h : TransGen j.Before p p) :
    TransGen j.Requires p.table p.table := by
  -- Each pass of the circle is waited for within it, so it is an insert pass.
  have hinsert : ∀ {q p}, j.Before q p ∧ ReflTransGen j.Before p q → q.kind = .insert :=
    fun e => e.1.kind (Before.reaches_of_star e.2)
  have hback := transGen_self_and_back (transGen_self_and_back h)
  refine transGen_swap.1 (hback.lift Pass.table ?_)
  rintro q p ⟨e, hpq⟩
  refine e.1.requires ?_ (Before.reaches_of_star e.2)
  rcases hpq.cases_head with rfl | ⟨p', e', -⟩
  · exact hinsert e
  · exact hinsert e'

/-- If passes are stuck, required keys run in a circle. -/
theorem exists_required_circle {line stuck : List Pass}
    (h : Lines (precedes j.components) j.plan line stuck) (hs : stuck ≠ []) :
    ∃ t, TransGen j.Requires t t := by
  have hplan : ∀ p ∈ stuck, p ∈ j.plan := fun p hp => h.perm.subset (List.mem_append_right _ hp)
  obtain ⟨p, hcircle⟩ := exists_transGen_self (r := j.Before) hs fun p hp => by
    obtain ⟨q, hq, hqp⟩ := h.exists_before p hp
    exact ⟨q, hq, hplan q hq, hplan p hp, hqp⟩
  exact ⟨p.table, required_circle_of_before hcircle⟩

/-- If no required keys run in a circle, the passes make a line; there is an order if that line is
valid. -/
theorem exists_order (hplan : ∀ t ∈ j.tables, j.Plannable t)
    (hno : ∀ t, ¬ TransGen j.Requires t t)
    (hord : ∀ line, Lines (precedes j.components) j.plan line [] → Pass.Ordered line) :
    ∃ line, j.order = .ok line := by
  have hl := lines_inLine j.components j.plan
  have hstuck : blocked j.components j.plan = [] := by
    by_contra hs
    obtain ⟨t, ht⟩ := exists_required_circle hl hs
    exact hno t ht
  rw [hstuck] at hl
  exact ⟨_, order_eq_ok_iff.2 ⟨hplan, hl, hord _ hl⟩⟩

/-- The tables of a circle of required keys are not visited in a valid order. -/
theorem not_required_circle_of_visited {σ : List Pass} (hσ : ∀ p ∈ σ, p ∈ j.plan)
    (ho : Pass.Ordered σ) :
    ∀ done rest, σ = done ++ rest → ∀ p ∈ done, ¬ TransGen j.Requires p.table p.table := by
  intro done
  induction done using List.reverseRecOn with
  | nil => exact fun _ _ p hp => absurd hp List.not_mem_nil
  | append_singleton done p ih =>
      intro rest hrest q hq hcircle
      have hsplit : σ = done ++ p :: rest := by rw [hrest, List.append_assoc]; rfl
      rcases List.mem_append.1 hq with hq | hq
      · exact ih _ hsplit q hq hcircle
      · obtain rfl := List.mem_singleton.1 hq
        have hp : q ∈ j.plan := hσ q (by simp [hrest])
        cases hk : q.kind with
        | insert =>
            obtain ⟨r, ⟨k, hin, rfl, hreq⟩, hback⟩ := TransGen.head'_iff.1 hcircle
            have hn := (mem_needs_of_insert hp hk).2 ⟨k, ⟨hin, fun hd => hd.2 hreq⟩, rfl⟩
            obtain ⟨p, hpd, hpr⟩ := (ho _ _ _ hsplit _ hn).visited
            exact ih _ hsplit p hpd (hpr ▸ .tail' hback ⟨k, hin, rfl, hreq⟩)
        | update =>
            have hn := (mem_needs_of_update hp hk).2 (.inl rfl)
            obtain ⟨p, hpd, hpt⟩ := (ho _ _ _ hsplit _ hn).visited
            exact ih _ hsplit p hpd (hpt ▸ hcircle)

/-- Where required keys run in a circle, no order of the plan is valid. -/
theorem not_required_circle_of_ordered {σ : List Pass} (hσ : σ.Perm j.plan)
    (ho : Pass.Ordered σ) : ¬ TransGen j.Requires t t := by
  intro hcircle
  obtain ⟨_, ⟨k, hin, -⟩, -⟩ := TransGen.head'_iff.1 hcircle
  obtain ⟨all, he⟩ := exists_columns hin.owner
  exact not_required_circle_of_visited (fun p hp => hσ.subset hp) ho σ [] (by simp) _
    (hσ.mem_iff.2 (insertPass_mem_plan he)) hcircle

end Job

end TransferPlan
