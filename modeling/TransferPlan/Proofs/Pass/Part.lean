import TransferPlan.Proofs.Pass.Plan

/-!
# Parts of a job

A part of a job has some of its tables, in any order, such that no foreign key leads out of it.
What is said of a table in the part is said of it in the whole job: its foreign keys, the circles
that they run in, its passes, and what must precede them (`Part.planOf_eq`, `Part.precedes_eq`).
-/

namespace TransferPlan

namespace Job

/-- The second job is a part of the first: what is known of its tables is the same, and their
foreign keys lead to tables of the part only. -/
structure Part (j j' : Job) : Prop where
  columns : ∀ e ∈ j'.columns.entries, e ∈ j.columns.entries
  closed : ∀ t ∈ j'.tables, ∀ k, j.InJob t k → k.target ∈ j'.tables
  foreignKeys : ∀ t ∈ j'.tables,
    (j'.foreignKeys.get? t).getD [] = (j.foreignKeys.get? t).getD []
  primaryKeys : ∀ t ∈ j'.tables,
    (j'.primaryKeys.get? t).getD [] = (j.primaryKeys.get? t).getD []
  filters : ∀ t ∈ j'.tables, j'.filters.get? t = j.filters.get? t

namespace Part

variable {j j' : Job} {t r : String} {k : ForeignKey} {all : List String} {p q : Pass}

theorem mem_tables (h : Part j j') (ht : t ∈ j'.tables) : t ∈ j.tables := by
  obtain ⟨all, he⟩ := exists_columns ht
  exact Job.mem_tables (h.columns _ he)

/-! ## Circles -/

theorem inJob_iff (h : Part j j') : j'.InJob t k ↔ t ∈ j'.tables ∧ j.InJob t k := by
  constructor
  · rintro ⟨ho, hk, hn, ht, hc, hr⟩
    exact ⟨ho, h.mem_tables ho, h.foreignKeys t ho ▸ hk, hn, h.mem_tables ht, hc, hr⟩
  · rintro ⟨ho, hk⟩
    exact ⟨ho, (h.foreignKeys t ho).symm ▸ hk.owned, hk.named, h.closed t ho k hk, hk.columns,
      hk.targetColumns⟩

theorem references_iff (h : Part j j') : j'.References t r ↔ t ∈ j'.tables ∧ j.References t r := by
  simp only [References, h.inJob_iff, and_assoc, exists_and_left]

/-- Nothing outside is reached from the part, and within it what is reached in the whole job. -/
theorem reaches_iff (h : Part j j') (ht : t ∈ j'.tables) : j'.Reaches t r ↔ j.Reaches t r := by
  constructor
  · exact fun hr => Relation.ReflTransGen.mono (fun a b hab => (h.references_iff.1 hab).2) t r hr
  · intro hr
    have hboth : j'.Reaches t r ∧ r ∈ j'.tables := by
      induction hr with
      | refl => exact ⟨.refl, ht⟩
      | tail _ e ih =>
          obtain ⟨hreach, hmem⟩ := ih
          have he := h.references_iff.2 ⟨hmem, e⟩
          obtain ⟨k, hk, rfl⟩ := e
          exact ⟨hreach.tail he, h.closed _ hmem k hk⟩
    exact hboth.1

theorem circular_iff (h : Part j j') (ht : t ∈ j'.tables) : j'.Circular t k ↔ j.Circular t k := by
  rw [Circular, Circular, h.inJob_iff, and_iff_right ht]
  exact and_congr_right fun hk => h.reaches_iff (h.closed t ht k hk)

theorem deferrable_iff (h : Part j j') (ht : t ∈ j'.tables) :
    j'.Deferrable t k ↔ j.Deferrable t k :=
  and_congr_left' (h.circular_iff ht)

theorem joins_eq (h : Part j j') (ht : t ∈ j'.tables) (hr : r ∈ j'.tables) :
    j'.components.joins t r = j.components.joins t r := by
  rw [Bool.eq_iff_iff, joins_iff ht hr, joins_iff (h.mem_tables ht) (h.mem_tables hr),
    h.reaches_iff ht, h.reaches_iff hr]

/-! ## Passes -/

theorem linksOf_eq (h : Part j j') (ht : t ∈ j'.tables) : j'.linksOf t = j.linksOf t := by
  rw [linksOf, linksOf, h.foreignKeys t ht]
  refine List.filter_congr fun k hk => ?_
  have hlinks : ∀ {i : Job}, t ∈ i.tables → k ∈ (i.foreignKeys.get? t).getD [] →
      (i.links k = true ↔ i.InJob t k) := by
    intro i hi hki
    rw [← mem_linksOf hi, linksOf, List.mem_filter, and_iff_right hki]
  rw [Bool.eq_iff_iff, hlinks ht ((h.foreignKeys t ht).symm ▸ hk), hlinks (h.mem_tables ht) hk,
    h.inJob_iff, and_iff_right ht]

theorem defers_eq (h : Part j j') (ht : t ∈ j'.tables) (hk : j.InJob t k) :
    j'.components.defers t k = j.components.defers t k := by
  rw [Bool.eq_iff_iff, defers_iff hk, defers_iff (h.inJob_iff.2 ⟨ht, hk⟩), h.deferrable_iff ht]

theorem deferredOf_eq (h : Part j j') (ht : t ∈ j'.tables) :
    j'.deferredOf t = j.deferredOf t := by
  rw [deferredOf, deferredOf, h.linksOf_eq ht]
  exact List.filter_congr fun k hk => h.defers_eq ht ((mem_linksOf (h.mem_tables ht)).1 hk)

theorem keptOf_eq (h : Part j j') (ht : t ∈ j'.tables) : j'.keptOf t = j.keptOf t := by
  rw [keptOf, keptOf, h.linksOf_eq ht]
  refine List.filter_congr fun k hk => ?_
  rw [h.defers_eq ht ((mem_linksOf (h.mem_tables ht)).1 hk)]

theorem keyOf_eq (h : Part j j') (ht : t ∈ j'.tables) : j'.keyOf t = j.keyOf t := by
  rw [keyOf, keyOf, h.primaryKeys t ht]

theorem planOf_eq (h : Part j j') (ht : t ∈ j'.tables) : j'.planOf t all = j.planOf t all := by
  simp only [planOf, insertPass, updatePass, deferredColumns, h.deferredOf_eq ht, h.keptOf_eq ht,
    h.keyOf_eq ht, h.filters t ht]

theorem plannable_iff (h : Part j j') (ht : t ∈ j'.tables) : j'.Plannable t ↔ j.Plannable t := by
  constructor
  · rintro ⟨hself, hkey⟩
    exact ⟨h.keptOf_eq ht ▸ hself, h.deferredOf_eq ht ▸ h.keyOf_eq ht ▸ hkey⟩
  · rintro ⟨hself, hkey⟩
    exact ⟨(h.keptOf_eq ht).symm ▸ hself, (h.deferredOf_eq ht).symm ▸ (h.keyOf_eq ht).symm ▸ hkey⟩

/-- The passes of the part are those of its tables in the whole job. -/
theorem plan_eq (h : Part j j') :
    j'.plan = j'.columns.entries.flatMap fun e => j.planOf e.1 e.2 :=
  List.flatMap_congr fun _ he => h.planOf_eq (Job.mem_tables he)

theorem precedes_eq (h : Part j j') (hq : q.table ∈ j'.tables) (hp : p.table ∈ j'.tables) :
    precedes j'.components q p = precedes j.components q p := by
  unfold precedes
  rw [h.joins_eq hp hq]

end Part

end Job

end TransferPlan
