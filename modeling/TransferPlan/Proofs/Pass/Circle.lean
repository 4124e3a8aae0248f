import TransferPlan.Pass.Order
import TransferPlan.Proofs.Graph.Components
import Mathlib.Data.List.Nodup

/-!
# Circles of foreign keys

Which foreign keys count, which tables they lead to, and which of them run in a circle.  The
components that the order is computed from are the classes of mutual reachability along these keys
(`joins_iff`), so a key is filled in by an update pass exactly when it runs in a circle and none of
its columns is required (`defers_iff`).
-/

namespace TransferPlan

/-- One of the columns of the key may not be null. -/
def ForeignKey.Required (k : ForeignKey) : Prop := true ∈ k.required

theorem ForeignKey.isOptional_iff (k : ForeignKey) : k.isOptional = true ↔ ¬ k.Required := by
  simp [isOptional, Required]

namespace Job

variable {j : Job} {t r : String} {k : ForeignKey}

/-- The foreign key leads from a table of the job to a table of the job. -/
structure InJob (j : Job) (t : String) (k : ForeignKey) : Prop where
  owner : t ∈ j.tables
  owned : k ∈ (j.foreignKeys.get? t).getD []
  named : k.target ≠ ""
  target : k.target ∈ j.tables
  columns : k.columns ≠ []
  targetColumns : k.targetColumns ≠ []

theorem mem_linksOf (ht : t ∈ j.tables) : k ∈ j.linksOf t ↔ j.InJob t k := by
  simp only [linksOf, links, List.mem_filter, Bool.and_eq_true, bne_iff_ne, Bool.not_eq_true',
    List.isEmpty_eq_false_iff, Keyed.contains, List.contains_iff_mem]
  constructor
  · rintro ⟨ho, ⟨⟨hn, hc⟩, hk⟩, hr⟩
    exact ⟨ht, ho, hn, hr, hk, hc⟩
  · intro h
    exact ⟨h.owned, ⟨⟨h.named, h.targetColumns⟩, h.columns⟩, h.target⟩

/-- A foreign key leads from the one table to the other. -/
def References (j : Job) (t r : String) : Prop := ∃ k, j.InJob t k ∧ k.target = r

/-- Foreign keys lead from the one table to the other, perhaps over others. -/
def Reaches (j : Job) : String → String → Prop := Relation.ReflTransGen j.References

/-- The foreign key runs in a circle. -/
def Circular (j : Job) (t : String) (k : ForeignKey) : Prop :=
  j.InJob t k ∧ j.Reaches k.target t

/-- The foreign key runs in a circle and none of its columns is required. -/
def Deferrable (j : Job) (t : String) (k : ForeignKey) : Prop :=
  j.Circular t k ∧ ¬ k.Required

/-- The column belongs to a deferrable key of the table. -/
def Defers (j : Job) (t c : String) : Prop := ∃ k, j.Deferrable t k ∧ c ∈ k.columns

theorem InJob.reaches (h : j.InJob t k) : j.Reaches t k.target := .single ⟨k, h, rfl⟩

theorem nodup_tables (j : Job) : j.tables.Nodup := j.columns.nodup_keys

/-! ## The graph of tables -/

theorem edge_graph_iff {v w : ℕ} :
    j.graph.Edge v w ↔ ∃ (hv : v < j.tables.length) (hw : w < j.tables.length),
      j.References j.tables[v] j.tables[w] := by
  have hsize : j.graph.size = j.tables.length := by simp [graph]
  have hidx : ∀ x, j.tables.idxOf? x = some w ↔ ∃ hw : w < j.tables.length, j.tables[w] = x := by
    intro x
    rw [List.idxOf?_eq_some_iff]
    constructor
    · rintro ⟨hw, hx, -⟩
      exact ⟨hw, by simpa using hx⟩
    · rintro ⟨hw, rfl⟩
      refine ⟨hw, by simp, fun i hi => ?_⟩
      simpa using fun e => (Nat.ne_of_lt hi) ((j.nodup_tables.getElem_inj_iff).1 e)
  unfold Graph.Edge Graph.successors
  rw [List.mem_filter, hsize, decide_eq_true_eq]
  by_cases hv : v < j.tables.length
  · simp only [graph, Array.getD_eq_getD_getElem?, List.getElem?_toArray, List.getElem?_map,
      List.getElem?_eq_getElem hv, Option.map_some, Option.getD_some, List.mem_filterMap, hidx,
      mem_linksOf (List.getElem_mem hv), References]
    constructor
    · rintro ⟨⟨k, hk, hw, he⟩, -⟩
      exact ⟨hv, hw, k, hk, he.symm⟩
    · rintro ⟨_, hw, k, hk, he⟩
      exact ⟨⟨k, hk, hw, he.symm⟩, hw⟩
  · simp [graph, hv]

theorem reaches_graph_iff (ht : t ∈ j.tables) (hr : r ∈ j.tables) :
    j.graph.Reaches (j.tables.idxOf t) (j.tables.idxOf r) ↔ j.Reaches t r := by
  have hget : ∀ {x}, x ∈ j.tables → j.tables.getD (j.tables.idxOf x) "" = x := fun hx => by
    simp [List.getD_eq_getElem?_getD, List.getElem?_idxOf hx]
  constructor
  · intro h
    have hlift : j.Reaches (j.tables.getD (j.tables.idxOf t) "")
        (j.tables.getD (j.tables.idxOf r) "") := by
      refine h.lift (p := j.References) (fun v => j.tables.getD v "") fun v w e => ?_
      obtain ⟨hv, hw, href⟩ := edge_graph_iff.1 e
      simpa [Function.onFun, hv, hw] using href
    rwa [hget ht, hget hr] at hlift
  · intro h
    refine h.lift (p := j.graph.Edge) (j.tables.idxOf ·) fun a b href => edge_graph_iff.2 ?_
    obtain ⟨k, hk, rfl⟩ := href
    refine ⟨List.idxOf_lt_length_iff.2 hk.owner, List.idxOf_lt_length_iff.2 hk.target, k, ?_, ?_⟩
    · simpa using hk
    · simp

/-! ## The components of tables -/

theorem value?_zip {ids : List ℕ} :
    ∀ {ts : List String}, t ∈ ts → ts.length = ids.length →
      Keyed.value? t (ts.zip ids) = ids[ts.idxOf t]?
  | [], ht, _ => absurd ht List.not_mem_nil
  | x :: ts, ht, hl => by
      cases ids with
      | nil => simp at hl
      | cons i ids =>
          rw [List.zip_cons_cons, Keyed.value?]
          by_cases hx : x = t
          · simp [hx]
          · have ht' := (List.mem_cons.1 ht).resolve_left (Ne.symm hx)
            rw [if_neg hx, value?_zip ht' (Nat.succ.inj hl), List.idxOf_cons_ne ts hx,
              List.getElem?_cons_succ]

theorem value?_components (ht : t ∈ j.tables) :
    ∃ h : j.tables.idxOf t < j.graph.components.length,
      Keyed.value? t j.components = some j.graph.components[j.tables.idxOf t] := by
  have hlen : j.tables.length = j.graph.components.length := by simp [graph]
  have hlt : j.tables.idxOf t < j.graph.components.length :=
    hlen ▸ List.idxOf_lt_length_iff.2 ht
  exact ⟨hlt, by rw [components, value?_zip ht hlen, List.getElem?_eq_getElem hlt]⟩

/-- Two tables are in one component exactly when they reach each other. -/
theorem joins_iff (ht : t ∈ j.tables) (hr : r ∈ j.tables) :
    j.components.joins t r = true ↔ j.Reaches t r ∧ j.Reaches r t := by
  obtain ⟨hlt, hvt⟩ := value?_components ht
  obtain ⟨hlr, hvr⟩ := value?_components hr
  rw [Components.joins, hvt, hvr, beq_iff_eq, Option.some_inj, Graph.components_getElem_eq_iff,
    Graph.Joined, reaches_graph_iff ht hr, reaches_graph_iff hr ht]

/-- A foreign key is filled in by an update pass exactly when it runs in a circle and none of its
columns is required. -/
theorem defers_iff (h : j.InJob t k) : j.components.defers t k = true ↔ j.Deferrable t k := by
  rw [Components.defers, Bool.and_eq_true, joins_iff h.owner h.target, k.isOptional_iff]
  exact ⟨fun hd => ⟨⟨h, hd.1.2⟩, hd.2⟩, fun hd => ⟨⟨h.reaches, hd.1.2⟩, hd.2⟩⟩

end Job

end TransferPlan
