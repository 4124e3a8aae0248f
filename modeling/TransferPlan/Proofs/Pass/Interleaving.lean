import TransferPlan.Proofs.Pass.Validity

/-!
# Mixing valid orders

What a pass needs has to be written at smaller places, and passes in between do no harm: the more
passes are done, the more needs are met.  So a valid order stays valid when it is cut off, and when
another one is worked into it (`valid_order_by_places`).
-/

namespace TransferPlan

/-- The third list consists of the items of the other two, those of each in their order. -/
inductive Interleaved {α : Type} : List α → List α → List α → Prop
  | nil : Interleaved [] [] []
  | left {a : α} {l l' line : List α} :
      Interleaved l l' line → Interleaved (a :: l) l' (a :: line)
  | right {a : α} {l l' line : List α} :
      Interleaved l l' line → Interleaved l (a :: l') (a :: line)

namespace Interleaved

variable {α : Type} {l l' done rest : List α} {a : α}

/-- An item of the mixture comes from one of the lists, and what stands in front of it there stands
in front of it in the mixture. -/
theorem exists_front (h : Interleaved l l' (done ++ a :: rest)) :
    (∃ front back, l = front ++ a :: back ∧ front ⊆ done) ∨
      ∃ front back, l' = front ++ a :: back ∧ front ⊆ done := by
  induction done generalizing l l' with
  | nil =>
      cases h with
      | left h => exact .inl ⟨[], _, rfl, List.nil_subset _⟩
      | right h => exact .inr ⟨[], _, rfl, List.nil_subset _⟩
  | cons x done ih =>
      cases h with
      | left h =>
          rcases ih h with ⟨front, back, rfl, hfront⟩ | ⟨front, back, rfl, hfront⟩
          · exact .inl ⟨x :: front, back, rfl, List.cons_subset_cons x hfront⟩
          · exact .inr ⟨front, back, rfl, List.subset_cons_of_subset x hfront⟩
      | right h =>
          rcases ih h with ⟨front, back, rfl, hfront⟩ | ⟨front, back, rfl, hfront⟩
          · exact .inl ⟨front, back, rfl, List.subset_cons_of_subset x hfront⟩
          · exact .inr ⟨x :: front, back, rfl, List.cons_subset_cons x hfront⟩

end Interleaved

namespace Pass

variable {passes others line front : List Pass}

/-! ## Places -/

theorem mem_take_iff {i : Nat} {q : Pass} :
    q ∈ passes.take i ↔ ∃ j < i, passes[j]? = some q := by
  rw [List.mem_iff_getElem?]
  refine exists_congr fun j => ?_
  rw [List.getElem?_take]
  by_cases hj : j < i <;> simp [hj]

/-- A need is met by the passes in front of a place if passes at smaller places meet it. -/
theorem met_take_iff {n : Need} {i : Nat} : n.Met (passes.take i) ↔
    (∃ j < i, ∃ q, passes[j]? = some q ∧ q.table = n.table) ∧
      ∀ c ∈ n.columns, ∃ j < i, ∃ q, passes[j]? = some q ∧ q.table = n.table ∧ c ∈ q.writes := by
  have hplace : ∀ P : Pass → Prop,
      (∃ q ∈ passes.take i, P q) ↔ ∃ j < i, ∃ q, passes[j]? = some q ∧ P q := by
    intro P
    simp only [mem_take_iff]
    constructor
    · rintro ⟨q, ⟨j, hj, hq⟩, hP⟩
      exact ⟨j, hj, q, hq, hP⟩
    · rintro ⟨j, hj, q, hq, hP⟩
      exact ⟨q, ⟨j, hj, hq⟩, hP⟩
  simp only [← hplace]
  exact ⟨fun h => ⟨h.visited, h.written⟩, fun h => ⟨h.1, h.2⟩⟩

theorem ordered_iff_take : Ordered passes ↔
    ∀ (i : Nat) (p : Pass), passes[i]? = some p → ∀ n ∈ p.needs, n.Met (passes.take i) := by
  constructor
  · intro h i p hp
    obtain ⟨hi, rfl⟩ := List.getElem?_eq_some_iff.1 hp
    exact h _ _ (passes.drop (i + 1)) (by rw [List.getElem_cons_drop, List.take_append_drop])
  · rintro h done p rest rfl n hn
    have hmet := h done.length p (by simp) n hn
    rwa [List.take_left] at hmet

/-! ## Parts and mixtures -/

theorem Ordered.of_prefix (h : Ordered passes) (hfront : front <+: passes) : Ordered front := by
  obtain ⟨back, rfl⟩ := hfront
  rintro done p rest rfl
  exact h done p (rest ++ back) (by rw [List.append_assoc, List.cons_append])

theorem Ordered.interleaved (h : Ordered passes) (h' : Ordered others)
    (hline : Interleaved passes others line) : Ordered line := by
  rintro done p rest rfl n hn
  rcases hline.exists_front with ⟨front, back, rfl, hfront⟩ | ⟨front, back, rfl, hfront⟩
  · exact (h front p back rfl n hn).mono hfront
  · exact (h' front p back rfl n hn).mono hfront

/-- A list of passes is a valid order exactly if, for each need of the pass at each place, some pass
at a smaller place is over the table of the need, and each of its columns is written by one that is.
Every beginning of a valid order is valid, and so is every mixture of two that keeps each in its
order. -/
theorem valid_order_by_places (passes : List Pass) :
    (isValidOrder passes = true ↔
      ∀ (i : Nat) (p : Pass), passes[i]? = some p → ∀ n ∈ p.needs,
        (∃ j < i, ∃ q, passes[j]? = some q ∧ q.table = n.table) ∧
        ∀ c ∈ n.columns, ∃ j < i, ∃ q, passes[j]? = some q ∧ q.table = n.table ∧ c ∈ q.writes) ∧
    (isValidOrder passes = true → ∀ front, front <+: passes → isValidOrder front = true) ∧
    ∀ others line, isValidOrder passes = true → isValidOrder others = true →
      Interleaved passes others line → isValidOrder line = true := by
  simp only [isValidOrder_iff]
  refine ⟨?_, fun h front hfront => h.of_prefix hfront,
    fun others line h h' hline => h.interleaved h' hline⟩
  rw [ordered_iff_take]
  simp only [met_take_iff]

/-- A pass that adds rows. -/
def adding (table : String) (writes : List String) (needs : List Need) : Pass where
  table := table
  kind := .insert
  primaryKeys := []
  reads := writes
  writes := writes
  needs := needs

/-- Books, and loans that reference them. -/
def lending : List Pass := [adding "book" ["id"] [], adding "loan" ["book"] [⟨"book", ["id"]⟩]]

/-- Books as well, and notes that need some book. -/
def noting : List Pass := [adding "book" ["title"] [], adding "note" ["text"] [⟨"book", []⟩]]

/-- A note stands between the books and the loans. -/
theorem valid_order_by_places_lending :
    let line := [adding "book" ["title"] [], adding "book" ["id"] [],
      adding "note" ["text"] [⟨"book", []⟩], adding "loan" ["book"] [⟨"book", ["id"]⟩]]
    isValidOrder lending = true ∧ isValidOrder noting = true ∧ Interleaved lending noting line ∧
      isValidOrder line = true ∧ isValidOrder (line.take 3) = true := by
  intro line
  have hlending : isValidOrder lending = true := by decide +kernel
  have hnoting : isValidOrder noting = true := by decide +kernel
  have hline : Interleaved lending noting line := .right (.left (.right (.left .nil)))
  have hvalid := (valid_order_by_places lending).2.2 noting line hlending hnoting hline
  exact ⟨hlending, hnoting, hline, hvalid,
    (valid_order_by_places line).2.1 hvalid _ (List.take_prefix 3 line)⟩

end Pass

end TransferPlan
