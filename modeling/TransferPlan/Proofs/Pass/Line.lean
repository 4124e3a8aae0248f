import TransferPlan.Pass.Order
import TransferPlan.Proofs.Graph.Countdown

/-!
# The line of the passes

The predecessors of a pass are listed by position, in one way for an insert pass and in another for
an update pass.  They are the passes that precede it (`mem_predecessors`), so counting them down
puts the passes in the line of that precedence (`lines_inLine`).
-/

namespace TransferPlan

namespace Job

variable {cs : Components} {ps : List Pass} {p q : Pass} {f : Pass → Bool} {i k : ℕ}

/-- Whether pass `p` must precede pass `q`. -/
def precedes (cs : Components) (p q : Pass) : Bool :=
  match q.kind with
  | .insert =>
    q.needs.any (·.table == p.table) && (p.kind == .insert || !cs.joins q.table p.table)
  | .update => p.kind == .insert && cs.joins q.table p.table

/-! ## Positions -/

theorem mem_positions : i ∈ positions ps f ↔ ∃ q, ps[i]? = some q ∧ f q = true := by
  simp only [positions, List.mem_map, List.mem_filter, List.mem_zipIdx_iff_getElem?, Prod.exists,
    exists_eq_right]

theorem nodup_positions (ps : List Pass) (f : Pass → Bool) : (positions ps f).Nodup :=
  nodup_filter_zipIdx _ _

theorem nodup_predecessors (cs : Components) (ps : List Pass) (p : Pass) :
    (predecessors cs ps p).Nodup := by
  unfold predecessors
  split
  · exact nodup_eraseDups _
  · exact nodup_positions _ _

/-- Of the passes over a table that an insert pass needs, only the insert pass precedes it within
the component. -/
theorem mem_positions_of_need {n : Need} :
    (i ∈ if cs.joins p.table n.table then
        positions ps fun q => q.table == n.table && q.kind == .insert
      else positions ps (·.table == n.table)) ↔
      ∃ q, ps[i]? = some q ∧ n.table = q.table ∧
        (q.kind = .insert ∨ cs.joins p.table q.table = false) := by
  split_ifs with hj
  all_goals
    rw [mem_positions]
    refine exists_congr fun q => and_congr_right fun _ => ?_
    simp only [Bool.and_eq_true, beq_iff_eq]
    constructor
  · exact fun h => ⟨h.1.symm, .inl h.2⟩
  · rintro ⟨hqn, h⟩
    rw [hqn] at hj
    exact ⟨hqn.symm, h.resolve_right (by simp [hj])⟩
  · intro hqn
    rw [← hqn] at hj
    exact ⟨hqn.symm, .inr (Bool.not_eq_true _ ▸ hj)⟩
  · exact fun h => h.1.symm

/-- The predecessors of a pass are the passes that must precede it. -/
theorem mem_predecessors :
    i ∈ predecessors cs ps p ↔ ∃ q, ps[i]? = some q ∧ precedes cs q p = true := by
  cases hk : p.kind with
  | insert =>
      simp only [predecessors, hk, List.mem_eraseDups, List.mem_flatMap, mem_positions_of_need,
        precedes, Bool.and_eq_true, Bool.or_eq_true, List.any_eq_true, beq_iff_eq,
        Bool.not_eq_true']
      constructor
      · rintro ⟨n, hn, q, hq, hqn, h⟩
        exact ⟨q, hq, ⟨n, hn, hqn⟩, h⟩
      · rintro ⟨q, hq, ⟨n, hn, hqn⟩, h⟩
        exact ⟨n, hn, q, hq, hqn, h⟩
  | update => simp only [predecessors, precedes, hk, mem_positions]

/-! ## The line -/

theorem of_precedence (cs : Components) (ps : List Pass) (k : ℕ) :
    (precedence cs ps).of k = (ps[k]?.map (predecessors cs ps)).getD [] := by
  rw [Precedence.of, precedence, Array.getD_eq_getD_getElem?, List.getElem?_toArray,
    List.getElem?_map]

theorem mem_of_precedence :
    i ∈ (precedence cs ps).of k ↔ ∃ p, ps[k]? = some p ∧ i ∈ predecessors cs ps p := by
  rw [of_precedence]
  cases ps[k]? <;> simp

theorem wellFormed_precedence (cs : Components) (ps : List Pass) :
    (precedence cs ps).WellFormed where
  lt k i hi := by
    obtain ⟨p, -, hi⟩ := mem_of_precedence.1 hi
    obtain ⟨q, hq, -⟩ := mem_predecessors.1 hi
    simpa [precedence] using (List.getElem?_eq_some_iff.1 hq).1
  nodup k := by
    rw [of_precedence]
    cases ps[k]? with
    | none => exact List.nodup_nil
    | some p => exact nodup_predecessors cs ps p

/-- Counting down the predecessors puts the passes in line. -/
theorem lines_inLine (cs : Components) (ps : List Pass) :
    Lines (precedes cs) ps (inLine cs ps) (blocked cs ps) := by
  have hrun := Countdown.lines_run (wellFormed_precedence cs ps)
  have hsize : (precedence cs ps).size = ps.length := by simp [precedence]
  rw [hsize] at hrun
  have hpasses : Lines (precedes cs) ((List.range ps.length).filterMap (ps[·]?)) (inLine cs ps)
      (blocked cs ps) := by
    refine hrun.filterMap (f := (ps[·]?)) (fun i hi => by simpa using hi) ?_
    intro i _ k _ p hp q hq
    rw [Bool.eq_iff_iff, Precedence.before_iff, mem_of_precedence]
    simp only [mem_predecessors]
    constructor
    · exact fun h => ⟨p, hp, q, hq, h⟩
    · rintro ⟨p', hp', q', hq', h⟩
      obtain rfl := Option.some.inj (hp.symm.trans hp')
      obtain rfl := Option.some.inj (hq.symm.trans hq')
      exact h
  rwa [filterMap_range_getElem?] at hpasses

end Job

end TransferPlan
