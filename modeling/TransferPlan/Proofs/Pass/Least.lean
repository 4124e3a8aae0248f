import TransferPlan.Proofs.Graph.Least
import TransferPlan.Proofs.Pass.Precedence
import TransferPlan.Proofs.Pass.Satisfaction
import Mathlib.Data.Prod.Lex

/-!
# The order of a job is the least one

What must precede a pass is said here of foreign keys and circles alone (`MustPrecede`), and the
place of a pass is the position of its table, insert before update (`rank`).  The order of a job
has at each position the pass of least rank whose predecessors are done, so it is the least of all
orders that respect the precedence, and nothing else decides it (`order_is_least`).
-/

namespace TransferPlan

namespace Job

variable {j : Job} {line : List Pass} {p q : Pass}

/-- The foreign keys demand that the first pass precedes the second. -/
inductive MustPrecede (j : Job) (q p : Pass) : Prop
  /-- A table is inserted after the tables of its circle that its kept keys lead to. -/
  | joined (k : ForeignKey) (key : j.InJob p.table k) (kept : ¬ j.Deferrable p.table k)
      (target : k.target = q.table) (back : j.Reaches q.table p.table)
      (left : q.kind = .insert) (right : p.kind = .insert)
  /-- A table is inserted after every pass of the tables outside its circle that its keys lead
  to. -/
  | apart (k : ForeignKey) (key : j.InJob p.table k) (target : k.target = q.table)
      (apart : ¬ j.Reaches q.table p.table) (right : p.kind = .insert)
  /-- A table is updated after every table of its circle is inserted. -/
  | update (joined : j.Reaches p.table q.table ∧ j.Reaches q.table p.table)
      (left : q.kind = .insert) (right : p.kind = .update)

/-- The place of a pass: the position of its table, insert before update. -/
def rank (j : Job) (p : Pass) : ℕ ×ₗ ℕ :=
  toLex (j.tables.idxOf p.table, match p.kind with | .insert => 0 | .update => 1)

/-- The line is the least order of the passes. -/
structure LeastOrder (j : Job) (passes line : List Pass) : Prop where
  /-- The passes are listed in ascending rank. -/
  ascending : passes.Pairwise fun p q => j.rank p < j.rank q
  perm : line.Perm passes
  respects : Respects j.MustPrecede line
  /-- Each pass has the least rank of those not done whose predecessors are done. -/
  next : ∀ done p rest, line = done ++ p :: rest → ∀ q ∈ passes, q ∉ done →
    (∀ r ∈ passes, j.MustPrecede r q → r ∈ done) → j.rank p ≤ j.rank q
  least : ∀ σ, σ.Perm passes → Respects j.MustPrecede σ → line.map j.rank ≤ σ.map j.rank

/-! ## The precedence -/

theorem mustPrecede_iff (hq : q ∈ j.plan) (hp : p ∈ j.plan) :
    j.MustPrecede q p ↔ precedes j.components q p = true := by
  cases hk : p.kind with
  | insert =>
      rw [precedes_iff_of_insert hp hk]
      constructor
      · rintro (⟨k, hkey, hkept, htarget, -, hleft, -⟩ | ⟨k, hkey, htarget, hapart, -⟩ |
          ⟨-, -, hright⟩)
        · exact ⟨k, ⟨hkey, hkept⟩, htarget, .inl hleft⟩
        · have hno : ¬ j.Circular p.table k := fun hc => hapart (htarget ▸ hc.2)
          exact ⟨k, ⟨hkey, fun hd => hno hd.1⟩, htarget, .inr hno⟩
        · exact nomatch hk.symm.trans hright
      · rintro ⟨k, ⟨hkey, hkept⟩, htarget, hkind⟩
        by_cases hback : j.Reaches q.table p.table
        · refine .joined k hkey hkept htarget hback (hkind.resolve_right ?_) hk
          exact not_not.2 ⟨hkey, htarget ▸ hback⟩
        · exact .apart k hkey htarget hback hk
  | update =>
      rw [precedes_iff_of_update hp hk hq]
      constructor
      · rintro (⟨_, _, _, _, _, _, hright⟩ | ⟨_, _, _, _, hright⟩ | ⟨hjoined, hleft, -⟩)
        · exact nomatch hk.symm.trans hright
        · exact nomatch hk.symm.trans hright
        · exact ⟨hleft, hjoined⟩
      · exact fun h => .update h.2 h.1 hk

theorem respects_iff {σ : List Pass} (hσ : ∀ p ∈ σ, p ∈ j.plan) :
    Respects j.MustPrecede σ ↔ Respects (fun q p => precedes j.components q p = true) σ := by
  have hiff : ∀ done p rest, σ = done ++ p :: rest → ∀ q ∈ σ,
      (j.MustPrecede q p ↔ precedes j.components q p = true) := fun _ p _ hl q hq =>
    mustPrecede_iff (hσ q hq) (hσ p (by simp [hl]))
  constructor
  · exact fun h done p rest hl q hq hqp => h done p rest hl q hq ((hiff _ _ _ hl q hq).2 hqp)
  · exact fun h done p rest hl q hq hqp => h done p rest hl q hq ((hiff _ _ _ hl q hq).1 hqp)

/-! ## The rank -/

theorem rank_lt_of_table (h : j.tables.idxOf q.table < j.tables.idxOf p.table) :
    j.rank q < j.rank p :=
  Prod.Lex.toLex_lt_toLex.2 (.inl h)

/-- The passes of the plan are listed in ascending rank. -/
theorem pairwise_rank_plan (j : Job) : j.plan.Pairwise fun p q => j.rank p < j.rank q := by
  refine List.pairwise_flatMap.2 ⟨fun e _ => ?_, ?_⟩
  · have hupdate : j.rank (j.insertPass e.1 e.2) < j.rank (j.updatePass e.1) :=
      Prod.Lex.toLex_lt_toLex.2 (.inr ⟨rfl, Nat.zero_lt_one⟩)
    unfold planOf
    split <;> simp [hupdate]
  · refine (List.pairwise_map.1 (pairwise_idxOf_lt j.nodup_tables)).imp ?_
    intro a b hab q hq p hp
    have htable : ∀ {e : String × List String} {r}, r ∈ j.planOf e.1 e.2 → r.table = e.1 := by
      intro e r hr
      rcases mem_planOf.1 hr with rfl | ⟨-, rfl⟩ <;> rfl
    exact rank_lt_of_table (by rwa [htable hq, htable hp])

/-! ## The order -/

theorem leastOrder_of_lines (h : Lines (precedes j.components) j.plan line []) :
    j.LeastOrder j.plan line where
  ascending := pairwise_rank_plan j
  perm := by simpa using h.perm
  respects := (respects_iff fun _ hp => h.mem_pending hp).2 h.respects
  next _ _ _ hl q hq hqd hw := by
    refine h.rank_le (pairwise_rank_plan j) hl hq hqd fun r hr hrq => ?_
    exact hw r hr ((mustPrecede_iff hr hq).2 hrq)
  least σ hσ hs :=
    h.map_rank_le rfl (pairwise_rank_plan j) hσ ((respects_iff fun _ hp => hσ.subset hp).1 hs)

/-- Passes have one least order only. -/
theorem LeastOrder.eq {passes line' : List Pass} (h : j.LeastOrder passes line)
    (h' : j.LeastOrder passes line') : line' = line := by
  have hmap : line'.map j.rank = line.map j.rank :=
    le_antisymm (h'.least line h.perm h.respects) (h.least line' h'.perm h'.respects)
  refine List.ext_getElem (by simpa using congrArg List.length hmap) fun i hi' hi => ?_
  refine Lines.eq_of_rank_eq h.ascending (h'.perm.subset (List.getElem_mem hi'))
    (h.perm.subset (List.getElem_mem hi)) ?_
  have hrank := List.getElem_of_eq hmap (by rwa [List.length_map])
  rwa [List.getElem_map, List.getElem_map] at hrank

/-- An order of a job is the least order of its passes, and there is no other. -/
theorem order_is_least (h : j.order = .ok line) :
    ∃ passes, j.passes j.components = .ok passes ∧ j.LeastOrder passes line ∧
      ∀ line', j.LeastOrder passes line' → line' = line := by
  refine ⟨j.plan, passes_eq_ok_iff.2 ⟨(order_eq_ok_iff.1 h).1, rfl⟩, ?_⟩
  have hleast := leastOrder_of_lines (lines_of_order h)
  exact ⟨hleast, fun _ h' => hleast.eq h'⟩

/-- Parcels belong to an order, whose last parcel is filled in afterwards; orders go to customers,
and notes to no other table. -/
def shipping : Job where
  foreignKeys := .ofList [
    ("parcel", [⟨["order"], [true], "order", ["id"], none⟩]),
    ("order", [⟨["customer"], [false], "customer", ["id"], none⟩,
      ⟨["last"], [false], "parcel", ["id"], none⟩])]
  primaryKeys := .ofList [("order", ["id"])]
  columns := .ofList [("parcel", ["id", "order"]), ("order", ["id", "customer", "last"]),
    ("note", ["text"]), ("customer", ["id"])]

theorem order_is_least_shipping :
    ∃ line, shipping.order = .ok line ∧
      line.map (fun p => (p.table, p.kind)) = [("note", .insert), ("customer", .insert),
        ("order", .insert), ("parcel", .insert), ("order", .update)] ∧
      ∃ passes, shipping.passes shipping.components = .ok passes ∧
        shipping.LeastOrder passes line ∧
          ∀ line', shipping.LeastOrder passes line' → line' = line := by
  have h : shipping.order = .ok [shipping.insertPass "note" ["text"],
      shipping.insertPass "customer" ["id"],
      shipping.insertPass "order" ["id", "customer", "last"],
      shipping.insertPass "parcel" ["id", "order"], shipping.updatePass "order"] := by
    decide +kernel
  exact ⟨_, h, rfl, order_is_least h⟩

/-- A required key into a table with the empty name puts no insert pass in front of another. -/
theorem unnamed_target_not_preceding :
    ¬ ∀ (j : Job) (line : List Pass), j.order = .ok line →
      ∀ (t : String) (k : ForeignKey), t ∈ j.tables → k ∈ (j.foreignKeys.get? t).getD [] →
        k.target ∈ j.tables → k.columns ≠ [] → k.targetColumns ≠ [] → k.Required →
        ∀ (done rest : List Pass) (p : Pass), line = done ++ p :: rest → p.table = t →
          p.kind = .insert → ∃ q ∈ done, q.table = k.target ∧ q.kind = .insert := by
  intro hall
  have h : unnamedTarget.order = .ok
      [unnamedTarget.insertPass "order" ["id", "user"], unnamedTarget.insertPass "" ["id"]] := by
    decide +kernel
  obtain ⟨q, hq, -⟩ := hall unnamedTarget _ h "order" ⟨["user"], [true], "", ["id"], none⟩
    (by decide) (by decide) (by decide) (by decide) (by decide) (by simp [ForeignKey.Required])
    [] _ _ rfl rfl rfl
  exact absurd hq List.not_mem_nil

end Job

end TransferPlan
