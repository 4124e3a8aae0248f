import TransferPlan.Proofs.Pass.Part
import TransferPlan.Proofs.Pass.Precedence

/-!
# Independent groups of tables

The tables of a job are split in two groups such that no foreign key leads from one to the other.
Each group is then a part of the job, no pass waits for one of the other group, and no need is met
there.  So the job is ordered exactly when both groups are, and its order, restricted to the passes
of a group, is the order of that group alone (`order_of_apart`).
-/

namespace TransferPlan

/-! ## Valid orders of groups -/

namespace Pass

variable {line : List Pass} {g : String → Bool}

/-- In a valid order the passes of a group are in a valid order, if they need tables of the group
only. -/
theorem Ordered.filter (h : Ordered line)
    (hg : ∀ p ∈ line, ∀ n ∈ p.needs, g n.table = g p.table) :
    Ordered (line.filter (g ·.table)) := by
  intro front p back hsplit n hn
  obtain ⟨done, rest, rfl, rfl, hrest⟩ := List.filter_eq_append_iff.1 hsplit
  obtain ⟨between, rest, rfl, hbetween, hp, -⟩ := List.filter_eq_cons_iff.1 hrest
  have hmet := h (done ++ between) p rest (by simp) n hn
  have hin : ∀ q ∈ done ++ between, q.table = n.table → q ∈ done.filter (g ·.table) := by
    intro q hq hqn
    have hgq : g q.table = true := by
      rw [hqn, hg p (by simp) n hn]
      exact hp
    rcases List.mem_append.1 hq with hq | hq
    · exact List.mem_filter.2 ⟨hq, hgq⟩
    · exact absurd hgq (hbetween q hq)
  constructor
  · obtain ⟨q, hq, hqn⟩ := hmet.visited
    exact ⟨q, hin q hq hqn, hqn⟩
  · intro c hc
    obtain ⟨q, hq, hqn, hqc⟩ := hmet.written c hc
    exact ⟨q, hin q hq hqn, hqn, hqc⟩

/-- The needs of a pass are met if they are among the passes of its group. -/
theorem met_of_filter {f : Pass → Bool} {done rest : List Pass} {p : Pass} {n : Need}
    (h : Ordered ((done ++ p :: rest).filter f)) (hp : f p = true) (hn : n ∈ p.needs) :
    n.Met done := by
  refine (h (done.filter f) p (rest.filter f) ?_ n hn).mono fun q hq => (List.mem_filter.1 hq).1
  rw [List.filter_append, List.filter_cons_of_pos hp]

/-- An order is valid if the passes of each group are in a valid order. -/
theorem ordered_of_filter (h : Ordered (line.filter (g ·.table)))
    (h' : Ordered (line.filter (!g ·.table))) : Ordered line := by
  rintro done p rest rfl n hn
  cases hp : g p.table with
  | true => exact met_of_filter h hp hn
  | false => exact met_of_filter h' (by simp [hp]) hn

end Pass

namespace Job

variable {j left right : Job} {g : String → Bool} {t r : String} {p q : Pass} {line : List Pass}

/-- No foreign key leads from the tables that pass the test to the others, or back. -/
def Apart (j : Job) (g : String → Bool) : Prop := ∀ t k, j.InJob t k → g t = g k.target

/-- The job of the tables that pass the test, in the order of the whole job, with what is known of
them. -/
structure GroupOf (j : Job) (g : String → Bool) (left : Job) : Prop where
  columns : left.columns.entries = j.columns.entries.filter (g ·.1)
  foreignKeys : ∀ t ∈ left.tables,
    (left.foreignKeys.get? t).getD [] = (j.foreignKeys.get? t).getD []
  primaryKeys : ∀ t ∈ left.tables,
    (left.primaryKeys.get? t).getD [] = (j.primaryKeys.get? t).getD []
  filters : ∀ t ∈ left.tables, left.filters.get? t = j.filters.get? t

/-- The job with some of its tables only. -/
def only (j : Job) (g : String → Bool) : Job := { j with columns := j.columns.filter fun t _ => g t }

theorem groupOf_only (j : Job) (g : String → Bool) : j.GroupOf g (j.only g) :=
  ⟨rfl, fun _ _ => rfl, fun _ _ => rfl, fun _ _ => rfl⟩

namespace Apart

theorem symm (h : j.Apart g) : j.Apart fun t => !g t :=
  fun t k hk => congrArg Bool.not (h t k hk)

theorem eq_of_reaches (h : j.Apart g) (hr : j.Reaches t r) : g t = g r := by
  induction hr with
  | refl => rfl
  | tail _ e ih =>
      obtain ⟨k, hk, rfl⟩ := e
      exact ih.trans (h _ k hk)

/-- A pass waits for passes of its group. -/
theorem eq_of_precedes (h : j.Apart g) (hp : p ∈ j.plan) (hq : q ∈ j.plan)
    (hqp : precedes j.components q p = true) : g q.table = g p.table :=
  have hbefore : j.Before q p := ⟨hq, hp, hqp⟩
  (h.eq_of_reaches hbefore.reaches).symm

/-- A pass needs tables of its group. -/
theorem eq_of_need (h : j.Apart g) (hp : p ∈ j.plan) {n : Need} (hn : n ∈ p.needs) :
    g n.table = g p.table :=
  (h.eq_of_reaches (reaches_of_need hp hn)).symm

end Apart

/-! ## The passes of a group -/

namespace GroupOf

theorem mem_tables_iff (h : j.GroupOf g left) : t ∈ left.tables ↔ t ∈ j.tables ∧ g t = true := by
  rw [tables, Keyed.keys, h.columns, ← Function.comp_def g Prod.fst, ← List.filter_map,
    List.mem_filter]
  rfl

theorem part (h : j.GroupOf g left) (hapart : j.Apart g) : j.Part left where
  columns e he := by
    rw [h.columns] at he
    exact (List.mem_filter.1 he).1
  closed t ht k hk :=
    h.mem_tables_iff.2 ⟨hk.target, (hapart t k hk) ▸ (h.mem_tables_iff.1 ht).2⟩
  foreignKeys := h.foreignKeys
  primaryKeys := h.primaryKeys
  filters := h.filters

/-- The plan of a group has the passes over its tables. -/
theorem plan_eq (h : j.GroupOf g left) (hapart : j.Apart g) :
    left.plan = j.plan.filter (g ·.table) := by
  rw [(h.part hapart).plan_eq, h.columns, plan, List.filter_flatMap]
  have hshare : ∀ e : String × List String, (j.planOf e.1 e.2).filter (g ·.table) =
      if g e.1 then j.planOf e.1 e.2 else [] := by
    intro e
    have htable : ∀ p ∈ j.planOf e.1 e.2, p.table = e.1 := by
      intro p hp
      rcases mem_planOf.1 hp with rfl | ⟨-, rfl⟩ <;> rfl
    split_ifs with hg
    · exact List.filter_eq_self.2 fun p hp => by rwa [htable p hp]
    · exact List.filter_eq_nil_iff.2 fun p hp => by rwa [htable p hp]
  simp only [hshare]
  induction j.columns.entries with
  | nil => rfl
  | cons e entries ih => by_cases hg : g e.1 = true <;> simp [hg, ih]

/-- A line of all passes, restricted to a group, is the line of the group. -/
theorem lines_filter (h : j.GroupOf g left) (hapart : j.Apart g) {stuck : List Pass}
    (hl : Lines (precedes j.components) j.plan line stuck) :
    Lines (precedes left.components) left.plan (line.filter (g ·.table))
      (stuck.filter (g ·.table)) := by
  have hfilter := hl.filter (g := (g ·.table)) fun p hp q hq => hapart.eq_of_precedes hp hq
  rw [← h.plan_eq hapart] at hfilter
  exact hfilter.congr fun p hp q hq =>
    (h.part hapart).precedes_eq (table_mem_of_mem_plan hq) (table_mem_of_mem_plan hp)

/-- An order of the job, restricted to a group, is the order of the group. -/
theorem order_eq_filter (h : j.GroupOf g left) (hapart : j.Apart g) (hline : j.order = .ok line) :
    left.order = .ok (line.filter (g ·.table)) := by
  have hpart := h.part hapart
  refine order_eq_ok_iff.2 ⟨fun t ht => ?_, ?_, ?_⟩
  · exact (hpart.plannable_iff ht).2 ((order_eq_ok_iff.1 hline).1 t (hpart.mem_tables ht))
  · exact h.lines_filter hapart (lines_of_order hline)
  · exact (ordered_of_order hline).filter fun p hp n hn =>
      hapart.eq_of_need ((perm_of_order hline).subset hp) hn

end GroupOf

/-! ## Both groups -/

/-- If both groups can be ordered, so can the job. -/
theorem exists_order_of_groups (hapart : j.Apart g) (hleft : j.GroupOf g left)
    (hright : j.GroupOf (fun t => !g t) right) {line₁ line₂ : List Pass}
    (h₁ : left.order = .ok line₁) (h₂ : right.order = .ok line₂) : ∃ line, j.order = .ok line := by
  have hl := lines_inLine j.components j.plan
  obtain ⟨hplan₁, hlin₁, hord₁⟩ := order_eq_ok_iff.1 h₁
  obtain ⟨hplan₂, hlin₂, hord₂⟩ := order_eq_ok_iff.1 h₂
  obtain ⟨rfl, hstuck₁⟩ := (hleft.lines_filter hapart hl).unique hlin₁
  obtain ⟨rfl, hstuck₂⟩ := (hright.lines_filter hapart.symm hl).unique hlin₂
  -- a stuck pass would be stuck in its group
  have hstuck : blocked j.components j.plan = [] := by
    refine List.eq_nil_iff_forall_not_mem.2 fun p hp => ?_
    cases hg : g p.table with
    | true => exact List.filter_eq_nil_iff.1 hstuck₁.symm p hp hg
    | false => exact List.filter_eq_nil_iff.1 hstuck₂.symm p hp (by simp [hg])
  refine ⟨_, order_eq_ok_iff.2 ⟨fun t ht => ?_, hstuck ▸ hl,
    Pass.ordered_of_filter hord₁ hord₂⟩⟩
  cases hg : g t with
  | true =>
      have htl := hleft.mem_tables_iff.2 ⟨ht, hg⟩
      exact ((hleft.part hapart).plannable_iff htl).1 (hplan₁ t htl)
  | false =>
      have htr := hright.mem_tables_iff.2 ⟨ht, by simp [hg]⟩
      exact ((hright.part hapart.symm).plannable_iff htr).1 (hplan₂ t htr)

/-- A job of two groups that are apart is ordered exactly when both groups are, and its order is
made of theirs. -/
theorem order_of_apart (hapart : j.Apart g) (hleft : j.GroupOf g left)
    (hright : j.GroupOf (fun t => !g t) right) :
    ((∃ line, j.order = .ok line) ↔
      (∃ line, left.order = .ok line) ∧ ∃ line, right.order = .ok line) ∧
    ∀ line, j.order = .ok line → left.order = .ok (line.filter (g ·.table)) ∧
      right.order = .ok (line.filter (!g ·.table)) := by
  have hboth : ∀ line, j.order = .ok line → left.order = .ok (line.filter (g ·.table)) ∧
      right.order = .ok (line.filter (!g ·.table)) := fun line hline =>
    ⟨hleft.order_eq_filter hapart hline, hright.order_eq_filter hapart.symm hline⟩
  refine ⟨⟨?_, ?_⟩, hboth⟩
  · rintro ⟨line, hline⟩
    exact ⟨⟨_, (hboth line hline).1⟩, _, (hboth line hline).2⟩
  · rintro ⟨⟨line₁, h₁⟩, line₂, h₂⟩
    exact exists_order_of_groups hapart hleft hright h₁ h₂

/-- Parcels belong to an order, which has a customer and may have a last parcel; notes have an
author.  The tables of the two groups are listed in turn. -/
def market : Job where
  foreignKeys := .ofList [
    ("note", [⟨["author"], [true], "author", ["id"], none⟩]),
    ("parcel", [⟨["order"], [true], "order", ["id"], none⟩]),
    ("order", [⟨["customer"], [false], "customer", ["id"], none⟩,
      ⟨["last"], [false], "parcel", ["id"], none⟩])]
  primaryKeys := .ofList [("order", ["id"])]
  columns := .ofList [("note", ["id", "author"]), ("parcel", ["id", "order"]), ("author", ["id"]),
    ("order", ["id", "customer", "last"]), ("customer", ["id"])]

/-- The tables that have to do with orders. -/
def isTrade (t : String) : Bool := ["parcel", "order", "customer"].contains t

theorem order_of_apart_market :
    market.Apart isTrade ∧ ∃ line, market.order = .ok line ∧
      line.map (fun p => (p.table, p.kind)) = [("author", .insert), ("note", .insert),
        ("customer", .insert), ("order", .insert), ("parcel", .insert), ("order", .update)] ∧
      (market.only isTrade).order = .ok (line.filter (isTrade ·.table)) ∧
      (market.only fun t => !isTrade t).order = .ok (line.filter (!isTrade ·.table)) := by
  have hkeys : ∀ t ∈ market.tables, ∀ k ∈ (market.foreignKeys.get? t).getD [],
      isTrade t = isTrade k.target := by decide +kernel
  have hapart : market.Apart isTrade := fun t k hk => hkeys t hk.owner k hk.owned
  have hline : market.order = .ok [market.insertPass "author" ["id"],
      market.insertPass "note" ["id", "author"], market.insertPass "customer" ["id"],
      market.insertPass "order" ["id", "customer", "last"],
      market.insertPass "parcel" ["id", "order"], market.updatePass "order"] := by
    decide +kernel
  exact ⟨hapart, _, hline, rfl,
    (order_of_apart hapart (groupOf_only _ _) (groupOf_only _ _)).2 _ hline⟩

end Job

end TransferPlan
