import TransferPlan.Proofs.Pass.Circle
import TransferPlan.Proofs.Pass.Line
import TransferPlan.Proofs.Pass.Validity

/-!
# The passes of a job and their order

`plan` lists the passes of all tables: an insert pass for each, and an update pass for each one
with deferred keys.  The passes are those of the plan unless a table cannot be split
(`passes_eq_ok_iff`), and the order is the line of the plan, provided that nothing is stuck and
every need is met (`order_eq_ok_iff`).
-/

namespace TransferPlan

namespace Job

variable {j : Job} {t : String} {k : ForeignKey} {all : List String} {p q : Pass}

/-! ## The passes of a table -/

section

variable (j : Job) (t : String) (all : List String)

/-- The distinct columns of the primary key of a table. -/
def keyOf : List String := ((j.primaryKeys.get? t).getD []).eraseDups

/-- The foreign keys that the update pass of a table fills in. -/
def deferredOf : List ForeignKey := (j.linksOf t).filter (j.components.defers t)

/-- The foreign keys that the insert pass of a table waits for. -/
def keptOf : List ForeignKey := (j.linksOf t).filter fun k => !j.components.defers t k

/-- The distinct columns of the deferred keys. -/
def deferredColumns : List String := ((j.deferredOf t).flatMap (·.columns)).eraseDups

def insertPass : Pass where
  table := t
  kind := .insert
  primaryKeys := j.keyOf t
  reads := all.eraseDups
  writes := all.eraseDups.filter fun c => !(j.deferredColumns t).contains c
  needs := needsOf (j.keptOf t)
  isSplit := !(j.deferredOf t).isEmpty
  filter := j.filters.get? t

def updatePass : Pass where
  table := t
  kind := .update
  primaryKeys := j.keyOf t
  reads := (j.keyOf t ++ j.deferredColumns t).eraseDups
  writes := j.deferredColumns t
  needs := (⟨t, j.keyOf t⟩ :: needsOf (j.deferredOf t)).eraseDups
  isSplit := true
  filter := j.filters.get? t

/-- The passes of a table, if it can be split. -/
def planOf : List Pass :=
  j.insertPass t all :: if (j.deferredOf t).isEmpty then [] else [j.updatePass t]

/-- The table waits for no row of its own, and the rows to fill in can be found. -/
structure Plannable : Prop where
  target_ne : ∀ k ∈ j.keptOf t, k.target ≠ t
  key_ne_nil : j.deferredOf t ≠ [] → j.keyOf t ≠ []

/-- The passes of all tables, in the order of the tables. -/
def plan : List Pass := j.columns.entries.flatMap fun e => j.planOf e.1 e.2

end

theorem passesOf_eq :
    j.passesOf j.components t all =
      if (j.keptOf t).any (·.target == t) then .error (.requiredSelfReference t)
      else if (j.deferredOf t).isEmpty then .ok (j.planOf t all)
      else if (j.keyOf t).isEmpty then .error (.noPrimaryKey t)
      else .ok (j.planOf t all) := by
  unfold passesOf planOf
  by_cases hs : (j.keptOf t).any (·.target == t)
  · rw [if_pos hs]
    exact if_pos hs
  · rw [if_neg hs]
    refine (if_neg hs).trans ?_
    by_cases hd : (j.deferredOf t).isEmpty
    · have hnil : (j.linksOf t).filter (j.components.defers t) = [] := List.isEmpty_iff.1 hd
      simp [insertPass, deferredColumns, deferredOf, keptOf, keyOf, hnil]
    · have hd' : ((j.linksOf t).filter (j.components.defers t)).isEmpty = false := Bool.not_eq_true _ ▸ hd
      rw [if_neg hd]
      simp [insertPass, updatePass, deferredColumns, deferredOf, keptOf, keyOf, hd']

theorem passesOf_eq_ok_iff {ps : List Pass} :
    j.passesOf j.components t all = .ok ps ↔ j.Plannable t ∧ j.planOf t all = ps := by
  rw [passesOf_eq]
  split_ifs with hs hd hk
  · obtain ⟨k, hkk, hkt⟩ := List.any_eq_true.1 hs
    exact iff_of_false nofun fun h => h.1.target_ne k hkk (by simpa using hkt)
  all_goals have hself : ∀ k ∈ j.keptOf t, k.target ≠ t := by simpa using hs
  · have hplan : j.Plannable t := ⟨hself, fun h => absurd (List.isEmpty_iff.1 hd) h⟩
    simp [hplan]
  · have hd' : j.deferredOf t ≠ [] := by simpa using hd
    exact iff_of_false nofun fun h => h.1.key_ne_nil hd' (List.isEmpty_iff.1 hk)
  · have hplan : j.Plannable t := ⟨hself, fun _ => by simpa using hk⟩
    simp [hplan]

theorem passes_eq_ok_iff {ps : List Pass} :
    j.passes j.components = .ok ps ↔ (∀ t ∈ j.tables, j.Plannable t) ∧ j.plan = ps := by
  have hmap : j.passes j.components = .ok ps ↔ ∃ pss,
      j.columns.entries.mapM (fun e => j.passesOf j.components e.1 e.2) = .ok pss ∧ pss.flatten = ps := by
    unfold passes
    cases j.columns.entries.mapM (fun e => j.passesOf j.components e.1 e.2) <;> simp [Except.map]
  have hall : ∀ pss : List (List Pass),
      List.Forall₂ (fun e ps => j.passesOf j.components e.1 e.2 = .ok ps) j.columns.entries pss ↔
        (∀ e ∈ j.columns.entries, j.Plannable e.1) ∧
          j.columns.entries.map (fun e => j.planOf e.1 e.2) = pss := by
    intro pss
    simp only [passesOf_eq_ok_iff, List.forall₂_and_left]
    rw [← List.forall₂_map_left_iff (R := Eq), List.forall₂_eq_eq_eq]
  simp only [hmap, mapM_eq_ok_iff, hall, tables, Keyed.keys, List.forall_mem_map, plan,
    List.flatMap_def]
  constructor
  · rintro ⟨pss, ⟨hp, rfl⟩, rfl⟩
    exact ⟨hp, rfl⟩
  · rintro ⟨hp, rfl⟩
    exact ⟨_, ⟨hp, rfl⟩, rfl⟩

/-! ## Membership in the plan -/

theorem mem_planOf :
    p ∈ j.planOf t all ↔
      p = j.insertPass t all ∨ j.deferredOf t ≠ [] ∧ p = j.updatePass t := by
  by_cases hd : j.deferredOf t = [] <;> simp [planOf, hd]

theorem mem_plan :
    p ∈ j.plan ↔ ∃ t all, (t, all) ∈ j.columns.entries ∧
      (p = j.insertPass t all ∨ j.deferredOf t ≠ [] ∧ p = j.updatePass t) := by
  simp [plan, mem_planOf]

theorem exists_columns (ht : t ∈ j.tables) : ∃ all, (t, all) ∈ j.columns.entries := by
  obtain ⟨e, he, rfl⟩ := List.mem_map.1 ht
  exact ⟨e.2, he⟩

theorem mem_tables (he : (t, all) ∈ j.columns.entries) : t ∈ j.tables :=
  List.mem_map_of_mem he

theorem insertPass_mem_plan (he : (t, all) ∈ j.columns.entries) :
    j.insertPass t all ∈ j.plan :=
  mem_plan.2 ⟨t, all, he, .inl rfl⟩

theorem updatePass_mem_plan (ht : t ∈ j.tables) (hd : j.deferredOf t ≠ []) :
    j.updatePass t ∈ j.plan := by
  obtain ⟨all, he⟩ := exists_columns ht
  exact mem_plan.2 ⟨t, all, he, .inr ⟨hd, rfl⟩⟩

theorem table_mem_of_mem_plan (hp : p ∈ j.plan) : p.table ∈ j.tables := by
  obtain ⟨t, all, he, rfl | ⟨-, rfl⟩⟩ := mem_plan.1 hp <;> exact mem_tables he

theorem eq_insertPass (hp : p ∈ j.plan) (hk : p.kind = .insert)
    (he : (p.table, all) ∈ j.columns.entries) : p = j.insertPass p.table all := by
  obtain ⟨t, all', he', rfl | ⟨-, rfl⟩⟩ := mem_plan.1 hp
  · have : (t, all') = (t, all) := List.inj_on_of_nodup_map j.columns.nodup he' he rfl
    obtain ⟨-, rfl⟩ := Prod.mk.inj this
    rfl
  · exact nomatch hk

theorem eq_updatePass (hp : p ∈ j.plan) (hk : p.kind = .update) :
    j.deferredOf p.table ≠ [] ∧ p = j.updatePass p.table := by
  obtain ⟨t, all, he, rfl | ⟨hd, rfl⟩⟩ := mem_plan.1 hp
  · exact nomatch hk
  · exact ⟨hd, rfl⟩

/-- A pass is known by its table and its kind. -/
theorem eq_of_mem_plan (hp : p ∈ j.plan) (hq : q ∈ j.plan) (ht : p.table = q.table)
    (hk : p.kind = q.kind) : p = q := by
  cases hpk : p.kind with
  | insert =>
      obtain ⟨all, he⟩ := exists_columns (table_mem_of_mem_plan hp)
      rw [eq_insertPass hp hpk he, ht]
      exact (eq_insertPass hq (hk ▸ hpk) (ht ▸ he)).symm
  | update =>
      rw [(eq_updatePass hp hpk).2, ht]
      exact (eq_updatePass hq (hk ▸ hpk)).2.symm

theorem nodup_plan (j : Job) : j.plan.Nodup := by
  refine List.nodup_flatMap.2 ⟨fun e _ => ?_, ?_⟩
  · unfold planOf
    split <;> simp [insertPass, updatePass]
  · refine (List.pairwise_map.1 j.columns.nodup).imp ?_
    intro a b hab p hpa hpb
    apply hab
    rcases mem_planOf.1 hpa with rfl | ⟨-, rfl⟩ <;> rcases mem_planOf.1 hpb with h | ⟨-, h⟩ <;>
      exact congrArg Pass.table h

/-! ## What the passes write and need -/

section Table

variable {c : String} {n : Need}

theorem mem_deferredOf (ht : t ∈ j.tables) : k ∈ j.deferredOf t ↔ j.Deferrable t k := by
  rw [deferredOf, List.mem_filter, mem_linksOf ht]
  exact ⟨fun h => (defers_iff h.1).1 h.2, fun h => ⟨h.1.1, (defers_iff h.1.1).2 h⟩⟩

theorem mem_keptOf (ht : t ∈ j.tables) :
    k ∈ j.keptOf t ↔ j.InJob t k ∧ ¬ j.Deferrable t k := by
  rw [keptOf, List.mem_filter, mem_linksOf ht, Bool.not_eq_true', ← Bool.not_eq_true]
  exact and_congr_right fun h => not_congr (defers_iff h)

theorem deferredOf_ne_nil_iff (ht : t ∈ j.tables) :
    j.deferredOf t ≠ [] ↔ ∃ k, j.Deferrable t k := by
  simp only [← mem_deferredOf ht]
  exact ⟨List.exists_mem_of_ne_nil _, fun ⟨_, hk⟩ => List.ne_nil_of_mem hk⟩

theorem mem_deferredColumns (ht : t ∈ j.tables) : c ∈ j.deferredColumns t ↔ j.Defers t c := by
  simp only [deferredColumns, List.mem_eraseDups, List.mem_flatMap, mem_deferredOf ht, Defers]

theorem mem_needsOf {ks : List ForeignKey} :
    n ∈ needsOf ks ↔ ∃ k ∈ ks, ⟨k.target, k.targetColumns⟩ = n := by
  simp [needsOf]

theorem mem_writes_insertPass (ht : t ∈ j.tables) :
    c ∈ (j.insertPass t all).writes ↔ c ∈ all ∧ ¬ j.Defers t c := by
  simp [insertPass, mem_deferredColumns ht]

theorem mem_writes_updatePass (ht : t ∈ j.tables) :
    c ∈ (j.updatePass t).writes ↔ j.Defers t c :=
  mem_deferredColumns ht

theorem mem_needs_insertPass (ht : t ∈ j.tables) :
    n ∈ (j.insertPass t all).needs ↔
      ∃ k, (j.InJob t k ∧ ¬ j.Deferrable t k) ∧ ⟨k.target, k.targetColumns⟩ = n := by
  simp only [insertPass, mem_needsOf, mem_keptOf ht]

theorem mem_needs_updatePass (ht : t ∈ j.tables) :
    n ∈ (j.updatePass t).needs ↔
      n = ⟨t, j.keyOf t⟩ ∨ ∃ k, j.Deferrable t k ∧ ⟨k.target, k.targetColumns⟩ = n := by
  simp only [updatePass, List.mem_eraseDups, List.mem_cons, mem_needsOf, mem_deferredOf ht]

theorem plannable_iff (ht : t ∈ j.tables) :
    j.Plannable t ↔ (∀ k, j.InJob t k → ¬ j.Deferrable t k → k.target ≠ t) ∧
      ((∃ k, j.Deferrable t k) → j.keyOf t ≠ []) := by
  rw [← deferredOf_ne_nil_iff ht]
  constructor
  · exact fun h => ⟨fun k hk hd => h.target_ne k ((mem_keptOf ht).2 ⟨hk, hd⟩), h.key_ne_nil⟩
  · exact fun h => ⟨fun k hk => h.1 k ((mem_keptOf ht).1 hk).1 ((mem_keptOf ht).1 hk).2, h.2⟩

end Table

/-! ## The order -/

theorem order_of_passes_error {e : OrderError} (h : j.passes j.components = .error e) :
    j.order = .error e := by
  simp only [order, h]
  rfl

theorem order_of_passes_ok {ps : List Pass} (h : j.passes j.components = .ok ps) :
    j.order =
      if (inLine j.components ps).length = ps.length then
        if Pass.isValidOrder (inLine j.components ps) then .ok (inLine j.components ps)
        else .error (.unmet ((inLine j.components ps).map (·.table)))
      else .error (.blocked (sorted ((blocked j.components ps).map (·.table)))) := by
  have hbind : j.order = (if (inLine j.components ps).length != ps.length then
      .error (.blocked (sorted ((blocked j.components ps).map (·.table))))
      else if !Pass.isValidOrder (inLine j.components ps) then
        .error (.unmet ((inLine j.components ps).map (·.table)))
      else .ok (inLine j.components ps)) := by
    simp only [order, h, Except.bind, bind]
    rfl
  rw [hbind]
  by_cases hlength : (inLine j.components ps).length = ps.length
  · cases Pass.isValidOrder (inLine j.components ps) <;> simp [hlength]
  · simp [hlength]

/-- The order is the line of the plan, if nothing is stuck and every need is met. -/
theorem order_eq_ok_iff {line : List Pass} :
    j.order = .ok line ↔ (∀ t ∈ j.tables, j.Plannable t) ∧
      Lines (precedes j.components) j.plan line [] ∧ Pass.Ordered line := by
  cases hps : j.passes j.components with
  | error e =>
      rw [order_of_passes_error hps]
      refine iff_of_false nofun fun h => ?_
      exact nomatch hps.symm.trans (passes_eq_ok_iff.2 ⟨h.1, rfl⟩)
  | ok ps =>
      obtain ⟨hplan, rfl⟩ := passes_eq_ok_iff.1 hps
      have hl := lines_inLine j.components j.plan
      rw [order_of_passes_ok hps, and_iff_right hplan]
      constructor
      · intro h
        split_ifs at h with hlength hv
        obtain rfl := Except.ok.inj h
        rw [hl.stuck_eq_nil_iff.2 hlength] at hl
        exact ⟨hl, (Pass.isValidOrder_iff _).1 hv⟩
      · rintro ⟨hline, hv⟩
        obtain ⟨rfl, hnil⟩ := hl.unique hline
        rw [if_pos (hl.stuck_eq_nil_iff.1 hnil.symm), if_pos ((Pass.isValidOrder_iff _).2 hv)]

/-- An order of the job is a line of the whole plan. -/
theorem lines_of_order {line : List Pass} (h : j.order = .ok line) :
    Lines (precedes j.components) j.plan line [] :=
  (order_eq_ok_iff.1 h).2.1

theorem perm_of_order {line : List Pass} (h : j.order = .ok line) :
    line.Perm j.plan := by
  simpa using (lines_of_order h).perm

theorem nodup_of_order {line : List Pass} (h : j.order = .ok line) : line.Nodup :=
  (perm_of_order h).nodup_iff.2 (nodup_plan j)

theorem ordered_of_order {line : List Pass} (h : j.order = .ok line) : Pass.Ordered line :=
  (order_eq_ok_iff.1 h).2.2

/-! ## Around the update pass of a table -/

section Update

variable {line done rest : List Pass}

/-- Only the insert pass of a table can come before its update pass. -/
theorem eq_insertPass_of_before (hp : line.Perm j.plan)
    (hl : line = done ++ j.updatePass t :: rest) (he : (t, all) ∈ j.columns.entries)
    (hq : q ∈ done) (hqt : q.table = t) : q = j.insertPass t all := by
  have hplan : q ∈ j.plan := hp.subset (hl ▸ List.mem_append_left _ hq)
  subst hqt
  cases hk : q.kind with
  | insert => exact eq_insertPass hplan hk he
  | update =>
      have hnd := hp.nodup_iff.2 (nodup_plan j)
      rw [hl, ← (eq_updatePass hplan hk).2, List.nodup_append] at hnd
      exact absurd rfl (hnd.2.2 q hq q List.mem_cons_self)

/-- The update pass of a table finds the primary key written. -/
theorem met_key_of_updatePass (ho : Pass.Ordered line)
    (hl : line = done ++ j.updatePass t :: rest) (ht : t ∈ j.tables) :
    Need.Met ⟨t, j.keyOf t⟩ done :=
  ho _ _ _ hl _ ((mem_needs_updatePass ht).2 (.inl rfl))

/-- The insert pass of a table comes before its update pass. -/
theorem insertPass_mem_of_before (hp : line.Perm j.plan) (ho : Pass.Ordered line)
    (hl : line = done ++ j.updatePass t :: rest) (he : (t, all) ∈ j.columns.entries) :
    j.insertPass t all ∈ done := by
  obtain ⟨q, hq, hqt⟩ := (met_key_of_updatePass ho hl (mem_tables he)).visited
  exact eq_insertPass_of_before hp hl he hq hqt ▸ hq

end Update

end Job

end TransferPlan
