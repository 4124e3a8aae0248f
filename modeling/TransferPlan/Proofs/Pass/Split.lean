import TransferPlan.Proofs.Pass.Plan

/-!
# Splitting loses no column

An order has one insert pass for each table of the job, one update pass for each table with a
deferrable key, and nothing else.  The update pass writes the columns of the deferrable keys, the
insert pass all others, so each column of a table is written once (`split_exact`).
-/

namespace TransferPlan

/-- The passes of one kind over a table. -/
def Pass.over (passes : List Pass) (t : String) (kind : PassKind) : List Pass :=
  passes.filter fun p => p.table == t && p.kind == kind

/-- The passes over a table that write a column. -/
def Pass.writing (passes : List Pass) (t c : String) : List Pass :=
  passes.filter fun p => p.table == t && p.writes.contains c

namespace Job

variable {j : Job} {line : List Pass} {p : Pass} {t c : String} {all : List String}

theorem over_insert (h : j.order = .ok line) (he : (t, all) ∈ j.columns.entries) :
    Pass.over line t .insert = [j.insertPass t all] := by
  have hmem : ∀ {p}, p ∈ line ↔ p ∈ j.plan := (perm_of_order h).mem_iff
  refine filter_eq_singleton (nodup_of_order h) (hmem.2 (insertPass_mem_plan he)) ?_ ?_
  · simp [insertPass]
  · intro p hp htk
    simp only [Bool.and_eq_true, beq_iff_eq] at htk
    obtain ⟨rfl, hk⟩ := htk
    exact eq_insertPass (hmem.1 hp) hk he

theorem over_update (h : j.order = .ok line) (ht : t ∈ j.tables)
    (hd : ∃ k, j.Deferrable t k) : Pass.over line t .update = [j.updatePass t] := by
  have hmem : ∀ {p}, p ∈ line ↔ p ∈ j.plan := (perm_of_order h).mem_iff
  have hd' := (deferredOf_ne_nil_iff ht).2 hd
  refine filter_eq_singleton (nodup_of_order h) (hmem.2 (updatePass_mem_plan ht hd')) ?_ ?_
  · simp [updatePass]
  · intro p hp htk
    simp only [Bool.and_eq_true, beq_iff_eq] at htk
    obtain ⟨rfl, hk⟩ := htk
    exact (eq_updatePass (hmem.1 hp) hk).2

theorem over_update_eq_nil (h : j.order = .ok line) (ht : t ∈ j.tables)
    (hd : ¬ ∃ k, j.Deferrable t k) : Pass.over line t .update = [] := by
  rw [← deferredOf_ne_nil_iff ht, not_not] at hd
  refine List.filter_eq_nil_iff.2 fun p hp htk => ?_
  simp only [Bool.and_eq_true, beq_iff_eq] at htk
  obtain ⟨rfl, hk⟩ := htk
  exact (eq_updatePass ((perm_of_order h).subset hp) hk).1 hd

theorem isSplit_insertPass (ht : t ∈ j.tables) :
    (j.insertPass t all).isSplit = true ↔ ∃ k, j.Deferrable t k := by
  rw [← deferredOf_ne_nil_iff ht]
  simp [insertPass]

theorem writes_insertPass (t : String) (all : List String) :
    (j.insertPass t all).writes = all.eraseDups.filter (· ∉ j.deferredColumns t) := by
  simp [insertPass]

/-- The update pass finds the primary key written by the insert pass. -/
theorem mem_writes_insertPass_of_mem_keyOf {done rest : List Pass} (h : j.order = .ok line)
    (hl : line = done ++ j.updatePass t :: rest) (he : (t, all) ∈ j.columns.entries)
    (hc : c ∈ j.keyOf t) : c ∈ (j.insertPass t all).writes := by
  obtain ⟨q, hq, hqt, hqc⟩ :=
    (met_key_of_updatePass (ordered_of_order h) hl (mem_tables he)).written c hc
  exact eq_insertPass_of_before (perm_of_order h) hl he hq hqt ▸ hqc

/-- The primary key has no deferred column. -/
theorem not_defers_of_mem_keyOf (h : j.order = .ok line) (ht : t ∈ j.tables)
    (hd : ∃ k, j.Deferrable t k) (hc : c ∈ j.keyOf t) : ¬ j.Defers t c := by
  obtain ⟨all, he⟩ := exists_columns ht
  obtain ⟨done, rest, hl⟩ := List.append_of_mem
    ((perm_of_order h).mem_iff.2 (updatePass_mem_plan ht ((deferredOf_ne_nil_iff ht).2 hd)))
  exact ((mem_writes_insertPass ht).1 (mem_writes_insertPass_of_mem_keyOf h hl he hc)).2

theorem reads_updatePass (h : j.order = .ok line) (ht : t ∈ j.tables)
    (hd : ∃ k, j.Deferrable t k) :
    (j.updatePass t).reads = j.keyOf t ++ j.deferredColumns t := by
  refine eraseDups_eq_self (List.nodup_append.2 ⟨nodup_eraseDups _, nodup_eraseDups _, ?_⟩)
  rintro c hc _ hcd rfl
  exact not_defers_of_mem_keyOf h ht hd hc ((mem_deferredColumns ht).1 hcd)

/-- A pass that writes a deferred column is an update pass. -/
theorem update_iff_defers (h : j.order = .ok line) (hp : p ∈ line) (hw : c ∈ p.writes) :
    p.kind = .update ↔ j.Defers p.table c := by
  have hplan := (perm_of_order h).subset hp
  have ht := table_mem_of_mem_plan hplan
  cases hk : p.kind with
  | insert =>
      obtain ⟨all, he⟩ := exists_columns ht
      rw [eq_insertPass hplan hk he, mem_writes_insertPass ht] at hw
      exact iff_of_false nofun hw.2
  | update =>
      rw [(eq_updatePass hplan hk).2, mem_writes_updatePass ht] at hw
      exact iff_of_true rfl hw

/-- No other pass writes what a pass over a table writes. -/
theorem writing_eq (h : j.order = .ok line) (hp : p ∈ line) (hw : c ∈ p.writes) :
    Pass.writing line p.table c = [p] := by
  refine filter_eq_singleton (nodup_of_order h) hp (by simp [hw]) fun q hq hqw => ?_
  simp only [Bool.and_eq_true, beq_iff_eq, List.contains_iff_mem] at hqw
  have hsub := (perm_of_order h).subset
  refine eq_of_mem_plan (hsub hq) (hsub hp) hqw.1 ?_
  have hiff := (update_iff_defers h hq hqw.2).trans (hqw.1 ▸ (update_iff_defers h hp hw).symm)
  cases hqk : q.kind <;> cases hpk : p.kind <;> simp [hqk, hpk] at hiff ⊢

/-- Each column of a table is written by one pass over it. -/
theorem exists_writing_eq (h : j.order = .ok line) (he : (t, all) ∈ j.columns.entries)
    (hc : c ∈ all) : ∃ p, Pass.writing line t c = [p] := by
  have ht := mem_tables he
  have hmem : ∀ {p}, p ∈ line ↔ p ∈ j.plan := (perm_of_order h).mem_iff
  by_cases hd : j.Defers t c
  · obtain ⟨k, hk, -⟩ := id hd
    have hup := updatePass_mem_plan ht ((deferredOf_ne_nil_iff ht).2 ⟨k, hk⟩)
    exact ⟨_, writing_eq h (hmem.2 hup) ((mem_writes_updatePass ht).2 hd)⟩
  · have hins := insertPass_mem_plan he
    exact ⟨_, writing_eq h (hmem.2 hins) ((mem_writes_insertPass ht).2 ⟨hc, hd⟩)⟩

/-- The passes over a table write its columns and its deferred columns. -/
theorem exists_writes_iff (h : j.order = .ok line) (he : (t, all) ∈ j.columns.entries) :
    (∃ p ∈ line, p.table = t ∧ c ∈ p.writes) ↔ c ∈ all ∨ j.Defers t c := by
  have ht := mem_tables he
  have hmem : ∀ {p}, p ∈ line ↔ p ∈ j.plan := (perm_of_order h).mem_iff
  constructor
  · rintro ⟨p, hp, rfl, hw⟩
    cases hk : p.kind with
    | insert =>
        rw [eq_insertPass (hmem.1 hp) hk he, mem_writes_insertPass ht] at hw
        exact .inl hw.1
    | update => exact .inr ((update_iff_defers h hp hw).1 hk)
  · rintro (hc | hd)
    · obtain ⟨p, hone⟩ := exists_writing_eq h he hc
      have hp : p ∈ Pass.writing line t c := hone ▸ List.mem_cons_self
      exact ⟨p, by simpa [Pass.writing] using hp⟩
    · obtain ⟨k, hk, -⟩ := id hd
      have hup := updatePass_mem_plan ht ((deferredOf_ne_nil_iff ht).2 ⟨k, hk⟩)
      exact ⟨_, hmem.2 hup, rfl, (mem_writes_updatePass ht).2 hd⟩

theorem nodup_writes (hp : p ∈ j.plan) : p.writes.Nodup := by
  obtain ⟨t, all, -, rfl | ⟨-, rfl⟩⟩ := mem_plan.1 hp
  · exact (nodup_eraseDups _).filter _
  · exact nodup_eraseDups _

/-- How a list of passes splits the columns `all` of a table, when `deferred` are those that are
filled in. -/
structure SplitInto (j : Job) (line : List Pass) (t : String) (all deferred : List String) :
    Prop where
  nodup : deferred.Nodup
  mem_iff : ∀ c, c ∈ deferred ↔ j.Defers t c
  insert : ∃ ins, Pass.over line t .insert = [ins] ∧
    ins.writes = all.eraseDups.filter (· ∉ deferred) ∧
      (ins.isSplit = true ↔ ∃ k, j.Deferrable t k)
  update : (∃ k, j.Deferrable t k) → ∃ upd, Pass.over line t .update = [upd] ∧
    upd.writes = deferred ∧ upd.reads = j.keyOf t ++ deferred ∧ upd.isSplit = true
  no_update : (¬ ∃ k, j.Deferrable t k) → Pass.over line t .update = []
  written_once : ∀ c ∈ all, ∃ p, Pass.writing line t c = [p]

/-- An order is over the tables of the job only, and splits the columns of each. -/
theorem split_exact (h : j.order = .ok line) :
    (∀ p ∈ line, p.table ∈ j.tables) ∧
      ∀ t all, (t, all) ∈ j.columns.entries → ∃ deferred, j.SplitInto line t all deferred := by
  refine ⟨fun p hp => table_mem_of_mem_plan ((perm_of_order h).subset hp), fun t all he => ?_⟩
  have ht := mem_tables he
  exact ⟨j.deferredColumns t,
    { nodup := nodup_eraseDups _
      mem_iff := fun c => mem_deferredColumns ht
      insert := ⟨_, over_insert h he, writes_insertPass t all, isSplit_insertPass ht⟩
      update := fun hd => ⟨_, over_update h ht hd, rfl, reads_updatePass h ht hd, rfl⟩
      no_update := over_update_eq_nil h ht
      written_once := fun c hc => exists_writing_eq h he hc }⟩

/-- Teams have a lead, who belongs to a team, and a parent team. -/
def teams : Job where
  foreignKeys := .ofList [
    ("team", [⟨["lead", "unit"], [false, false], "person", ["id", "unit"], none⟩,
      ⟨["parent"], [false], "team", ["id"], none⟩]),
    ("person", [⟨["team"], [true], "team", ["id"], none⟩])]
  primaryKeys := .ofList [("team", ["id"]), ("person", ["id"])]
  columns := .ofList [("team", ["id", "lead", "unit", "parent"]), ("person", ["id", "unit", "team"])]

theorem split_exact_teams :
    teams.order = .ok [teams.insertPass "team" ["id", "lead", "unit", "parent"],
      teams.insertPass "person" ["id", "unit", "team"], teams.updatePass "team"] ∧
    ∃ deferred, teams.SplitInto [teams.insertPass "team" ["id", "lead", "unit", "parent"],
      teams.insertPass "person" ["id", "unit", "team"], teams.updatePass "team"]
      "team" ["id", "lead", "unit", "parent"] deferred := by
  have h : teams.order = .ok [teams.insertPass "team" ["id", "lead", "unit", "parent"],
      teams.insertPass "person" ["id", "unit", "team"], teams.updatePass "team"] := by
    decide +kernel
  exact ⟨h, (split_exact h).2 "team" _ (by decide)⟩

/-- A table with the empty name references itself, and the key may be null. -/
def unnamedSelf : Job where
  foreignKeys := .ofList [("", [⟨["parent"], [false], "", ["id"], none⟩])]
  primaryKeys := .ofList [("", ["id"])]
  columns := .ofList [("", ["id", "parent"])]

/-- A circle through a table with the empty name splits no table. -/
theorem unnamed_self_not_split :
    ¬ ∀ (j : Job) (line : List Pass), j.order = .ok line →
      ∀ (t : String) (k : ForeignKey), t ∈ j.tables → k ∈ (j.foreignKeys.get? t).getD [] →
        k.target = t → k.columns ≠ [] → k.targetColumns ≠ [] → ¬ k.Required →
        ∃ upd, Pass.over line t .update = [upd] := by
  intro hall
  have h : unnamedSelf.order = .ok [unnamedSelf.insertPass "" ["id", "parent"]] := by
    decide +kernel
  obtain ⟨upd, hupd⟩ := hall unnamedSelf _ h "" ⟨["parent"], [false], "", ["id"], none⟩
    (by decide) (by decide) rfl (by decide) (by decide) (by simp [ForeignKey.Required])
  have hnil : Pass.over [unnamedSelf.insertPass "" ["id", "parent"]] "" .update = [] := by
    decide +kernel
  rw [hnil] at hupd
  exact absurd hupd.symm (List.cons_ne_nil _ _)

end Job

end TransferPlan
