import TransferPlan.Proofs.Keyed
import TransferPlan.Proofs.Pass.Least

/-!
# The tables that an order cannot reach

When not every pass can be put in line, the error names the tables that still have a pass to be
done.  They are the tables with a pass on a circle of the precedence or behind one, in ascending
order and each once (`blocked_names_circles`); the tables of a circle of kept keys are among them.
-/

namespace TransferPlan

namespace Job

open Relation

variable {j : Job} {t r : String} {p q : Pass} {ps line stuck : List Pass}

/-! ## Sorted texts -/

theorem mem_sorted {ts : List String} : t ∈ sorted ts ↔ t ∈ ts := by
  simp [sorted]

/-- Sorted texts ascend, so none is repeated. -/
theorem pairwise_sorted_lt (ts : List String) : (sorted ts).Pairwise (· < ·) := by
  have hle : (ts.mergeSort (· ≤ ·)).Pairwise (· ≤ ·) := by
    refine (List.pairwise_mergeSort (fun a b c hab hbc => ?_) (fun a b => ?_) ts).imp
      of_decide_eq_true
    · exact decide_eq_true (String.le_trans (of_decide_eq_true hab) (of_decide_eq_true hbc))
    · rw [Bool.or_eq_true, decide_eq_true_eq, decide_eq_true_eq]
      exact String.le_total a b
  have hnd : (sorted ts).Pairwise (· ≠ ·) := nodup_eraseDups _
  refine ((hle.sublist (eraseDups_sublist _)).and hnd).imp fun {a b} h => ?_
  apply String.not_le.1
  intro hba
  exact h.2 (String.le_antisymm h.1 hba)

/-- There is one way to write texts in ascending order and each once. -/
theorem sorted_eq_of_pairwise {ts ascending : List String} (h : ascending.Pairwise (· < ·))
    (hmem : ∀ t, t ∈ ascending ↔ t ∈ ts) : sorted ts = ascending := by
  have hnodup : (sorted ts).Nodup := nodup_eraseDups _
  have hnodup' : ascending.Pairwise (· ≠ ·) := by
    refine h.imp fun {a b} hab heq => ?_
    rw [heq] at hab
    exact String.lt_irrefl b hab
  have hperm : (sorted ts).Perm ascending := by
    refine (List.perm_ext_iff_of_nodup hnodup hnodup').2 fun t => ?_
    rw [mem_sorted, hmem]
  exact hperm.eq_of_pairwise (fun _ _ _ _ hab hba => absurd hba (String.lt_asymm hab))
    (pairwise_sorted_lt ts) h

/-! ## Circles of the precedence -/

/-- One of the passes must come before another of them. -/
structure Precedes (j : Job) (ps : List Pass) (q p : Pass) : Prop where
  left : q ∈ ps
  right : p ∈ ps
  mustPrecede : j.MustPrecede q p

/-- The pass is on a circle of the precedence or comes after one. -/
def Hindered (j : Job) (ps : List Pass) (p : Pass) : Prop :=
  ∃ q, TransGen (j.Precedes ps) q q ∧ ReflTransGen (j.Precedes ps) q p

/-- A key that is not deferred leads from the one table to the other, in a circle. -/
def KeepsWithin (j : Job) (t r : String) : Prop :=
  ∃ k, j.Circular t k ∧ ¬ j.Deferrable t k ∧ k.target = r

/-- The passes that find no place in the line are those on a circle and those behind one. -/
theorem mem_stuck_iff_hindered (h : Lines (precedes j.components) j.plan line stuck) :
    p ∈ stuck ↔ p ∈ j.plan ∧ j.Hindered j.plan p := by
  have hprec : ∀ q p, j.Precedes j.plan q p ↔
      q ∈ j.plan ∧ p ∈ j.plan ∧ precedes j.components q p = true := by
    intro q p
    constructor
    · intro e
      exact ⟨e.left, e.right, (mustPrecede_iff e.left e.right).1 e.mustPrecede⟩
    · rintro ⟨hq, hp, e⟩
      exact ⟨hq, hp, (mustPrecede_iff hq hp).2 e⟩
  constructor
  · intro hp
    have hplan : p ∈ j.plan := h.perm.subset (List.mem_append_right _ hp)
    exact ⟨hplan, (h.mem_stuck_iff (nodup_plan j) hprec hplan).1 hp⟩
  · rintro ⟨hplan, hp⟩
    exact (h.mem_stuck_iff (nodup_plan j) hprec hplan).2 hp

/-- In a circle of kept keys the insert passes wait for each other. -/
theorem hindered_of_keepsWithin (h : TransGen j.KeepsWithin t t) :
    ∃ p ∈ j.plan, p.table = t ∧ j.Hindered j.plan p := by
  let pass (t : String) : Pass := j.insertPass t ((j.columns.get? t).getD [])
  have hpass : ∀ {t}, t ∈ j.tables → pass t ∈ j.plan := by
    intro t ht
    obtain ⟨all, he⟩ := exists_columns ht
    have hget : j.columns.get? t = some all := Keyed.get?_eq_some_iff.2 he
    have hmem := insertPass_mem_plan he
    simpa [pass, hget] using hmem
  have hstep : ∀ t r, j.KeepsWithin t r → j.Precedes j.plan (pass r) (pass t) := by
    rintro t r ⟨k, hk, hkept, rfl⟩
    exact ⟨hpass hk.1.target, hpass hk.1.owner, .joined k hk.1 hkept rfl hk.2 rfl rfl⟩
  have hcircle : TransGen (j.Precedes j.plan) (pass t) (pass t) :=
    transGen_swap.1 (h.lift pass hstep)
  obtain ⟨r, ⟨k, hk, -⟩, -⟩ := TransGen.head'_iff.1 h
  exact ⟨pass t, hpass hk.1.owner, rfl, pass t, hcircle, .refl⟩

/-! ## The error -/

theorem order_eq_blocked (h : j.passes j.components = .ok ps)
    (hline : (inLine j.components ps).length ≠ ps.length) :
    j.order = .error (.blocked (sorted ((blocked j.components ps).map (·.table)))) := by
  rw [order_of_passes_ok h, if_neg hline]

/-- If passes cannot be put in line, the error names, in ascending order and each once, the tables
with a pass that is on a circle of the precedence or comes after one.  Every table of a circle of
kept keys is named. -/
theorem blocked_names_circles (h : j.passes j.components = .ok ps)
    (hline : (inLine j.components ps).length ≠ ps.length) :
    ∃ ts, j.order = .error (.blocked ts) ∧ ts.Pairwise (· < ·) ∧
      (∀ t, t ∈ ts ↔ ∃ p ∈ ps, p.table = t ∧ j.Hindered ps p) ∧
      ∀ t, TransGen j.KeepsWithin t t → t ∈ ts := by
  have horder := order_eq_blocked h hline
  obtain rfl : j.plan = ps := (passes_eq_ok_iff.1 h).2
  have hl := lines_inLine j.components j.plan
  have hnamed : ∀ t, t ∈ sorted ((blocked j.components j.plan).map (·.table)) ↔
      ∃ p ∈ j.plan, p.table = t ∧ j.Hindered j.plan p := by
    intro t
    rw [mem_sorted, List.mem_map]
    constructor
    · rintro ⟨p, hp, rfl⟩
      obtain ⟨hplan, hhindered⟩ := (mem_stuck_iff_hindered hl).1 hp
      exact ⟨p, hplan, rfl, hhindered⟩
    · rintro ⟨p, hplan, rfl, hhindered⟩
      exact ⟨p, (mem_stuck_iff_hindered hl).2 ⟨hplan, hhindered⟩, rfl⟩
  exact ⟨_, horder, pairwise_sorted_lt _, hnamed,
    fun t ht => (hnamed t).2 (hindered_of_keepsWithin ht)⟩

/-- Offices and desks require each other.  A lamp belongs to a desk, which may have a favourite one,
and has a plug. -/
def furnishing : Job where
  foreignKeys := .ofList [
    ("office", [⟨["desk"], [true], "desk", ["id"], none⟩]),
    ("lamp", [⟨["desk"], [true], "desk", ["id"], none⟩, ⟨["plug"], [true], "plug", ["id"], none⟩]),
    ("desk", [⟨["office"], [true], "office", ["id"], none⟩,
      ⟨["lamp"], [false], "lamp", ["id"], none⟩])]
  primaryKeys := .ofList [("desk", ["id"])]
  columns := .ofList [("plug", ["id"]), ("office", ["id", "desk"]),
    ("lamp", ["id", "desk", "plug"]), ("desk", ["id", "office", "lamp"])]

theorem passes_furnishing :
    furnishing.passes furnishing.components = .ok furnishing.plan := by
  decide +kernel

theorem blocked_furnishing :
    (inLine furnishing.components furnishing.plan).map (·.table) = ["plug"] ∧
      (blocked furnishing.components furnishing.plan).map (·.table) =
        ["office", "lamp", "desk", "desk"] := by
  decide +kernel

/-- Lamps are behind the circle of offices and desks; plugs are not. -/
theorem blocked_names_circles_furnishing :
    furnishing.passes furnishing.components = .ok furnishing.plan ∧
      (inLine furnishing.components furnishing.plan).length ≠ furnishing.plan.length ∧
      furnishing.order = .error (.blocked ["desk", "lamp", "office"]) ∧
      ∀ t, t ∈ ["desk", "lamp", "office"] ↔
        ∃ p ∈ furnishing.plan, p.table = t ∧ furnishing.Hindered furnishing.plan p := by
  have hline : (inLine furnishing.components furnishing.plan).length ≠
      furnishing.plan.length := by
    decide +kernel
  have hsorted : sorted ["office", "lamp", "desk", "desk"] = ["desk", "lamp", "office"] := by
    refine sorted_eq_of_pairwise (by decide) fun t => ?_
    simp only [List.mem_cons, List.not_mem_nil, or_false]
    tauto
  have horder : furnishing.order = .error (.blocked ["desk", "lamp", "office"]) := by
    rw [order_eq_blocked passes_furnishing hline, blocked_furnishing.2, hsorted]
  obtain ⟨ts, hts, -, hnamed, -⟩ := blocked_names_circles passes_furnishing hline
  obtain rfl := OrderError.blocked.inj (Except.error.inj (horder.symm.trans hts))
  exact ⟨passes_furnishing, hline, horder, hnamed⟩

/-- Orders belong to a user; the table of users has no name. -/
def unnamedBlocked : Job where
  foreignKeys := .ofList [
    ("order", [⟨["user"], [true], "", ["id"], none⟩]),
    ("", [⟨["boss"], [true], "boss", ["id"], none⟩]),
    ("boss", [⟨["clerk"], [true], "clerk", ["id"], none⟩]),
    ("clerk", [⟨["boss"], [true], "boss", ["id"], none⟩])]
  columns := .ofList [("order", ["id", "user"]), ("", ["id", "boss"]), ("boss", ["id", "clerk"]),
    ("clerk", ["id", "boss"])]

/-- A table to which no key leads is in no circle, so it should wait for each table that its keys
lead to; it does not wait for one with the empty name. -/
theorem unnamed_target_not_hindering :
    ¬ ∀ (j : Job) (ts : List String), j.order = .error (.blocked ts) →
      ∀ (t : String) (k : ForeignKey), t ∈ j.tables → k ∈ (j.foreignKeys.get? t).getD [] →
        k.target ∈ j.tables → k.columns ≠ [] → k.targetColumns ≠ [] →
        (∀ e ∈ j.foreignKeys.entries, ∀ k' ∈ e.2, k'.target ≠ t) → k.target ∈ ts → t ∈ ts := by
  intro hall
  have hpasses : unnamedBlocked.passes unnamedBlocked.components = .ok unnamedBlocked.plan := by
    decide +kernel
  have hblocked : (inLine unnamedBlocked.components unnamedBlocked.plan).length ≠
      unnamedBlocked.plan.length ∧
      (blocked unnamedBlocked.components unnamedBlocked.plan).map (·.table) =
        ["", "boss", "clerk"] := by
    decide +kernel
  have hsorted : sorted ["", "boss", "clerk"] = ["", "boss", "clerk"] :=
    sorted_eq_of_pairwise (by decide) fun _ => Iff.rfl
  have horder : unnamedBlocked.order = .error (.blocked ["", "boss", "clerk"]) := by
    rw [order_eq_blocked hpasses hblocked.1, hblocked.2, hsorted]
  have hnamed : "order" ∈ ["", "boss", "clerk"] :=
    hall unnamedBlocked _ horder "order" ⟨["user"], [true], "", ["id"], none⟩ (by decide)
      (by decide) (by decide) (by decide) (by decide) (by decide) (by decide)
  exact absurd hnamed (by decide)

end Job

end TransferPlan
