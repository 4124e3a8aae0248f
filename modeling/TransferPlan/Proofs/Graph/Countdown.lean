import TransferPlan.Graph.Countdown
import TransferPlan.Proofs.Graph.Linear
import TransferPlan.Proofs.Lists
import Mathlib.Data.List.Sort

/-!
# Counting down makes the line

After every step the count of an item is the number of its predecessors that are not in line, and
the queue holds the items of which it has become zero, in ascending order (`Counts`).  One step
preserves this (`Counts.next`), so the items are put in line as `Lines` says, and those that keep a
positive count are the stuck ones (`lines_run`).
-/

namespace TransferPlan

/-- What is not in line, when one more item is put there. -/
theorem filter_not_mem_append {l : List ℕ} (h : l.Nodup) (line : List ℕ) (v : ℕ) :
    l.filter (· ∉ line ++ [v]) = (l.filter (· ∉ line)).erase v := by
  rw [(h.filter _).erase_eq_filter, List.filter_filter]
  refine List.filter_congr fun b _ => ?_
  by_cases hbv : b = v <;> simp [hbv]

namespace Precedence

variable {p : Precedence} {line : List ℕ} {a b v : ℕ}

/-- The predecessors of an item. -/
def of (p : Precedence) (a : ℕ) : List ℕ := p.getD a []

/-- Whether the first item must come before the second. -/
def before (p : Precedence) (b a : ℕ) : Bool := (p.of a).contains b

/-- Every predecessor is an item, and is listed once. -/
structure WellFormed (p : Precedence) : Prop where
  lt : ∀ a, ∀ b ∈ p.of a, b < p.size
  nodup : ∀ a, (p.of a).Nodup

theorem before_iff : p.before b a = true ↔ b ∈ p.of a := by
  simp [before]

theorem lt_of_mem_of (h : b ∈ p.of a) : a < p.size := by
  by_contra hlt
  simp [of, Array.getD, hlt] at h

/-! ## Successors -/

theorem getElem?_link {us : List ℕ} (hnd : us.Nodup) (s : Array (List ℕ)) (v u : ℕ) :
    (link s v us)[u]? = s[u]?.map fun l => if u ∈ us then l ++ [v] else l := by
  unfold link
  induction us generalizing s with
  | nil => simp
  | cons w us ih =>
      obtain ⟨hw, hnd⟩ := List.nodup_cons.1 hnd
      rw [List.foldl_cons, ih hnd, Array.getElem?_modify]
      by_cases hwu : w = u
      · subst hwu
        simp [hw, Function.comp_def]
      · have huw : u ≠ w := fun h => hwu h.symm
        simp [hwu, huw]

/-- Among the successors of an item are those that it was added to, in their order. -/
theorem getElem?_foldl_link {entries : List (List ℕ × ℕ)} (hnd : ∀ e ∈ entries, e.1.Nodup)
    (s : Array (List ℕ)) (u : ℕ) :
    (entries.foldl (fun s e => link s e.2 e.1) s)[u]? =
      s[u]?.map fun l => l ++ (entries.filter fun e => e.1.contains u).map (·.2) := by
  induction entries generalizing s with
  | nil => simp
  | cons e entries ih =>
      rw [List.foldl_cons, ih fun e he => hnd e (List.mem_cons_of_mem _ he),
        getElem?_link (hnd e List.mem_cons_self), Option.map_map]
      by_cases hu : u ∈ e.1 <;> simp [hu, Function.comp_def]

theorem WellFormed.nodup_of_mem (h : p.WellFormed) {e : List ℕ × ℕ} (he : e ∈ p.toList.zipIdx) :
    e.1.Nodup := by
  have hget := List.mem_zipIdx_iff_getElem?.1 he
  have hof : p.of e.2 = e.1 := by simp_all [of]
  exact hof ▸ h.nodup e.2

theorem WellFormed.successors_eq (h : p.WellFormed) (hb : b < p.size) :
    p.successors.getD b [] = (p.toList.zipIdx.filter fun e => e.1.contains b).map (·.2) := by
  rw [Array.getD_eq_getD_getElem?, successors, getElem?_foldl_link fun _ he => h.nodup_of_mem he]
  simp [hb]

theorem WellFormed.mem_successors (h : p.WellFormed) (hb : b < p.size) :
    a ∈ p.successors.getD b [] ↔ b ∈ p.of a := by
  simp only [h.successors_eq hb, List.mem_map, List.mem_filter, List.mem_zipIdx_iff_getElem?,
    List.contains_iff_mem]
  constructor
  · rintro ⟨⟨us, a⟩, ⟨hget, hbu⟩, rfl⟩
    simp_all [of]
  · intro hba
    have ha := lt_of_mem_of hba
    exact ⟨(p.of a, a), ⟨by simp [of, ha], hba⟩, rfl⟩

theorem WellFormed.nodup_successors (h : p.WellFormed) (hb : b < p.size) :
    (p.successors.getD b []).Nodup := by
  rw [h.successors_eq hb]
  exact nodup_filter_zipIdx _ _

/-! ## Predecessors that are not in line -/

/-- The predecessors of an item that are not in line. -/
def awaited (p : Precedence) (line : List ℕ) (a : ℕ) : List ℕ := (p.of a).filter (· ∉ line)

theorem mem_awaited : b ∈ p.awaited line a ↔ b ∈ p.of a ∧ b ∉ line := by
  simp [awaited]

theorem awaited_eq_nil_iff : p.awaited line a = [] ↔ ∀ b ∈ p.of a, b ∈ line := by
  simp [awaited]

theorem length_awaited_append (h : p.WellFormed) (hv : v ∉ line) :
    ((p.awaited (line ++ [v]) a).length : ℤ) =
      (p.awaited line a).length - if v ∈ p.of a then 1 else 0 := by
  have hmem : v ∈ p.awaited line a ↔ v ∈ p.of a := by simp [mem_awaited, hv]
  rw [awaited, filter_not_mem_append (h.nodup a), ← awaited, List.length_erase]
  simp only [hmem]
  split_ifs with hva
  · have := List.length_pos_of_mem (hmem.2 hva)
    omega
  · simp

end Precedence

namespace Countdown

variable {p : Precedence} {c : Countdown} {items rest : List ℕ} {a v : ℕ}

/-- The count of an item. -/
def count (c : Countdown) (a : ℕ) : ℤ := c.degree.getD a 0

/-! ## The queue -/

theorem push_eq (v : ℕ) (queue : List ℕ) : push v queue = queue.orderedInsert (· ≤ ·) v := by
  induction queue with
  | nil => rfl
  | cons w queue ih => rw [push, List.orderedInsert_cons, ih]

theorem mem_push {queue : List ℕ} : a ∈ push v queue ↔ a = v ∨ a ∈ queue := by
  rw [push_eq, List.mem_orderedInsert]

theorem pairwise_push {queue : List ℕ} (h : queue.Pairwise (· < ·)) (hv : v ∉ queue) :
    (push v queue).Pairwise (· < ·) := by
  have hperm : (push v queue).Perm (v :: queue) := push_eq v queue ▸ List.perm_orderedInsert _ _ _
  have hnd : (push v queue).Nodup :=
    hperm.nodup_iff.2 (List.nodup_cons.2 ⟨hv, h.imp fun hlt => hlt.ne⟩)
  have hle : (push v queue).Pairwise (· ≤ ·) := by
    rw [push_eq]
    exact (h.imp fun hlt => hlt.le).orderedInsert _ _
  exact hle.imp₂ (fun _ _ => lt_of_le_of_ne) hnd

/-! ## Releasing the successors -/

/-- What becomes of the counts and the queue when a predecessor of some items is put in line. -/
structure Released (c : Countdown) (items : List ℕ) (c' : Countdown) : Prop where
  size : c'.degree.size = c.degree.size
  line : c'.line = c.line
  count : ∀ a, c'.count a = c.count a - if a ∈ items then 1 else 0
  mem_ready : ∀ a, a ∈ c'.ready ↔ a ∈ c.ready ∨ a ∈ items ∧ c.count a = 1
  ascending : c'.ready.Pairwise (· < ·)

theorem released_release (hv : v < c.degree.size) (hr : c.ready.Pairwise (· < ·))
    (hnew : c.count v = 1 → v ∉ c.ready) : Released c [v] (c.release v) := by
  have hcount : c.count v = c.degree[v] := by simp [count, hv]
  have hone : c.degree[v] - 1 = 0 ↔ c.count v = 1 := by omega
  simp only [release, hv, dif_pos, hone]
  refine ⟨Array.size_set hv, rfl, fun a => ?_, fun a => ?_, ?_⟩
  · simp only [count, Array.getD_eq_getD_getElem?, Array.getElem?_set, List.mem_singleton]
    by_cases hav : a = v
    · subst hav
      simp [hv]
    · have hva : v ≠ a := fun h => hav h.symm
      simp [hav, hva]
  · split_ifs with h1
    · rw [mem_push, List.mem_singleton, or_comm]
      constructor
      · exact Or.imp_right fun h => ⟨h, h ▸ h1⟩
      · exact Or.imp_right fun h => h.1
    · refine ⟨.inl, fun h => h.resolve_right ?_⟩
      rintro ⟨ha, hc⟩
      exact h1 (List.mem_singleton.1 ha ▸ hc)
  · split_ifs with h1
    · exact pairwise_push hr (hnew h1)
    · exact hr

theorem released_foldl (hnd : items.Nodup) (hlt : ∀ v ∈ items, v < c.degree.size)
    (hr : c.ready.Pairwise (· < ·)) (hnew : ∀ v ∈ items, c.count v = 1 → v ∉ c.ready) :
    Released c items (items.foldl release c) := by
  induction items generalizing c with
  | nil => exact ⟨rfl, rfl, by simp, by simp, hr⟩
  | cons v items ih =>
      obtain ⟨hv, hnd⟩ := List.nodup_cons.1 hnd
      have first := released_release (hlt v List.mem_cons_self) hr (hnew v List.mem_cons_self)
      -- Other items are not touched by the release of `v`.
      have hcount : ∀ w ∈ items, (c.release v).count w = c.count w := by
        intro w hw
        have hwv : w ≠ v := fun h => hv (h ▸ hw)
        rw [first.count]
        simp [hwv]
      have later := ih (c := c.release v) hnd
        (fun w hw => first.size ▸ hlt w (List.mem_cons_of_mem _ hw)) first.ascending (by
          intro w hw h1 hready
          rw [hcount w hw] at h1
          rcases (first.mem_ready w).1 hready with hwr | ⟨hwv, -⟩
          · exact hnew w (List.mem_cons_of_mem _ hw) h1 hwr
          · exact hv (List.mem_singleton.1 hwv ▸ hw))
      refine ⟨later.size.trans first.size, later.line.trans first.line, fun a => ?_, fun a => ?_,
        later.ascending⟩
      · rw [List.foldl_cons, later.count, first.count]
        by_cases hav : a = v
        · subst hav
          simp [hv]
        · simp [hav]
      · rw [List.foldl_cons, later.mem_ready, first.mem_ready, or_assoc]
        refine or_congr_right ?_
        rw [List.mem_singleton, List.mem_cons]
        constructor
        · rintro (⟨rfl, h1⟩ | ⟨ha, h1⟩)
          · exact ⟨.inl rfl, h1⟩
          · exact ⟨.inr ha, hcount a ha ▸ h1⟩
        · rintro ⟨rfl | ha, h1⟩
          · exact .inl ⟨rfl, h1⟩
          · exact .inr ⟨ha, (hcount a ha).trans h1⟩

/-! ## What a step preserves -/

/-- The counts are the numbers of predecessors that are not in line, and the queue holds the items
that wait for nothing. -/
structure Counts (p : Precedence) (c : Countdown) : Prop where
  size : c.degree.size = p.size
  count : ∀ a < p.size, c.count a = (p.awaited c.line a).length
  mem_ready : ∀ a, a ∈ c.ready ↔ a < p.size ∧ a ∉ c.line ∧ ∀ b ∈ p.of a, b ∈ c.line
  ascending : c.ready.Pairwise (· < ·)
  closed : ∀ a ∈ c.line, ∀ b ∈ p.of a, b ∈ c.line

theorem counts_start (p : Precedence) : Counts p (start p) where
  size := Array.size_map
  count a ha := by
    simp [count, start, Precedence.awaited, Precedence.of, ha]
  mem_ready a := by
    simp only [start, List.mem_filter, List.mem_range, List.not_mem_nil, not_false_eq_true,
      true_and]
    refine and_congr_right fun ha => ?_
    simp [Precedence.of, ha, ← List.eq_nil_iff_forall_not_mem]
  ascending := List.pairwise_lt_range.filter _
  closed _ h := absurd h List.not_mem_nil

/-- An item with one predecessor left comes to wait for nothing when that one is put in line. -/
theorem Counts.count_eq_one_iff (h : Counts p c) (hp : p.WellFormed) (hv : v ∉ c.line)
    (hva : v ∈ p.of a) : c.count a = 1 ↔ ∀ b ∈ p.of a, b ∈ c.line ++ [v] := by
  have ha := Precedence.lt_of_mem_of hva
  have hlength := Precedence.length_awaited_append hp (a := a) hv
  rw [if_pos hva, ← h.count a ha] at hlength
  rw [← Precedence.awaited_eq_nil_iff, ← List.length_eq_zero_iff]
  omega

theorem Counts.next (h : Counts p c) (hp : p.WellFormed) (hr : c.ready = v :: rest) :
    Counts p (c.next p.successors) ∧ (c.next p.successors).line = c.line ++ [v] := by
  obtain ⟨hvlt, hvl, hvp⟩ := (h.mem_ready v).1 (hr ▸ List.mem_cons_self)
  obtain ⟨hvrest, hrest⟩ := List.pairwise_cons.1 (hr ▸ h.ascending)
  have hsucc : ∀ a, a ∈ p.successors.getD v [] ↔ v ∈ p.of a := fun a => hp.mem_successors hvlt
  -- A successor of `v` is neither in line nor in the queue, and it is not `v`.
  have hfresh : ∀ a, v ∈ p.of a → a ∉ c.line ∧ a ∉ c.ready := by
    intro a hva
    refine ⟨fun ha => hvl (h.closed a ha v hva), fun ha => hvl ?_⟩
    exact ((h.mem_ready a).1 ha).2.2 v hva
  have hne : ∀ a, v ∈ p.of a → a ≠ v := fun a hva hav =>
    (hfresh a hva).2 (hav ▸ hr ▸ List.mem_cons_self)
  have released := released_foldl (c := { c with ready := rest, line := c.line ++ [v] })
    (hp.nodup_successors hvlt)
    (fun a ha => h.size ▸ Precedence.lt_of_mem_of ((hsucc a).1 ha)) hrest
    fun a ha _ hmem => (hfresh a ((hsucc a).1 ha)).2 (hr ▸ List.mem_cons_of_mem _ hmem)
  have hnext : c.next p.successors = (p.successors.getD v []).foldl release
      { c with ready := rest, line := c.line ++ [v] } := by
    simp only [Countdown.next, hr]
  rw [← hnext] at released
  refine ⟨⟨released.size.trans h.size, fun a ha => ?_, fun a => ?_, released.ascending, ?_⟩,
    released.line⟩
  · rw [released.count, released.line, Precedence.length_awaited_append hp hvl, ← h.count a ha]
    simp only [hsucc]
    rfl
  · rw [released.mem_ready, released.line, hsucc]
    have hmem : a ∈ rest ↔ a ∈ c.ready ∧ a ≠ v := by
      rw [hr, List.mem_cons]
      constructor
      · exact fun ha => ⟨.inr ha, (hvrest a ha).ne'⟩
      · exact fun ha => ha.1.resolve_left ha.2
    by_cases hva : v ∈ p.of a
    · have hiff := h.count_eq_one_iff hp hvl hva
      have hrest : a ∉ rest := fun ha => (hfresh a hva).2 (hmem.1 ha).1
      have hcount : ({ c with ready := rest, line := c.line ++ [v] } : Countdown).count a =
        c.count a := rfl
      simp only [hrest, hva, hcount, hiff, true_and, false_or, List.mem_append, List.mem_singleton,
        (hfresh a hva).1, hne a hva, Precedence.lt_of_mem_of hva, or_self, not_false_eq_true]
    · have hiff : (∀ b ∈ p.of a, b ∈ c.line ++ [v]) ↔ ∀ b ∈ p.of a, b ∈ c.line := by
        refine forall₂_congr fun b hb => ?_
        have hbv : b ≠ v := fun hbv => hva (hbv ▸ hb)
        simp [hbv]
      rw [hiff, hmem, h.mem_ready, List.mem_append, List.mem_singleton, not_or]
      tauto
  · intro a ha b hb
    rw [released.line, List.mem_append, List.mem_singleton] at ha ⊢
    rcases ha with ha | rfl
    · exact .inl (h.closed a ha b hb)
    · exact .inl (hvp b hb)

/-! ## What a run makes -/

/-- The items that are not in line. -/
def pending (p : Precedence) (c : Countdown) : List ℕ :=
  (List.range p.size).filter (· ∉ c.line)

theorem mem_pending : a ∈ pending p c ↔ a < p.size ∧ a ∉ c.line := by
  simp [pending]

/-- The queue holds the items that are ready. -/
theorem Counts.isReady_iff (h : Counts p c) (hp : p.WellFormed) (ha : a ∈ pending p c) :
    isReady p.before (pending p c) a = true ↔ a ∈ c.ready := by
  obtain ⟨halt, hal⟩ := mem_pending.1 ha
  simp only [TransferPlan.isReady_iff, h.mem_ready, mem_pending, halt, hal, true_and,
    not_false_eq_true, ← Bool.not_eq_true, Precedence.before_iff]
  constructor
  · intro hall b hb
    by_contra hbl
    exact hall b ⟨hp.lt a b hb, hbl⟩ hb
  · exact fun hall b hb hba => hb.2 (hall b hba)

/-- When the queue is empty the items that are not in line keep a positive count. -/
theorem Counts.waiting_eq (h : Counts p c) (hr : c.ready = []) : c.waiting = pending p c := by
  rw [waiting, h.size, pending]
  refine List.filter_congr fun a ha => ?_
  have halt := List.mem_range.1 ha
  have hget : c.degree[a]? = some (c.count a) := by
    have hsize : a < c.degree.size := h.size ▸ halt
    simp [Countdown.count, hsize]
  have hpos : 0 < c.count a ↔ a ∉ c.line := by
    rw [h.count a halt, Int.natCast_pos, List.length_pos_iff, Ne, Precedence.awaited_eq_nil_iff]
    constructor
    · exact fun hno hal => hno (h.closed a hal)
    · intro hal hall
      have hready := (h.mem_ready a).2 ⟨halt, hal, hall⟩
      rw [hr] at hready
      exact List.not_mem_nil hready
  simp [hget, hpos]

/-- The first item of the queue splits the items that are not in line. -/
theorem Counts.pending_eq (h : Counts p c) (hr : c.ready = v :: rest) :
    ∃ front back, pending p c = front ++ v :: back ∧ (∀ a ∈ front, a ∉ c.ready) ∧
      (List.range p.size).filter (· ∉ c.line ++ [v]) = front ++ back := by
  obtain ⟨hvlt, hvl, -⟩ := (h.mem_ready v).1 (hr ▸ List.mem_cons_self)
  have hv : v ∈ pending p c := mem_pending.2 ⟨hvlt, hvl⟩
  obtain ⟨front, back, hsplit⟩ := List.append_of_mem hv
  have hlt : (pending p c).Pairwise (· < ·) := List.pairwise_lt_range.filter _
  refine ⟨front, back, hsplit, fun a ha har => ?_, ?_⟩
  · rw [hsplit, List.pairwise_append] at hlt
    have hav : a < v := hlt.2.2 a ha v List.mem_cons_self
    rcases List.mem_cons.1 (hr ▸ har) with rfl | har
    · exact lt_irrefl a hav
    · exact lt_asymm hav ((List.pairwise_cons.1 (hr ▸ h.ascending)).1 a har)
  · have hnd : (front ++ v :: back).Nodup := hsplit ▸ hlt.imp fun hab => hab.ne
    have hfront : v ∉ front := fun hvf => (List.nodup_append.1 hnd).2.2 v hvf v (by simp) rfl
    rw [filter_not_mem_append List.nodup_range, ← pending, hsplit,
      List.erase_append_right _ hfront, List.erase_cons_head]

/-- From a state on, the items that are not in line yet are put in line, as far as they can be. -/
theorem Counts.lines_finish (h : Counts p c) (hp : p.WellFormed) :
    ∃ later, (c.finish p.successors).line = c.line ++ later ∧
      Lines p.before (pending p c) later (c.finish p.successors).waiting := by
  induction hw : c.work using Nat.strong_induction_on generalizing c with
  | _ work ih =>
    subst hw
    cases hr : c.ready with
    | nil =>
        rw [finish, if_pos hr]
        refine ⟨[], by simp, ?_⟩
        rw [h.waiting_eq hr]
        refine .stuck fun a ha => ?_
        rw [← Bool.not_eq_true, h.isReady_iff hp ha, hr]
        exact List.not_mem_nil
    | cons v rest =>
        have hne : c.ready ≠ [] := by simp [hr]
        obtain ⟨hnext, hline⟩ := h.next hp hr
        have hless := work_next p.successors hne
        obtain ⟨later, hlater, hlines⟩ := ih _ (by omega) hnext rfl
        obtain ⟨front, back, hsplit, hfront, hback⟩ := h.pending_eq hr
        rw [finish, if_neg hne]
        refine ⟨v :: later, by simp [hlater, hline], ?_⟩
        have hready : ∀ a ∈ pending p c, isReady p.before (front ++ v :: back) a = true ↔
            a ∈ c.ready := by
          intro a ha
          rw [← hsplit]
          exact h.isReady_iff hp ha
        rw [pending, hline, hback] at hlines
        rw [hsplit] at hready ⊢
        refine .take (fun a ha => ?_) ?_ hlines
        · rw [← Bool.not_eq_true, hready a (List.mem_append_left _ ha)]
          exact hfront a ha
        · rw [hready v (by simp), hr]
          exact List.mem_cons_self

/-- The items are put in line, the least one that is ready first, and those that keep a positive
count are stuck. -/
theorem lines_run (hp : p.WellFormed) :
    Lines p.before (List.range p.size) (run p).line (run p).waiting := by
  obtain ⟨line, hline, hlines⟩ := (counts_start p).lines_finish hp
  have hpending : pending p (start p) = List.range p.size := by simp [pending, start]
  have hrun : (run p).line = line := by simpa [run, start] using hline
  rw [hpending] at hlines
  rw [hrun]
  exact hlines

/-- The order in which predecessors are listed makes no difference. -/
theorem run_eq_of_mem_iff {q : Precedence} (hp : p.WellFormed) (hq : q.WellFormed)
    (hsize : q.size = p.size) (h : ∀ a b, b ∈ q.of a ↔ b ∈ p.of a) :
    (run q).line = (run p).line ∧ (run q).waiting = (run p).waiting := by
  have hlines := lines_run hq
  rw [hsize] at hlines
  apply (lines_run hp).unique
  refine hlines.congr fun a _ b _ => ?_
  rw [Bool.eq_iff_iff, Precedence.before_iff, Precedence.before_iff, h]

end Countdown

end TransferPlan
