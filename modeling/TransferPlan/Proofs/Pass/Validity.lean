import TransferPlan.Pass.Basic
import Mathlib.Data.Nat.Notation
import Mathlib.Logic.Basic

/-!
# Valid orders

A need is met by the passes done when one of them is over its table and each of its columns has
been written by one over its table.  `isValidOrder_iff` says that the test on a list of passes
holds exactly when each pass finds its needs met by those in front of it.
-/

namespace TransferPlan

/-- The table of the need has been written, and so has each of its columns. -/
structure Need.Met (n : Need) (done : List Pass) : Prop where
  visited : ∃ q ∈ done, q.table = n.table
  written : ∀ c ∈ n.columns, ∃ q ∈ done, q.table = n.table ∧ c ∈ q.writes

theorem Need.Met.mono {n : Need} {done done' : List Pass} (h : n.Met done)
    (hs : ∀ q ∈ done, q ∈ done') : n.Met done' where
  visited := by
    obtain ⟨q, hq, ht⟩ := h.visited
    exact ⟨q, hs q hq, ht⟩
  written c hc := by
    obtain ⟨q, hq, hw⟩ := h.written c hc
    exact ⟨q, hs q hq, hw⟩

namespace Pass

/-- Each pass finds its needs met by the passes in front of it. -/
def Ordered (passes : List Pass) : Prop :=
  ∀ done p rest, passes = done ++ p :: rest → ∀ n ∈ p.needs, n.Met done

/-! ## The columns written so far -/

/-- The columns recorded are those that the passes done have written. -/
structure Written.Records (w : Written) (done : List Pass) : Prop where
  none : ∀ t, w.get? t = none → ∀ q ∈ done, q.table ≠ t
  some : ∀ t columns, w.get? t = some columns →
    (∃ q ∈ done, q.table = t) ∧ ∀ c, c ∈ columns ↔ ∃ q ∈ done, q.table = t ∧ c ∈ q.writes

theorem Written.records_empty : Written.Records (.empty : Written) [] where
  none _ _ q hq := absurd hq List.not_mem_nil
  some _ _ h := by simp at h

variable {w : Written} {done : List Pass}

theorem Written.Records.mem_getD (h : w.Records done) (t c : String) :
    c ∈ (w.get? t).getD [] ↔ ∃ q ∈ done, q.table = t ∧ c ∈ q.writes := by
  cases hw : w.get? t with
  | none =>
      simp only [Option.getD_none, List.not_mem_nil, false_iff]
      rintro ⟨q, hq, ht, -⟩
      exact h.none t hw q hq ht
  | some columns => exact (h.some t columns hw).2 c

theorem Written.Records.after (h : w.Records done) (p : Pass) :
    (w.after p).Records (done ++ [p]) where
  none t ht q hq hqt := by
    rw [Written.after, Keyed.get?_alter] at ht
    split at ht
    · exact absurd ht (by simp)
    · next hpt =>
        rcases List.mem_append.1 hq with hq | hq
        · exact h.none t ht q hq hqt
        · exact hpt (List.mem_singleton.1 hq ▸ hqt)
  some t columns ht := by
    rw [Written.after, Keyed.get?_alter] at ht
    split at ht
    · next hpt =>
        subst hpt
        obtain rfl := Option.some.inj ht
        refine ⟨⟨p, by simp, rfl⟩, fun c => ?_⟩
        rw [List.mem_append, h.mem_getD]
        simp only [List.mem_append, List.mem_singleton, or_and_right, exists_or, exists_eq_left,
          true_and]
    · next hpt =>
        obtain ⟨⟨q, hq, hqt⟩, hc⟩ := h.some t columns ht
        refine ⟨⟨q, List.mem_append_left _ hq, hqt⟩, fun c => ?_⟩
        simp only [hc, List.mem_append, List.mem_singleton, or_and_right, exists_or,
          exists_eq_left, hpt, false_and, or_false]

theorem Written.Records.meets_iff (h : w.Records done) (n : Need) :
    w.meets n = true ↔ n.Met done := by
  unfold Written.meets
  cases hw : w.get? n.table with
  | none =>
      refine iff_of_false Bool.false_ne_true fun hm => ?_
      obtain ⟨q, hq, ht⟩ := hm.visited
      exact h.none n.table hw q hq ht
  | some columns =>
      obtain ⟨hv, hc⟩ := h.some n.table columns hw
      simp only [List.all_eq_true, List.contains_iff_mem, hc]
      exact ⟨fun hm => ⟨hv, hm⟩, fun hm => hm.written⟩

/-! ## The test -/

theorem isValidAfter_iff :
    ∀ (passes : List Pass) {w : Written} {done : List Pass}, w.Records done →
      (isValidAfter w passes = true ↔ ∀ front p rest, passes = front ++ p :: rest →
        ∀ n ∈ p.needs, n.Met (done ++ front))
  | [], _, _, _ => by simp [isValidAfter]
  | p :: passes, w, done, h => by
      rw [isValidAfter, Bool.and_eq_true, List.all_eq_true, isValidAfter_iff passes (h.after p)]
      constructor
      · rintro ⟨hp, hrest⟩ front q rest hq n hn
        cases front with
        | nil =>
            obtain ⟨rfl, rfl⟩ := List.cons.inj hq
            rw [List.append_nil, ← h.meets_iff]
            exact hp n hn
        | cons x front =>
            obtain ⟨rfl, rfl⟩ := List.cons.inj hq
            rw [List.append_cons]
            exact hrest front q rest rfl n hn
      · intro hall
        refine ⟨fun n hn => (h.meets_iff n).2 ?_, fun front q rest hq n hn => ?_⟩
        · simpa using hall [] p passes rfl n hn
        · have := hall (p :: front) q rest (by rw [hq]; rfl) n hn
          rwa [List.append_cons] at this

theorem isValidOrder_iff (passes : List Pass) : isValidOrder passes = true ↔ Ordered passes := by
  rw [isValidOrder, isValidAfter_iff passes Written.records_empty]
  rfl

end Pass

end TransferPlan
