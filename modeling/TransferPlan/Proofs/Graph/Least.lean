import TransferPlan.Proofs.Graph.Linear
import Mathlib.Data.List.Lex

/-!
# The least line

The items are given in ascending order of a rank.  At each position of a line stands the least of
the items that could stand there (`Lines.rank_le`), so a line of all items is the least one among
their orders in which each item stands behind those that must precede it (`Lines.map_rank_le`).
-/

namespace TransferPlan

variable {α β : Type}

/-- Whatever must precede an item of the list stands in front of it. -/
def Respects (before : α → α → Prop) (l : List α) : Prop :=
  ∀ done a rest, l = done ++ a :: rest → ∀ b ∈ l, before b a → b ∈ done

namespace Lines

variable {before : α → α → Bool} {pending line stuck : List α} [LinearOrder β] {rank : α → β}

theorem respects (h : Lines before pending line []) :
    Respects (fun b a => before b a = true) line :=
  fun _ _ _ hl _ hb hba => h.mem_of_before hl (h.mem_pending hb) hba

theorem nodup_of_rank_lt (hr : pending.Pairwise fun a b => rank a < rank b) : pending.Nodup :=
  hr.imp fun hlt he => hlt.ne (congrArg rank he)

theorem eq_of_rank_eq (hr : pending.Pairwise fun a b => rank a < rank b) {a b : α}
    (ha : a ∈ pending) (hb : b ∈ pending) (h : rank a = rank b) : a = b :=
  List.inj_on_of_nodup_map (List.pairwise_map.2 (hr.imp fun hlt => hlt.ne)) ha hb h

/-- The first ready item has the least rank of all ready items. -/
theorem rank_le_of_ready {front back : List α} {a b : α}
    (hr : (front ++ a :: back).Pairwise fun a b => rank a < rank b)
    (first : ∀ b ∈ front, isReady before (front ++ a :: back) b = false)
    (hb : b ∈ front ++ a :: back) (ready : isReady before (front ++ a :: back) b = true) :
    rank a ≤ rank b := by
  rcases List.mem_append.1 hb with hf | hb
  · rw [first b hf] at ready
    exact absurd ready Bool.false_ne_true
  · rcases List.mem_cons.1 hb with rfl | hb
    · exact le_rfl
    · exact ((List.pairwise_cons.1 (List.pairwise_append.1 hr).2.1).1 b hb).le

/-- Of the items that are not in line yet and wait only for items in line, the next one has the
least rank. -/
theorem rank_le (h : Lines before pending line stuck)
    (hr : pending.Pairwise fun a b => rank a < rank b) {done rest : List α} {a b : α}
    (hl : line = done ++ a :: rest) (hb : b ∈ pending) (hbd : b ∉ done)
    (hw : ∀ c ∈ pending, before c b = true → c ∈ done) : rank a ≤ rank b := by
  induction h generalizing done with
  | stuck _ => simp at hl
  | @take front back line stuck x first ready next ih =>
      cases done with
      | nil =>
          obtain ⟨rfl, rfl⟩ := List.cons.inj hl
          refine rank_le_of_ready hr first hb (isReady_iff.2 fun c hc => ?_)
          exact Bool.not_eq_true _ ▸ fun hcb => List.not_mem_nil (hw c hc hcb)
      | cons y done =>
          obtain ⟨rfl, rfl⟩ := List.cons.inj hl
          have hsub := sublist_append_cons front x back
          have hx : x ∉ front ++ back :=
            (List.nodup_cons.1 (List.nodup_middle.1 (nodup_of_rank_lt hr))).1
          refine ih (hr.sublist hsub) rfl ?_ (fun hd => hbd (List.mem_cons_of_mem _ hd)) ?_
          · refine (List.mem_cons.1 (List.perm_middle.subset hb)).resolve_left ?_
            rintro rfl
            exact hbd List.mem_cons_self
          · intro c hc hcb
            refine (List.mem_cons.1 (hw c (hsub.subset hc) hcb)).resolve_left ?_
            rintro rfl
            exact hx hc

/-- What is left of an order, its first item taken, respects the precedence. -/
theorem respects_tail {σ : List α} {x : α} (hnd : (x :: σ).Nodup)
    (hs : Respects (fun b a => before b a = true) (x :: σ)) :
    Respects (fun b a => before b a = true) σ := by
  intro done a rest hl b hb hba
  have hmem : b ∈ x :: done :=
    hs (x :: done) a rest (by rw [hl]; rfl) b (List.mem_cons_of_mem _ hb) hba
  refine (List.mem_cons.1 hmem).resolve_left ?_
  rintro rfl
  exact (List.nodup_cons.1 hnd).1 hb

/-- A line of all items is the least of their orders that respect the precedence. -/
theorem map_rank_le (h : Lines before pending line stuck) (hstuck : stuck = [])
    (hr : pending.Pairwise fun a b => rank a < rank b) {σ : List α} (hσ : σ.Perm pending)
    (hs : Respects (fun b a => before b a = true) σ) : line.map rank ≤ σ.map rank := by
  induction h generalizing σ with
  | stuck _ =>
      subst hstuck
      rw [List.perm_nil.1 hσ]
  | @take front back line stuck x first ready next ih =>
      have hpnd := nodup_of_rank_lt hr
      cases σ with
      | nil => exact absurd (hσ.mem_iff.2 (by simp : x ∈ front ++ x :: back)) List.not_mem_nil
      | cons y σ =>
          have hyp : y ∈ front ++ x :: back := hσ.subset List.mem_cons_self
          have hready : isReady before (front ++ x :: back) y = true :=
            isReady_iff.2 fun c hc => Bool.not_eq_true _ ▸ fun hcy =>
              List.not_mem_nil (hs [] y σ rfl c (hσ.mem_iff.2 hc) hcy)
          rw [List.map_cons, List.map_cons]
          rcases (rank_le_of_ready hr first hyp hready).lt_or_eq with hlt | heq
          · exact le_of_lt (List.Lex.rel hlt)
          · obtain rfl := eq_of_rank_eq hr (by simp) hyp heq
            refine List.cons_le_cons _ (ih hstuck (hr.sublist (sublist_append_cons _ _ _)) ?_ ?_)
            · exact (hσ.trans List.perm_middle).cons_inv
            · exact respects_tail (hσ.nodup_iff.2 hpnd) hs

end Lines

end TransferPlan
