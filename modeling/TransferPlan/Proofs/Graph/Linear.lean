import Mathlib.Data.List.TakeWhile
import Mathlib.Data.Set.Finite.Basic
import Mathlib.Logic.Relation
import Mathlib.Order.WellFounded

/-!
# Lines and what is stuck

`Lines before pending line stuck` says how a line comes about: as long as an item is ready the
first ready one is taken, and what is left when none is ready is stuck.  There is one line only
(`Lines.unique`).  Nothing is lost, no item stands in front of one that must precede it, items that
wait for the same ones keep their order, and items that wait only for each other are in the order of
their own line (`Lines.filter`).  The stuck items are those on a circle of the precedence and those
that come after one (`Lines.mem_stuck_iff`).
-/

namespace TransferPlan

open scoped List

variable {α β : Type} {before : α → α → Bool}

/-- Whether nothing in the list must precede the item. -/
def isReady (before : α → α → Bool) (pending : List α) (a : α) : Bool :=
  pending.all fun b => !before b a

/-- A line takes the first ready item, one after the other, until none is ready. -/
inductive Lines (before : α → α → Bool) : List α → List α → List α → Prop
  | stuck {pending : List α} (h : ∀ a ∈ pending, isReady before pending a = false) :
      Lines before pending [] pending
  | take {front rest line stuck : List α} {a : α}
      (first : ∀ b ∈ front, isReady before (front ++ a :: rest) b = false)
      (ready : isReady before (front ++ a :: rest) a = true)
      (next : Lines before (front ++ rest) line stuck) :
      Lines before (front ++ a :: rest) (a :: line) stuck

theorem isReady_iff {pending : List α} {a : α} :
    isReady before pending a = true ↔ ∀ b ∈ pending, before b a = false := by
  simp [isReady]

theorem isReady_eq_false_iff {pending : List α} {a : α} :
    isReady before pending a = false ↔ ∃ b ∈ pending, before b a = true := by
  simp [isReady]

theorem sublist_append_cons (front : List α) (a : α) (back : List α) :
    front ++ back <+ front ++ a :: back :=
  (List.Sublist.refl front).append (List.sublist_cons_self a back)

/-! ## What every line satisfies -/

namespace Lines

variable {pending line stuck : List α}

theorem perm (h : Lines before pending line stuck) : (line ++ stuck).Perm pending := by
  induction h with
  | stuck _ => exact .refl _
  | take _ _ _ ih => exact (ih.cons _).trans List.perm_middle.symm

theorem mem_pending (h : Lines before pending line stuck) {a : α} (ha : a ∈ line) : a ∈ pending :=
  h.perm.subset (List.mem_append_left _ ha)

/-- Nothing is stuck if all items are in line. -/
theorem stuck_eq_nil_iff (h : Lines before pending line stuck) :
    stuck = [] ↔ line.length = pending.length := by
  have hlength := h.perm.length_eq
  rw [List.length_append] at hlength
  rw [← List.length_eq_zero_iff]
  omega

/-- The first item that passes a test splits a list in one way only. -/
theorem split_unique {p : α → Bool} {front front' back back' : List α} {a a' : α}
    (h : front ++ a :: back = front' ++ a' :: back') (hf : ∀ b ∈ front, p b = false)
    (ha : p a = true) (hf' : ∀ b ∈ front', p b = false) (ha' : p a' = true) :
    front = front' ∧ a = a' ∧ back = back' := by
  have htake : ∀ {front back : List α} {a : α}, (∀ b ∈ front, p b = false) → p a = true →
      (front ++ a :: back).takeWhile (!p ·) = front := by
    intro front back a hf ha
    rw [List.takeWhile_append_of_pos fun b hb => by rw [hf b hb]; rfl]
    simp [ha]
  obtain rfl : front = front' := by rw [← htake hf ha, h, htake hf' ha']
  obtain ⟨rfl, rfl⟩ := List.cons.inj (List.append_cancel_left h)
  exact ⟨rfl, rfl, rfl⟩

/-- There is one line only. -/
theorem unique (h : Lines before pending line stuck) {line' stuck' : List α}
    (h' : Lines before pending line' stuck') : line' = line ∧ stuck' = stuck := by
  induction h generalizing line' stuck' with
  | @stuck pending hno =>
      cases h' with
      | stuck _ => exact ⟨rfl, rfl⟩
      | @take _ _ _ _ a _ ready _ =>
          rw [hno a (by simp)] at ready
          exact absurd ready Bool.false_ne_true
  | @take front back line stuck a first ready next ih =>
      generalize hpending : front ++ a :: back = pending at h' first ready
      cases h' with
      | stuck hno =>
          rw [hno a (by simp [← hpending])] at ready
          exact absurd ready Bool.false_ne_true
      | take first' ready' next' =>
          obtain ⟨rfl, rfl, rfl⟩ := split_unique hpending first ready first' ready'
          obtain ⟨rfl, rfl⟩ := ih next'
          exact ⟨rfl, rfl⟩

/-- Nothing that comes later, or is stuck, must precede an item of the line. -/
theorem before_eq_false (h : Lines before pending line stuck) {done rest : List α} {a : α}
    (hl : line = done ++ a :: rest) {b : α} (hb : b ∈ a :: rest ++ stuck) :
    before b a = false := by
  induction h generalizing done with
  | stuck _ => simp at hl
  | @take front back line stuck x _ ready next ih =>
      cases done with
      | nil =>
          obtain ⟨rfl, rfl⟩ := List.cons.inj hl
          exact isReady_iff.1 ready b (((next.perm.cons x).trans List.perm_middle.symm).subset hb)
      | cons y done => exact ih (List.cons.inj hl).2 hb

/-- An item that must precede one of the line stands in front of it. -/
theorem mem_of_before (h : Lines before pending line stuck) {done rest : List α} {a : α}
    (hl : line = done ++ a :: rest) {b : α} (hb : b ∈ pending) (hba : before b a = true) :
    b ∈ done := by
  have hmem := h.perm.mem_iff.2 hb
  rw [hl, List.append_assoc, List.mem_append] at hmem
  rcases hmem with hd | hr
  · exact hd
  · rw [h.before_eq_false hl hr] at hba
    exact absurd hba Bool.false_ne_true

/-- Each stuck item waits for a stuck one. -/
theorem exists_before (h : Lines before pending line stuck) :
    ∀ a ∈ stuck, ∃ b ∈ stuck, before b a = true := by
  induction h with
  | stuck h => exact fun a ha => isReady_eq_false_iff.1 (h a ha)
  | take _ _ _ ih => exact ih

/-! ### Items that wait for the same ones -/

theorem sublist_of_not_mem {l front rest : List α} {x : α} (h : l <+ front ++ x :: rest)
    (hx : x ∉ l) : l <+ front ++ rest := by
  obtain ⟨l₁, l₂, rfl, h₁, h₂⟩ := List.sublist_append_iff.1 h
  rcases List.sublist_cons_iff.1 h₂ with h₂ | ⟨r, rfl, _⟩
  · exact h₁.append h₂
  · simp at hx

theorem mem_front_of_sublist {front rest : List α} {a b : α}
    (hnd : (front ++ b :: rest).Nodup) (h : [a, b] <+ front ++ b :: rest) : a ∈ front := by
  have hb : b ∉ rest := (List.nodup_cons.1 (List.nodup_append.1 hnd).2.1).1
  obtain ⟨l₁, l₂, hl, h₁, h₂⟩ := List.sublist_append_iff.1 h
  cases l₁ with
  | nil =>
      subst hl
      rcases List.sublist_cons_iff.1 h₂ with h₂ | ⟨r, hr, h₂⟩
      · exact absurd (h₂.subset (by simp)) hb
      · rw [← (List.cons.inj hr).2] at h₂
        exact absurd (h₂.subset (by simp)) hb
  | cons x l₁ =>
      obtain ⟨rfl, -⟩ := List.cons.inj hl
      exact h₁.subset List.mem_cons_self

/-- If `a` stands before `b` in the given list and waits for nothing that `b` does not wait for, it
comes before `b` in the line. -/
theorem mem_of_sublist (h : Lines before pending line stuck) (hnd : pending.Nodup) {a b : α}
    (hab : [a, b] <+ pending) (hw : ∀ c ∈ pending, before c a = true → before c b = true)
    {done rest : List α} (hl : line = done ++ b :: rest) : a ∈ done := by
  induction h generalizing done with
  | stuck _ => simp at hl
  | @take front back line stuck x first ready next ih =>
      cases done with
      | nil =>
          obtain ⟨rfl, rfl⟩ := List.cons.inj hl
          obtain ⟨c, hc, hca⟩ :=
            isReady_eq_false_iff.1 (first a (mem_front_of_sublist hnd hab))
          have := isReady_iff.1 ready c hc
          rw [hw c hc hca] at this
          exact absurd this.symm Bool.false_ne_true
      | cons y done =>
          obtain ⟨rfl, rfl⟩ := List.cons.inj hl
          have hsub := sublist_append_cons front x back
          have hx : x ∉ front ++ back := (List.nodup_cons.1 (List.nodup_middle.1 hnd)).1
          have hbm : b ∈ front ++ back :=
            next.perm.subset (List.mem_append_left _ (by simp))
          by_cases hax : a = x
          · exact hax ▸ List.mem_cons_self
          · refine List.mem_cons_of_mem _ (ih (hnd.sublist hsub) ?_
              (fun c hc => hw c (hsub.subset hc)) rfl)
            refine sublist_of_not_mem hab ?_
            simp only [List.mem_cons, List.not_mem_nil, or_false, not_or]
            exact ⟨Ne.symm hax, fun e => hx (e ▸ hbm)⟩

/-! ### Groups -/

section Group

variable {g : α → Bool}

/-- Whether an item is ready is decided by the items of its group. -/
theorem isReady_filter {a : α} (hg : ∀ b ∈ pending, before b a = true → g b = g a)
    (ha : g a = true) : isReady before (pending.filter g) a = isReady before pending a := by
  rw [Bool.eq_iff_iff, isReady_iff, isReady_iff]
  constructor
  · intro h b hb
    by_contra hba
    rw [Bool.not_eq_false] at hba
    rw [h b (List.mem_filter.2 ⟨hb, (hg b hb hba).trans ha⟩)] at hba
    exact Bool.false_ne_true hba
  · exact fun h b hb => h b (List.mem_filter.1 hb).1

/-- If items wait for items of their own group only, each group is put into line by itself. -/
theorem filter (h : Lines before pending line stuck)
    (hg : ∀ a ∈ pending, ∀ b ∈ pending, before b a = true → g b = g a) :
    Lines before (pending.filter g) (line.filter g) (stuck.filter g) := by
  induction h with
  | @stuck pending h =>
      refine .stuck fun a ha => ?_
      obtain ⟨ha, hga⟩ := List.mem_filter.1 ha
      rw [isReady_filter (hg a ha) hga]
      exact h a ha
  | @take front back line stuck a first ready next ih =>
      have hsub := (sublist_append_cons front a back).subset
      have hnext := ih fun b hb c hc => hg b (hsub hb) c (hsub hc)
      have ha : a ∈ front ++ a :: back := by simp
      rw [List.filter_append] at hnext
      by_cases hga : g a = true
      · have hpending : (front ++ a :: back).filter g = front.filter g ++ a :: back.filter g := by
          rw [List.filter_append, List.filter_cons_of_pos hga]
        have hready : ∀ b ∈ front ++ a :: back, g b = true →
            isReady before (front.filter g ++ a :: back.filter g) b =
              isReady before (front ++ a :: back) b := by
          intro b hb hgb
          rw [← hpending]
          exact isReady_filter (hg b hb) hgb
        rw [hpending, List.filter_cons_of_pos hga]
        refine .take (fun b hb => ?_) ((hready a ha hga).trans ready) hnext
        obtain ⟨hb, hgb⟩ := List.mem_filter.1 hb
        exact (hready b (List.mem_append_left _ hb) hgb).trans (first b hb)
      · rwa [List.filter_append, List.filter_cons_of_neg hga, List.filter_cons_of_neg hga]

/-- Only what the items say of each other matters. -/
theorem congr {before' : α → α → Bool} (h : Lines before pending line stuck)
    (heq : ∀ a ∈ pending, ∀ b ∈ pending, before' b a = before b a) :
    Lines before' pending line stuck := by
  have hready : ∀ {pending : List α}, (∀ a ∈ pending, ∀ b ∈ pending, before' b a = before b a) →
      ∀ a ∈ pending, isReady before' pending a = isReady before pending a := by
    intro pending heq a ha
    rw [Bool.eq_iff_iff, isReady_iff, isReady_iff]
    exact forall₂_congr fun b hb => by rw [heq a ha b hb]
  induction h with
  | stuck h => exact .stuck fun a ha => (hready heq a ha).trans (h a ha)
  | @take front back line stuck a first ready next ih =>
      have hsub := (sublist_append_cons front a back).subset
      refine .take (fun b hb => ?_) ((hready heq a (by simp)).trans ready)
        (ih fun b hb c hc => heq b (hsub hb) c (hsub hc))
      exact (hready heq b (List.mem_append_left _ hb)).trans (first b hb)

end Group

/-- Items under other names make the same line. -/
theorem filterMap {f : α → Option β} {before' : β → β → Bool}
    (h : Lines before pending line stuck) (hf : ∀ a ∈ pending, (f a).isSome)
    (hb : ∀ a ∈ pending, ∀ b ∈ pending, ∀ x ∈ f a, ∀ y ∈ f b, before' y x = before b a) :
    Lines before' (pending.filterMap f) (line.filterMap f) (stuck.filterMap f) := by
  have hready : ∀ {pending : List α},
      (∀ a ∈ pending, ∀ b ∈ pending, ∀ x ∈ f a, ∀ y ∈ f b, before' y x = before b a) →
      (∀ a ∈ pending, (f a).isSome) → ∀ a ∈ pending, ∀ x ∈ f a,
        isReady before' (pending.filterMap f) x = isReady before pending a := by
    intro pending hb hf a ha x hx
    rw [Bool.eq_iff_iff, isReady_iff, isReady_iff]
    simp only [List.mem_filterMap]
    constructor
    · intro hall b hbp
      obtain ⟨y, hy⟩ := Option.isSome_iff_exists.1 (hf b hbp)
      rw [← hb a ha b hbp x hx y hy]
      exact hall y ⟨b, hbp, hy⟩
    · rintro hall y ⟨b, hbp, hy⟩
      rw [hb a ha b hbp x hx y hy]
      exact hall b hbp
  induction h with
  | @stuck pending hno =>
      refine .stuck fun x hx => ?_
      obtain ⟨a, ha, hax⟩ := List.mem_filterMap.1 hx
      rw [hready hb hf a ha x hax]
      exact hno a ha
  | @take front back line stuck a first ready next ih =>
      have hsub := (sublist_append_cons front a back).subset
      have ha : a ∈ front ++ a :: back := by simp
      obtain ⟨x, hx⟩ := Option.isSome_iff_exists.1 (hf a ha)
      have hnext := ih (fun b hbp => hf b (hsub hbp))
        fun b hbp c hcp => hb b (hsub hbp) c (hsub hcp)
      have hpending : (front ++ a :: back).filterMap f =
          front.filterMap f ++ x :: back.filterMap f := by
        rw [List.filterMap_append, List.filterMap_cons_some hx]
      have hr := hready hb hf
      rw [hpending] at hr ⊢
      rw [List.filterMap_cons_some hx]
      rw [List.filterMap_append] at hnext
      refine .take (fun y hy => ?_) ((hr a ha x hx).trans ready) hnext
      obtain ⟨b, hbf, hby⟩ := List.mem_filterMap.1 hy
      exact (hr b (List.mem_append_left _ hbf) y hby).trans (first b hbf)

end Lines

/-! ## Circles -/

/-- Where everything in a finite list has a predecessor in it, there is a circle. -/
theorem exists_transGen_self {r : α → α → Prop} {l : List α} (hl : l ≠ [])
    (h : ∀ a ∈ l, ∃ b ∈ l, r b a) : ∃ a, Relation.TransGen r a a := by
  by_contra hno
  rw [not_exists] at hno
  let s : {a // a ∈ l} → {a // a ∈ l} → Prop := fun b a => Relation.TransGen r b.1 a.1
  have htrans : IsTrans {a // a ∈ l} s := ⟨fun _ _ _ hab hbc => hab.trans hbc⟩
  have hirrefl : Std.Irrefl s := ⟨fun a => hno a.1⟩
  have hfin : Finite {a // a ∈ l} := (List.finite_toSet l).to_subtype
  obtain ⟨x, hx⟩ := List.exists_mem_of_ne_nil l hl
  obtain ⟨m, -, hm⟩ := (Finite.wellFounded_of_trans_of_irrefl s).has_min Set.univ
    ⟨⟨x, hx⟩, Set.mem_univ _⟩
  obtain ⟨b, hb, hbm⟩ := h m.1 m.2
  exact hm ⟨b, hb⟩ (Set.mem_univ _) (.single hbm)

/-- Where everything in a finite list has a predecessor in it, everything stands on a circle or
behind one. -/
theorem exists_circle_behind {r : α → α → Prop} {l : List α} (h : ∀ a ∈ l, ∃ b ∈ l, r b a) {a : α}
    (ha : a ∈ l) : ∃ c, Relation.TransGen r c c ∧ Relation.ReflTransGen r c a := by
  classical
  -- The items that lead to `a` have predecessors among themselves.
  let s : α → α → Prop := fun b c => r b c ∧ Relation.ReflTransGen r c a
  have hpred : ∀ c ∈ l.filter (Relation.ReflTransGen r · a),
      ∃ b ∈ l.filter (Relation.ReflTransGen r · a), s b c := by
    intro c hc
    obtain ⟨hc, hca⟩ := List.mem_filter.1 hc
    have hca := of_decide_eq_true hca
    obtain ⟨b, hb, hbc⟩ := h c hc
    exact ⟨b, List.mem_filter.2 ⟨hb, decide_eq_true (.head hbc hca)⟩, hbc, hca⟩
  have hself : a ∈ l.filter (Relation.ReflTransGen r · a) :=
    List.mem_filter.2 ⟨ha, decide_eq_true .refl⟩
  obtain ⟨c, hc⟩ := exists_transGen_self (List.ne_nil_of_mem hself) hpred
  obtain ⟨d, -, hd⟩ := Relation.TransGen.tail'_iff.1 hc
  exact ⟨c, hc.lift id fun _ _ e => e.1, hd.2⟩

/-- Each step of a circle can be walked back along it. -/
theorem transGen_self_and_back {r : α → α → Prop} {a : α} (h : Relation.TransGen r a a) :
    Relation.TransGen (fun b c => r b c ∧ Relation.ReflTransGen r c b) a a := by
  suffices hx : ∀ x, Relation.TransGen r a x → Relation.ReflTransGen r x a →
      Relation.TransGen (fun b c => r b c ∧ Relation.ReflTransGen r c b) a x from
    hx a h .refl
  intro x hax
  induction hax with
  | single e => exact fun hxa => .single ⟨e, hxa⟩
  | tail hay e ih => exact fun hxa => .tail (ih (.head e hxa)) ⟨e, hxa.trans hay.to_reflTransGen⟩

/-! ## What is stuck -/

namespace Lines

variable {pending line stuck : List α} {r : α → α → Prop}

/-- Whatever leads to an item of the line stands in front of it. -/
theorem mem_of_transGen (h : Lines before pending line stuck)
    (hr : ∀ b a, r b a → b ∈ pending ∧ before b a = true) {a b : α}
    (hba : Relation.TransGen r b a) :
    ∀ {done rest : List α}, line = done ++ a :: rest → b ∈ done := by
  induction hba with
  | single e => exact fun hl => h.mem_of_before hl (hr _ _ e).1 (hr _ _ e).2
  | @tail c a _ e ih =>
      intro done rest hl
      have hc : c ∈ done := h.mem_of_before hl (hr _ _ e).1 (hr _ _ e).2
      obtain ⟨front, back, rfl⟩ := List.append_of_mem hc
      have hsplit : line = front ++ c :: (back ++ a :: rest) := by simp [hl]
      exact List.mem_append_left _ (ih hsplit)

/-- An item is stuck exactly if it is on a circle of the precedence or comes after one. -/
theorem mem_stuck_iff (h : Lines before pending line stuck) (hnd : pending.Nodup)
    (hr : ∀ b a, r b a ↔ b ∈ pending ∧ a ∈ pending ∧ before b a = true) {a : α}
    (ha : a ∈ pending) :
    a ∈ stuck ↔ ∃ c, Relation.TransGen r c c ∧ Relation.ReflTransGen r c a := by
  have hstuck : ∀ b ∈ stuck, b ∈ pending := fun b hb => h.perm.subset (List.mem_append_right _ hb)
  constructor
  · intro has
    refine exists_circle_behind (fun b hb => ?_) has
    obtain ⟨c, hc, hcb⟩ := h.exists_before b hb
    exact ⟨c, hc, (hr c b).2 ⟨hstuck c hc, hstuck b hb, hcb⟩⟩
  · rintro ⟨c, hcircle, hca⟩
    refine (List.mem_append.1 (h.perm.mem_iff.2 ha)).resolve_left fun hal => ?_
    have hbefore : ∀ b a, r b a → b ∈ pending ∧ before b a = true :=
      fun b a e => ⟨((hr b a).1 e).1, ((hr b a).1 e).2.2⟩
    -- With an item of the line the circle that leads to it would be in line as well.
    have hcl : c ∈ line := by
      rcases Relation.reflTransGen_iff_eq_or_transGen.1 hca with rfl | hca
      · exact hal
      · obtain ⟨done, rest, hl⟩ := List.append_of_mem hal
        exact hl ▸ List.mem_append_left _ (h.mem_of_transGen hbefore hca hl)
    obtain ⟨done, rest, rfl⟩ := List.append_of_mem hcl
    have hnodup : (done ++ c :: rest).Nodup :=
      (List.nodup_append.1 (h.perm.nodup_iff.2 hnd)).1
    have hcd : c ∈ done := h.mem_of_transGen hbefore hcircle rfl
    exact (List.nodup_append.1 hnodup).2.2 c hcd c List.mem_cons_self rfl

end Lines

end TransferPlan
