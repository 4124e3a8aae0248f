import TransferPlan.Graph.Components
import Mathlib.Data.Finset.Card
import Mathlib.Logic.Relation
import Mathlib.Tactic.SplitIfs

/-!
# The invariant of the search

The search keeps the nodes that it has entered and whose component is open on a stack, the latest
first.  `Inv g path s` says what holds of the state `s` while the nodes of `path` are entered and
not yet left: a node on the stack is reached by every node below it and reaches a node of the path
that lies not above it, and the closed nodes are whole components that lead to closed nodes only.
A visit keeps the invariant, and the number that it finds bounds the nodes below that the new part of
the stack leads to (`Visited`); so a node that leads to none below it closes its whole component.
-/

namespace TransferPlan

namespace Graph

variable {g : Graph}

/-- There is an edge between two nodes of the graph. -/
def Edge (g : Graph) (v w : ℕ) : Prop := w ∈ g.successors v

/-- There is a path, possibly empty. -/
def Reaches (g : Graph) : ℕ → ℕ → Prop := Relation.ReflTransGen g.Edge

/-- Two nodes reach each other. -/
def Joined (g : Graph) (v w : ℕ) : Prop := g.Reaches v w ∧ g.Reaches w v

theorem Edge.lt {v w : ℕ} (h : g.Edge v w) : w < g.size := by
  simpa using List.of_mem_filter h

theorem Reaches.closed {S : ℕ → Prop} (hS : ∀ v w, S v → g.Edge v w → S w) {v w : ℕ}
    (h : g.Reaches v w) (hv : S v) : S w := by
  induction h with
  | refl => exact hv
  | tail _ e ih => exact hS _ _ ih e

theorem Joined.symm {v w : ℕ} (h : g.Joined v w) : g.Joined w v := ⟨h.2, h.1⟩

theorem Joined.trans {u v w : ℕ} (h : g.Joined u v) (h' : g.Joined v w) : g.Joined u w :=
  ⟨h.1.trans h'.1, h'.2.trans h.2⟩

/-! ## Views of a state -/

namespace Search

variable {s t u : Search}

/-- The node has been entered. -/
def Entered (s : Search) (v : ℕ) : Prop := Option.isSome <| s.entry? v

/-- The component of the node has been closed. -/
def Closed (s : Search) (v : ℕ) : Prop := (s.component? v).isSome

/-- The number under which a node was entered. -/
def number (s : Search) (v : ℕ) : ℕ := ( s.entry? v).getD 0

theorem Entered.lt {v : ℕ} (h : s.Entered v) : v < s.entry.size := by
  by_contra hv
  simp [Entered, entry?, hv] at h

theorem entry?_enter {v : ℕ} (hv : v < s.entry.size) (w : ℕ) :
    Search.entry? (s.enter v) w = if w = v then some s.next else s.entry? w := by
  simp only [enter, entry?, Array.getD_eq_getD_getElem?, Array.getElem?_setIfInBounds, eq_comm]
  split_ifs <;> rfl

theorem entered_enter {v : ℕ} (hv : v < s.entry.size) (w : ℕ) :
    (s.enter v).Entered w ↔ w = v ∨ s.Entered w := by
  unfold Entered
  rw [entry?_enter hv]
  split_ifs with h <;> simp [h]

theorem number_enter_self {v : ℕ} (hv : v < s.entry.size) : (s.enter v).number v = s.next := by
  simp [number, entry?_enter hv]

theorem number_enter_of_ne {v w : ℕ} (hv : v < s.entry.size) (h : w ≠ v) :
    (s.enter v).number w = s.number w := by
  simp [number, entry?_enter hv, h]

/-! ## Closing a component -/

theorem cutAfter_append {v : ℕ} (rest : List ℕ) :
    ∀ above : List ℕ, v ∉ above → cutAfter v (above ++ v :: rest) = (above ++ [v], rest)
  | [], _ => by simp [cutAfter]
  | w :: above, h => by
      have hw : w ≠ v := fun e => h (e ▸ List.mem_cons_self)
      have ih := cutAfter_append rest above fun hv => h (List.mem_cons_of_mem _ hv)
      simp [cutAfter, hw, ih]

theorem getD_foldl_setIfInBounds (n w : ℕ) (members : List ℕ) :
    ∀ c : Array (Option ℕ),
      (members.foldl (fun c v => c.setIfInBounds v (some n)) c).getD w none =
        if w ∈ members ∧ w < c.size then some n else c.getD w none := by
  induction members with
  | nil => simp
  | cons v members ih =>
      intro c
      rw [List.foldl_cons, ih, Array.size_setIfInBounds]
      simp only [Array.getD_eq_getD_getElem?, Array.getElem?_setIfInBounds, List.mem_cons]
      by_cases hv : w = v
      · subst hv
        by_cases hw : w < c.size <;> simp [hw]
      · simp [hv, Ne.symm hv]

theorem size_foldl_setIfInBounds (n : ℕ) (members : List ℕ) :
    ∀ c : Array (Option ℕ),
      (members.foldl (fun c v => c.setIfInBounds v (some n)) c).size = c.size := by
  induction members with
  | nil => simp
  | cons v members ih =>
      intro c
      rw [List.foldl_cons, ih, Array.size_setIfInBounds]

section Close

variable {v : ℕ} {above below : List ℕ}

theorem stack_close (hs : s.stack = above ++ v :: below) (hv : v ∉ above) :
    (s.close v).stack = below := by
  simp [close, hs, cutAfter_append below above hv]

theorem component?_close (hs : s.stack = above ++ v :: below) (hv : v ∉ above) (w : ℕ) :
    (s.close v).component? w =
      if w ∈ above ++ [v] ∧ w < s.component.size then some s.closed else s.component? w := by
  simp only [close, component?, hs, cutAfter_append below above hv]
  exact getD_foldl_setIfInBounds _ _ _ _

theorem size_component_close : (s.close v).component.size = s.component.size :=
  size_foldl_setIfInBounds _ _ _

@[simp] theorem entered_close (w : ℕ) : (s.close v).Entered w ↔ s.Entered w := Iff.rfl

end Close

/-! ## The invariant -/

/-- What holds of a state while the nodes of `path` are entered and not left. -/
structure Inv (g : Graph) (path : List ℕ) (s : Search) : Prop where
  entry_size : s.entry.size = g.size
  component_size : s.component.size = g.size
  mem_stack : ∀ v, v ∈ s.stack ↔ s.Entered v ∧ ¬ s.Closed v
  entered_of_closed : ∀ v, s.Closed v → s.Entered v
  number_lt : ∀ v, s.Entered v → s.number v < s.next
  sorted : s.stack.Pairwise fun a b => s.number b < s.number a
  path_open : ∀ v ∈ path, v ∈ s.stack
  entered_succ : ∀ v w, s.Entered v → v ∉ path → g.Edge v w → s.Entered w
  /-- A node is reached by those below it. -/
  reaches_later : ∀ a ∈ s.stack, ∀ b ∈ s.stack, s.number b ≤ s.number a → g.Reaches b a
  /-- A node reaches one of the path that is not above it. -/
  reaches_path : ∀ a ∈ s.stack, ∃ p ∈ path, s.number p ≤ s.number a ∧ g.Reaches a p
  closed_succ : ∀ v w, s.Closed v → g.Edge v w → s.Closed w
  component_eq_iff : ∀ v w, s.Closed v → s.Closed w →
    (s.component? v = s.component? w ↔ g.Joined v w)
  component_lt : ∀ v n, s.component? v = some n → n < s.closed
  component_used : ∀ n < s.closed, ∃ v, s.component? v = some n

/-- The state `t` comes after `s`: what was entered or closed stays so, and the stack has only
grown. -/
structure Continues (s t : Search) : Prop where
  entry : ∀ v, s.Entered v → t.entry? v = s.entry? v
  component : ∀ v, s.Closed v → t.component? v = s.component? v
  stack : s.stack <:+ t.stack
  next_le : s.next ≤ t.next

namespace Continues

theorem refl (s : Search) : Continues s s :=
  ⟨fun _ _ => rfl, fun _ _ => rfl, List.suffix_rfl, le_rfl⟩

theorem entered (h : Continues s t) {v : ℕ} (hv : s.Entered v) : t.Entered v := by
  unfold Entered
  rwa [h.entry v hv]

theorem closed (h : Continues s t) {v : ℕ} (hv : s.Closed v) : t.Closed v := by
  unfold Closed
  rwa [h.component v hv]

theorem number (h : Continues s t) {v : ℕ} (hv : s.Entered v) : t.number v = s.number v := by
  unfold Search.number
  rw [h.entry v hv]

theorem mem_stack (h : Continues s t) {v : ℕ} (hv : v ∈ s.stack) : v ∈ t.stack :=
  h.stack.subset hv

theorem trans (h : Continues s t) (h' : Continues t u) : Continues s u where
  entry v hv := (h'.entry v (h.entered hv)).trans (h.entry v hv)
  component v hv := (h'.component v (h.closed hv)).trans (h.component v hv)
  stack := h.stack.trans h'.stack
  next_le := h.next_le.trans h'.next_le

end Continues

namespace Inv

variable {path : List ℕ}

theorem entered (h : Inv g path s) {v : ℕ} (hv : v ∈ s.stack) : s.Entered v :=
  ((h.mem_stack v).1 hv).1

theorem not_closed (h : Inv g path s) {v : ℕ} (hv : v ∈ s.stack) : ¬ s.Closed v :=
  ((h.mem_stack v).1 hv).2

theorem lt_size (h : Inv g path s) {v : ℕ} (hv : s.Entered v) : v < g.size :=
  h.entry_size ▸ hv.lt

theorem closed_of_reaches (h : Inv g path s) {v w : ℕ} (hv : s.Closed v) (r : g.Reaches v w) :
    s.Closed w :=
  r.closed h.closed_succ hv

theorem nodup (h : Inv g path s) : s.stack.Nodup :=
  h.sorted.imp fun hab e => absurd hab (by rw [e]; exact lt_irrefl _)

/-- With no node on the path nothing is open. -/
theorem stack_eq_nil (h : Inv g [] s) : s.stack = [] := by
  refine List.eq_nil_iff_forall_not_mem.2 fun a ha => ?_
  obtain ⟨p, hp, -⟩ := h.reaches_path a ha
  exact absurd hp List.not_mem_nil

theorem closed_of_entered (h : Inv g [] s) {v : ℕ} (hv : s.Entered v) : s.Closed v := by
  by_contra hc
  have hm := (h.mem_stack v).2 ⟨hv, hc⟩
  rw [h.stack_eq_nil] at hm
  exact absurd hm List.not_mem_nil

end Inv

theorem getD_replicate_none (n v : ℕ) :
    (Array.replicate n (none : Option ℕ)).getD v none = none := by
  by_cases h : v < n <;> simp [h]

theorem inv_start (g : Graph) : Inv g [] (start g.size) := by
  have hclosed : ∀ v, (start g.size).component? v = none := getD_replicate_none _
  have hentry : ∀ v, ¬ (start g.size).Entered v := fun v => by
    simp only [Entered, entry?, start, getD_replicate_none, Option.isSome_none, Bool.false_eq_true,
      not_false_eq_true]
  have hnot : ∀ v, ¬ (start g.size).Closed v := fun v => by simp [Closed, hclosed]
  refine
    { entry_size := by simp [start]
      component_size := by simp [start]
      mem_stack := fun v => ⟨fun h => absurd h List.not_mem_nil, fun h => absurd h.1 (hentry v)⟩
      entered_of_closed := fun v h => absurd h (hnot v)
      number_lt := fun v h => absurd h (hentry v)
      sorted := List.Pairwise.nil
      path_open := fun v h => absurd h List.not_mem_nil
      entered_succ := fun v _ h => absurd h (hentry v)
      reaches_later := fun a h => absurd h List.not_mem_nil
      reaches_path := fun a h => absurd h List.not_mem_nil
      closed_succ := fun v _ h => absurd h (hnot v)
      component_eq_iff := fun v _ h => absurd h (hnot v)
      component_lt := fun v n h => by simp [hclosed] at h
      component_used := fun n h => absurd h (Nat.not_lt_zero n) }

/-! ## Entering a node -/

section Enter

variable {path : List ℕ} {v : ℕ}

theorem continues_enter (h : Inv g path s) (hv : v < g.size) (hn : ¬ s.Entered v) :
    Continues s (s.enter v) where
  entry w hw := by
    rw [entry?_enter (h.entry_size ▸ hv), if_neg]
    rintro rfl
    exact hn hw
  component _ _ := rfl
  stack := List.suffix_cons v s.stack
  next_le := Nat.le_succ _

theorem inv_enter (h : Inv g path s) (hv : v < g.size) (hn : ¬ s.Entered v)
    (hp : ∀ p ∈ path, g.Reaches p v) : Inv g (v :: path) (s.enter v) := by
  have hvs : v < s.entry.size := h.entry_size ▸ hv
  have hvn : (s.enter v).number v = s.next := number_enter_self hvs
  have hne : ∀ {w}, s.Entered w → w ≠ v := fun hw e => hn (e ▸ hw)
  have hnum : ∀ {w}, s.Entered w → (s.enter v).number w = s.number w := fun hw =>
    number_enter_of_ne hvs (hne hw)
  have hmem : ∀ {w}, w ∈ s.stack → (s.enter v).number w = s.number w ∧ s.number w < s.next :=
    fun hw => ⟨hnum (h.entered hw), h.number_lt _ (h.entered hw)⟩
  refine
    { entry_size := by simp [enter, h.entry_size]
      component_size := h.component_size
      mem_stack := ?mem_stack
      entered_of_closed := fun w hw => (entered_enter hvs w).2 (.inr (h.entered_of_closed w hw))
      number_lt := ?number_lt
      sorted := ?sorted
      path_open := ?path_open
      entered_succ := ?entered_succ
      reaches_later := ?reaches_later
      reaches_path := ?reaches_path
      closed_succ := h.closed_succ
      component_eq_iff := h.component_eq_iff
      component_lt := h.component_lt
      component_used := h.component_used }
  case mem_stack =>
    intro w
    rw [entered_enter hvs]
    show w ∈ v :: s.stack ↔ (w = v ∨ s.Entered w) ∧ ¬ s.Closed w
    rw [List.mem_cons, h.mem_stack]
    constructor
    · rintro (rfl | ⟨he, hc⟩)
      · exact ⟨.inl rfl, fun hc => hn (h.entered_of_closed w hc)⟩
      · exact ⟨.inr he, hc⟩
    · rintro ⟨rfl | he, hc⟩
      · exact .inl rfl
      · exact .inr ⟨he, hc⟩
  case number_lt =>
    intro w hw
    show _ < s.next + 1
    rcases (entered_enter hvs w).1 hw with rfl | he
    · omega
    · have := h.number_lt w he
      rw [hnum he]
      omega
  case sorted =>
    refine List.pairwise_cons.2 ⟨fun w hw => ?_, ?_⟩
    · rw [hvn, (hmem hw).1]
      exact (hmem hw).2
    · refine h.sorted.imp_of_mem fun ha hb hab => ?_
      rwa [(hmem ha).1, (hmem hb).1]
  case path_open =>
    rintro w hw
    rcases List.mem_cons.1 hw with rfl | hw
    · exact List.mem_cons_self
    · exact List.mem_cons_of_mem _ (h.path_open w hw)
  case entered_succ =>
    intro a b ha hap e
    rw [List.mem_cons, not_or] at hap
    rcases (entered_enter hvs a).1 ha with rfl | ha
    · exact absurd rfl hap.1
    · exact (entered_enter hvs b).2 (.inr (h.entered_succ a b ha hap.2 e))
  case reaches_later =>
    intro a ha b hb hab
    rcases List.mem_cons.1 ha with rfl | has <;> rcases List.mem_cons.1 hb with rfl | hbs
    · exact .refl
    · obtain ⟨p, hpp, -, hr⟩ := h.reaches_path b hbs
      exact hr.trans (hp p hpp)
    · rw [hvn, (hmem has).1] at hab
      have := (hmem has).2
      omega
    · rw [(hmem has).1, (hmem hbs).1] at hab
      exact h.reaches_later a has b hbs hab
  case reaches_path =>
    intro a ha
    rcases List.mem_cons.1 ha with rfl | ha
    · exact ⟨a, List.mem_cons_self, le_rfl, .refl⟩
    · obtain ⟨p, hpp, hle, hr⟩ := h.reaches_path a ha
      refine ⟨p, List.mem_cons_of_mem _ hpp, ?_, hr⟩
      rwa [(hmem ha).1, (hmem (h.path_open p hpp)).1]

end Enter

/-! ## Looking at the successors of a node -/

/-- What a visit to `v` in the state `s` gives. -/
structure Visited (g : Graph) (path : List ℕ) (v : ℕ) (s : Search) (low : ℕ) (t : Search) :
    Prop where
  inv : Inv g path t
  continues : Continues s t
  entered : t.Entered v
  low_reached : s.next ≤ low ∨ ∃ y ∈ t.stack, t.number y = low ∧ g.Reaches v y
  /-- The new part of the stack leads to no node below with a smaller number. -/
  low_le : ∀ x ∈ t.stack, x ∉ s.stack → ∀ y ∈ s.stack, g.Edge x y → low ≤ s.number y

/-- What holds when `v` was entered in the state `s` and its successors in `seen` have been looked
at. -/
structure Scanned (g : Graph) (path : List ℕ) (v : ℕ) (s : Search) (seen : List ℕ) (low : ℕ)
    (t : Search) : Prop where
  inv : Inv g (v :: path) t
  continues : Continues (s.enter v) t
  seen_entered : ∀ w ∈ seen, t.Entered w
  low_reached : ∃ y ∈ t.stack, t.number y = low ∧ g.Reaches v y
  low_le_next : low ≤ s.next
  low_le : ∀ x ∈ t.stack, x ∉ s.stack → ∀ y ∈ s.stack, g.Edge x y → (x = v → y ∈ seen) →
    low ≤ s.number y

section Scan

variable {path seen : List ℕ} {v w low low' : ℕ}

theorem scanned_enter (h : Inv g path s) (hv : v < g.size) (hn : ¬ s.Entered v)
    (hp : ∀ p ∈ path, g.Reaches p v) : Scanned g path v s [] s.next (s.enter v) where
  inv := inv_enter h hv hn hp
  continues := .refl _
  seen_entered w hw := absurd hw List.not_mem_nil
  low_reached := ⟨v, List.mem_cons_self, number_enter_self (h.entry_size ▸ hv), .refl⟩
  low_le_next := le_rfl
  low_le x hx hxs y _ _ hy := by
    rcases List.mem_cons.1 hx with rfl | hx
    · exact absurd (hy rfl) List.not_mem_nil
    · exact absurd hx hxs

/-- A successor that has been entered changes the state no more; only its number counts, and that
while it is open. -/
theorem Scanned.look_entered (sc : Scanned g path v s seen low t) (hw : t.Entered w)
    (hle : low' ≤ low) (hr : low' = low ∨ w ∈ t.stack ∧ t.number w = low') (e : g.Edge v w)
    (hlow : w ∈ s.stack → low' ≤ s.number w) : Scanned g path v s (seen ++ [w]) low' t where
  inv := sc.inv
  continues := sc.continues
  seen_entered x hx := by
    rcases List.mem_append.1 hx with hx | hx
    · exact sc.seen_entered x hx
    · exact List.mem_singleton.1 hx ▸ hw
  low_reached := by
    rcases hr with rfl | ⟨hws, hnum⟩
    · exact sc.low_reached
    · exact ⟨w, hws, hnum, .single e⟩
  low_le_next := hle.trans sc.low_le_next
  low_le x hx hxs y hy exy hseen := by
    by_cases hyw : y = w
    · exact hyw ▸ hlow (hyw ▸ hy)
    · refine hle.trans (sc.low_le x hx hxs y hy exy fun hxv => ?_)
      simpa [hyw] using hseen hxv

/-- A successor that has not been entered is visited. -/
theorem Scanned.look_visited (sc : Scanned g path v s seen low t) (h : Inv g path s)
    (hv : v < g.size) (hn : ¬ s.Entered v) (hw : ¬ t.Entered w) (e : g.Edge v w)
    (vis : Visited g (v :: path) w t low' u) :
    Scanned g path v s (seen ++ [w]) (min low low') u where
  inv := vis.inv
  continues := sc.continues.trans vis.continues
  seen_entered x hx := by
    rcases List.mem_append.1 hx with hx | hx
    · exact vis.continues.entered (sc.seen_entered x hx)
    · exact List.mem_singleton.1 hx ▸ vis.entered
  low_reached := by
    rcases le_or_gt low low' with hle | hlt
    · obtain ⟨y, hy, hnum, hr⟩ := sc.low_reached
      refine ⟨y, vis.continues.mem_stack hy, ?_, hr⟩
      rw [min_eq_left hle, vis.continues.number (sc.inv.entered hy), hnum]
    · rcases vis.low_reached with hle | ⟨y, hy, hnum, hr⟩
      · have hnext : s.next + 1 ≤ t.next := sc.continues.next_le
        have := sc.low_le_next
        omega
      · exact ⟨y, hy, by rw [min_eq_right hlt.le, hnum], .head e hr⟩
  low_le_next := (min_le_left _ _).trans sc.low_le_next
  low_le x hx hxs y hy exy hseen := by
    have c : Continues s t := (continues_enter h hv hn).trans sc.continues
    by_cases hxt : x ∈ t.stack
    · refine (min_le_left _ _).trans (sc.low_le x hxt hxs y hy exy fun hxv => ?_)
      have hyw : y ≠ w := fun hyw => hw (hyw ▸ c.entered (h.entered hy))
      simpa [hyw] using hseen hxv
    · refine (min_le_right _ _).trans ?_
      rw [← c.number (h.entered hy)]
      exact vis.low_le x hx hxt y (c.mem_stack hy) exy

end Scan

/-! ## Leaving a node -/

section Leave

variable {path : List ℕ} {v low : ℕ}

/-- All successors of the nodes that are entered and left are entered. -/
theorem Scanned.entered_succ (sc : Scanned g path v s (g.successors v) low t) {a b : ℕ}
    (ha : t.Entered a) (hap : a ∉ path) (e : g.Edge a b) : t.Entered b := by
  by_cases hav : a = v
  · exact sc.seen_entered b (hav ▸ e)
  · exact sc.inv.entered_succ a b ha (by simp [hav, hap]) e

theorem Scanned.continues_start (sc : Scanned g path v s (g.successors v) low t)
    (h : Inv g path s) (hv : v < g.size) (hn : ¬ s.Entered v) : Continues s t :=
  (continues_enter h hv hn).trans sc.continues

theorem Scanned.entered (sc : Scanned g path v s (g.successors v) low t) (h : Inv g path s)
    (hv : v < g.size) : t.Entered v :=
  sc.continues.entered ((entered_enter (h.entry_size ▸ hv) v).2 (.inl rfl))

theorem Scanned.number_self (sc : Scanned g path v s (g.successors v) low t) (h : Inv g path s)
    (hv : v < g.size) : t.number v = s.next := by
  have hvs : v < s.entry.size := h.entry_size ▸ hv
  rw [sc.continues.number ((entered_enter hvs v).2 (.inl rfl)), number_enter_self hvs]

/-- A node that reaches an open node below it stays open. -/
theorem Scanned.leave_open (sc : Scanned g path v s (g.successors v) low t) (h : Inv g path s)
    (hv : v < g.size) (hn : ¬ s.Entered v) (hlow : low ≠ s.next) : Visited g path v s low t where
  inv :=
    { sc.inv with
      path_open := fun p hp => sc.inv.path_open p (List.mem_cons_of_mem _ hp)
      entered_succ := fun a b ha hap e => sc.entered_succ ha hap e
      reaches_path := fun a ha => by
        obtain ⟨p, hp, hle, hr⟩ := sc.inv.reaches_path a ha
        rcases List.mem_cons.1 hp with rfl | hp
        · -- `a` reaches the node that is left, and that one an open node below it.
          obtain ⟨y, hy, hnum, hry⟩ := sc.low_reached
          obtain ⟨q, hq, hqle, hrq⟩ := sc.inv.reaches_path y hy
          have hself := sc.number_self h hv
          have := sc.low_le_next
          rcases List.mem_cons.1 hq with rfl | hq
          · omega
          · exact ⟨q, hq, by omega, (hr.trans hry).trans hrq⟩
        · exact ⟨p, hp, hle, hr⟩ }
  continues := sc.continues_start h hv hn
  entered := sc.entered h hv
  low_reached := .inr sc.low_reached
  low_le x hx hxs y hy e := sc.low_le x hx hxs y hy e fun hxv => hxv ▸ e

section Close

variable {above : List ℕ} (sc : Scanned g path v s (g.successors v) s.next t) (h : Inv g path s)
  (hst : t.stack = above ++ v :: s.stack)

include hst

theorem mem_stack_iff_above (x : ℕ) : x ∈ t.stack ↔ x ∈ above ++ [v] ∨ x ∈ s.stack := by
  rw [hst]
  simp [or_assoc]

include sc

/-- The part of the stack down to `v` is disjoint from the part below. -/
theorem Scanned.not_mem_below {x : ℕ} (hx : x ∈ above ++ [v]) : x ∉ s.stack := by
  have hnd := sc.inv.nodup
  rw [hst, List.append_cons, List.nodup_append] at hnd
  exact fun hxs => hnd.2.2 x hx x hxs rfl

theorem Scanned.not_mem_above : v ∉ above := by
  have hnd := sc.inv.nodup
  rw [hst, List.nodup_append] at hnd
  exact fun hx => hnd.2.2 v hx v List.mem_cons_self rfl

theorem Scanned.component?_close (x : ℕ) :
    (t.close v).component? x =
      if x ∈ above ++ [v] then some t.closed else t.component? x := by
  rw [Search.component?_close hst (sc.not_mem_above hst)]
  by_cases hx : x ∈ above ++ [v]
  · have hlt : x < t.component.size := by
      rw [sc.inv.component_size]
      exact sc.inv.lt_size (sc.inv.entered ((mem_stack_iff_above hst x).2 (.inl hx)))
    rw [if_pos ⟨hx, hlt⟩, if_pos hx]
  · rw [if_neg fun hh => hx hh.1, if_neg hx]

theorem Scanned.closed_close (x : ℕ) :
    (t.close v).Closed x ↔ x ∈ above ++ [v] ∨ t.Closed x := by
  unfold Closed
  rw [sc.component?_close hst]
  split_ifs with hx <;> simp [hx]

include h

/-- No edge leads from the part down to `v` to an open node below. -/
theorem Scanned.edge_above {x y : ℕ} (hx : x ∈ above ++ [v]) (e : g.Edge x y) :
    y ∈ above ++ [v] ∨ t.Closed y := by
  have hxt : x ∈ t.stack := (mem_stack_iff_above hst x).2 (.inl hx)
  have hxs := sc.not_mem_below hst hx
  have hy : t.Entered y :=
    sc.entered_succ (sc.inv.entered hxt) (fun hxp => hxs (h.path_open x hxp)) e
  by_cases hc : t.Closed y
  · exact .inr hc
  · rcases (mem_stack_iff_above hst y).1 ((sc.inv.mem_stack y).2 ⟨hy, hc⟩) with hya | hys
    · exact .inl hya
    · have hle := sc.low_le x hxt hxs y hys e fun hxv => hxv ▸ e
      have := h.number_lt y (h.entered hys)
      omega

theorem Scanned.reaches_above {x y : ℕ} (hx : x ∈ above ++ [v]) (r : g.Reaches x y) :
    y ∈ above ++ [v] ∨ t.Closed y := by
  refine r.closed (S := fun y => y ∈ above ++ [v] ∨ t.Closed y) ?_ (.inl hx)
  rintro a b (ha | ha) e
  · exact sc.edge_above h hst ha e
  · exact .inr (sc.inv.closed_succ a b ha e)

/-- The part of the stack down to `v` is the component of `v`. -/
theorem Scanned.joined_above {x : ℕ} (hx : x ∈ above ++ [v]) : g.Joined v x := by
  have hxt : x ∈ t.stack := (mem_stack_iff_above hst x).2 (.inl hx)
  have hvt : v ∈ t.stack := (mem_stack_iff_above hst v).2 (.inl (by simp))
  have hle : t.number v ≤ t.number x := by
    have hs := sc.inv.sorted
    rw [hst, List.pairwise_append] at hs
    rcases List.mem_append.1 hx with hx | hx
    · exact (hs.2.2 x hx v List.mem_cons_self).le
    · exact (List.mem_singleton.1 hx ▸ le_rfl)
  refine ⟨sc.inv.reaches_later x hxt v hvt hle, ?_⟩
  obtain ⟨p, hp, -, hr⟩ := sc.inv.reaches_path x hxt
  rcases List.mem_cons.1 hp with rfl | hp
  · exact hr
  · have hps := h.path_open p hp
    rcases sc.reaches_above h hst hx hr with hpa | hpc
    · exact absurd hps (sc.not_mem_below hst hpa)
    · exact absurd hpc (sc.inv.not_closed ((mem_stack_iff_above hst p).2 (.inr hps)))

theorem Scanned.mem_above_of_joined {x y : ℕ} (hx : x ∈ above ++ [v]) (j : g.Joined x y) :
    y ∈ above ++ [v] := by
  rcases sc.reaches_above h hst hx j.1 with hy | hy
  · exact hy
  · exact absurd (sc.inv.closed_of_reaches hy j.2)
      (sc.inv.not_closed ((mem_stack_iff_above hst x).2 (.inl hx)))

/-- Equal numbers of closed components mean one component, also once that of `v` is closed. -/
theorem Scanned.component_eq_iff_close {x y : ℕ} (hx : (t.close v).Closed x)
    (hy : (t.close v).Closed y) :
    (t.close v).component? x = (t.close v).component? y ↔ g.Joined x y := by
  have hlt : ∀ z, t.component? z ≠ some t.closed := fun z hz =>
    absurd (sc.inv.component_lt z _ hz) (lt_irrefl _)
  rw [sc.closed_close hst] at hx hy
  rw [sc.component?_close hst, sc.component?_close hst]
  by_cases hxa : x ∈ above ++ [v] <;> by_cases hya : y ∈ above ++ [v]
  · rw [if_pos hxa, if_pos hya]
    exact iff_of_true rfl
      ((sc.joined_above h hst hxa).symm.trans (sc.joined_above h hst hya))
  · rw [if_pos hxa, if_neg hya]
    exact iff_of_false (hlt y).symm fun j => hya (sc.mem_above_of_joined h hst hxa j)
  · rw [if_neg hxa, if_pos hya]
    exact iff_of_false (hlt x) fun j => hxa (sc.mem_above_of_joined h hst hya j.symm)
  · rw [if_neg hxa, if_neg hya]
    exact sc.inv.component_eq_iff x y (hx.resolve_left hxa) (hy.resolve_left hya)

theorem Scanned.inv_close (hv : v < g.size) (hn : ¬ s.Entered v) : Inv g path (t.close v) := by
  have hmem := mem_stack_iff_above hst
  have hclosed := sc.closed_close hst
  have hcomp := sc.component?_close hst
  have hstack : (t.close v).stack = s.stack := stack_close hst (sc.not_mem_above hst)
  have hbelow : ∀ {x}, x ∈ s.stack → x ∈ t.stack := fun hx => (hmem _).2 (.inr hx)
  refine
    { entry_size := sc.inv.entry_size
      component_size := size_component_close.trans sc.inv.component_size
      mem_stack := ?mem_stack
      entered_of_closed := ?entered_of_closed
      number_lt := sc.inv.number_lt
      sorted := ?sorted
      path_open := fun p hp => hstack ▸ h.path_open p hp
      entered_succ := fun a b ha hap e => sc.entered_succ ha hap e
      reaches_later := ?reaches_later
      reaches_path := ?reaches_path
      closed_succ := ?closed_succ
      component_eq_iff := fun x y => sc.component_eq_iff_close h hst
      component_lt := ?component_lt
      component_used := ?component_used }
  case mem_stack =>
    intro x
    rw [hstack, hclosed, not_or, entered_close]
    constructor
    · intro hx
      exact ⟨sc.inv.entered (hbelow hx), fun hxa => sc.not_mem_below hst hxa hx,
        sc.inv.not_closed (hbelow hx)⟩
    · rintro ⟨he, hxa, hc⟩
      exact ((hmem x).1 ((sc.inv.mem_stack x).2 ⟨he, hc⟩)).resolve_left hxa
  case entered_of_closed =>
    intro x hx
    rcases (hclosed x).1 hx with hx | hx
    · exact sc.inv.entered ((hmem x).2 (.inl hx))
    · exact sc.inv.entered_of_closed x hx
  case sorted =>
    rw [hstack]
    exact sc.inv.sorted.sublist (hst ▸ List.sublist_append_of_sublist_right
      (List.sublist_cons_self v s.stack))
  case reaches_later =>
    rw [hstack]
    exact fun a ha b hb hab => sc.inv.reaches_later a (hbelow ha) b (hbelow hb) hab
  case reaches_path =>
    rw [hstack]
    intro a ha
    obtain ⟨p, hp, hle, hr⟩ := sc.inv.reaches_path a (hbelow ha)
    rcases List.mem_cons.1 hp with rfl | hp
    · have hself := sc.number_self h hv
      have hnum := (sc.continues_start h hv hn).number (h.entered ha)
      have := h.number_lt a (h.entered ha)
      omega
    · exact ⟨p, hp, hle, hr⟩
  case closed_succ =>
    intro a b ha e
    rcases (hclosed a).1 ha with ha | ha
    · exact (hclosed b).2 (sc.edge_above h hst ha e)
    · exact (hclosed b).2 (.inr (sc.inv.closed_succ a b ha e))
  case component_lt =>
    intro x n hx
    show n < t.closed + 1
    rw [hcomp] at hx
    split_ifs at hx with hxa
    · rw [Option.some.injEq] at hx
      omega
    · have := sc.inv.component_lt x n hx
      omega
  case component_used =>
    intro n hlt
    rcases Nat.lt_succ_iff_lt_or_eq.1 hlt with hlt | rfl
    · obtain ⟨x, hx⟩ := sc.inv.component_used n hlt
      refine ⟨x, ?_⟩
      rw [hcomp, if_neg, hx]
      intro hxa
      exact sc.inv.not_closed ((hmem x).2 (.inl hxa)) (by simp [Closed, hx])
    · exact ⟨v, by rw [hcomp, if_pos (by simp)]⟩

end Close

/-- A node that reaches no open node below it closes its component. -/
theorem Scanned.leave_closed (sc : Scanned g path v s (g.successors v) s.next t)
    (h : Inv g path s) (hv : v < g.size) (hn : ¬ s.Entered v) :
    Visited g path v s s.next (t.close v) := by
  obtain ⟨above, hst⟩ := sc.continues.stack
  have hst : t.stack = above ++ v :: s.stack := hst.symm
  have c := sc.continues_start h hv hn
  have hstack : (t.close v).stack = s.stack := stack_close hst (sc.not_mem_above hst)
  refine
    { inv := sc.inv_close h hst hv hn
      continues :=
        { entry := c.entry
          component := fun x hx => ?_
          stack := hstack ▸ List.suffix_rfl
          next_le := c.next_le }
      entered := sc.entered h hv
      low_reached := .inl le_rfl
      low_le := fun x hx hxs => absurd (hstack ▸ hx) hxs }
  rw [sc.component?_close hst, if_neg, c.component x hx]
  intro hxa
  exact sc.inv.not_closed ((mem_stack_iff_above hst x).2 (.inl hxa)) (c.closed hx)

end Leave

end Search

end Graph

end TransferPlan
