import TransferPlan.Proofs.Graph.Search

/-!
# Components are the classes of mutual reachability

A walk from a node keeps the invariant of the search (`exists_visited`, by induction on the nodes
not yet entered).  After the search from every node all nodes are closed, so two nodes have one
number exactly when they reach each other (`components_getElem_eq_iff`), and no number is left out
(`components_number_classes`).
-/

namespace TransferPlan

namespace Graph

open Search

variable {g : Graph}

/-- The nodes that have not been entered. -/
def unentered (g : Graph) (s : Search) : Finset ℕ :=
  (Finset.range g.size).filter fun v => Option.isNone <| s.entry? v

theorem mem_unentered {s : Search} {v : ℕ} : v ∈ g.unentered s ↔ v < g.size ∧ ¬ s.Entered v := by
  simp [unentered, Entered]

theorem card_unentered_le {s t : Search} (c : Continues s t) :
    (g.unentered t).card ≤ (g.unentered s).card := by
  refine Finset.card_le_card fun v hv => ?_
  rw [mem_unentered] at hv ⊢
  exact ⟨hv.1, fun h => hv.2 (c.entered h)⟩

theorem card_unentered_enter_lt {path : List ℕ} {s : Search} {v : ℕ} (h : Inv g path s)
    (hv : v < g.size) (hn : ¬ s.Entered v) :
    (g.unentered (s.enter v)).card < (g.unentered s).card := by
  have hvs : v < s.entry.size := h.entry_size ▸ hv
  refine Finset.card_lt_card (Finset.ssubset_iff_subset_ne.2 ⟨fun w hw => ?_, fun heq => ?_⟩)
  · rw [mem_unentered, entered_enter hvs, not_or] at hw
    exact mem_unentered.2 ⟨hw.1, hw.2.2⟩
  · have hmem : v ∈ g.unentered (s.enter v) := heq ▸ mem_unentered.2 ⟨hv, hn⟩
    exact (mem_unentered.1 hmem).2 ((entered_enter hvs v).2 (.inl rfl))

/-! ## A walk from a node -/

namespace Walk

theorem finish_next {w : Walk} (h : w.frames ≠ []) : w.finish g = (w.next g).finish g := by
  rw [finish, if_neg h]

theorem finish_leave (v number low : ℕ) (frames : List Frame) (s : Search) :
    (Walk.mk (⟨v, number, [], low⟩ :: frames) s).finish g =
      (Walk.mk (passLow low frames) (if low = number then s.close v else s)).finish g :=
  finish_next (List.cons_ne_nil _ _)

@[simp] theorem finish_nil (s : Search) : (Walk.mk [] s).finish g = s := by
  rw [finish, if_pos rfl]

end Walk

section Visit

variable {path : List ℕ} {s : Search} {v : ℕ}

theorem getElem?_entry {t : Search} (h : Inv g path t) {w : ℕ} (hw : w < g.size) :
    t.entry[w]? = some ( t.entry? w) := by
  have hwt : w < t.entry.size := h.entry_size ▸ hw
  simp [hwt, Search.entry?]

/-- Looking at a successor that has been entered. -/
theorem Search.Scanned.look {seen : List ℕ} {t : Search} {w n low : ℕ}
    (sc : Scanned g path v s seen low t) (h : Inv g path s) (hv : v < g.size)
    (hn : ¬ s.Entered v) (e : g.Edge v w) (hw : t.entry? w = some n) :
    Scanned g path v s (seen ++ [w]) (if (t.component? w).isNone then min low n else low) t := by
  have c : Continues s t := (continues_enter h hv hn).trans sc.continues
  have hwe : t.Entered w := by simp [Entered, hw]
  have hnum : t.number w = n := by simp [number, hw]
  by_cases ho : (t.component? w).isNone
  · have hwo : w ∈ t.stack := (sc.inv.mem_stack w).2 ⟨hwe, by simpa [Closed] using ho⟩
    rw [if_pos ho]
    refine sc.look_entered hwe (min_le_left _ _) ?_ e fun hws => ?_
    · rcases min_choice low n with hm | hm
      · exact .inl hm
      · exact .inr ⟨hwo, hnum.trans hm.symm⟩
    · rw [← c.number (h.entered hws), hnum]
      exact min_le_right _ _
  · rw [if_neg ho]
    refine sc.look_entered hwe le_rfl (.inl rfl) e fun hws => ?_
    exact absurd (by simpa [Closed, Option.isSome_iff_ne_none] using ho)
      (sc.inv.not_closed (c.mem_stack hws))

/-- A walk that enters `v` comes back to the nodes around `v` when it has visited `v`. -/
def Visits (g : Graph) (path : List ℕ) (s : Search) (v : ℕ) : Prop :=
  ∀ frames : List Frame, ∃ low t, Visited g path v s low t ∧
    (Walk.enter g v frames s).finish g = (Walk.mk (Walk.passLow low frames) t).finish g

/-- The successors that are left are looked at in turn, when the walks from them are visits. -/
theorem exists_scanned (h : Inv g path s) (hv : v < g.size) (hn : ¬ s.Entered v)
    (hp : ∀ p ∈ path, g.Reaches p v)
    (visits : ∀ t w, Continues (s.enter v) t → Inv g (v :: path) t → w < g.size → ¬ t.Entered w →
      (∀ p ∈ v :: path, g.Reaches p w) → Visits g (v :: path) t w) (frames : List Frame) :
    ∀ (rest seen : List ℕ) (low : ℕ) (t : Search), (∀ w ∈ rest, g.Edge v w) →
      Scanned g path v s seen low t → ∃ low' t', Scanned g path v s (seen ++ rest) low' t' ∧
        (Walk.mk (⟨v, s.next, rest, low⟩ :: frames) t).finish g =
          (Walk.mk (⟨v, s.next, [], low'⟩ :: frames) t').finish g
  | [], seen, low, t, _, sc => ⟨low, t, by simpa using sc, rfl⟩
  | w :: rest, seen, low, t, he, sc => by
      have e := he w List.mem_cons_self
      have hrest : ∀ x ∈ rest, g.Edge v x := fun x hx => he x (List.mem_cons_of_mem _ hx)
      have hentry := getElem?_entry sc.inv e.lt
      rw [Walk.finish_next (List.cons_ne_nil _ _), Walk.next, hentry, List.append_cons]
      cases hw : t.entry? w with
      | none =>
          have hwn : ¬ t.Entered w := by simp [Entered, hw]
          have hpw : ∀ p ∈ v :: path, g.Reaches p w := fun p hpv => by
            rcases List.mem_cons.1 hpv with rfl | hpp
            · exact .single e
            · exact (hp p hpp).tail e
          obtain ⟨lowest, u, vis, hu⟩ :=
            visits t w sc.continues sc.inv e.lt hwn hpw (⟨v, s.next, rest, low⟩ :: frames)
          obtain ⟨low', t', sc', ht'⟩ := exists_scanned h hv hn hp visits frames rest _ _ u hrest
            (sc.look_visited h hv hn hwn e vis)
          exact ⟨low', t', sc', hu.trans ht'⟩
      | some n =>
          exact exists_scanned h hv hn hp visits frames rest _ _ t hrest (sc.look h hv hn e hw)

/-- A walk from a node that has not been entered visits it. -/
theorem visits_of_card_le :
    ∀ (n : ℕ) {path : List ℕ} {v : ℕ} {s : Search}, Inv g path s → v < g.size →
      ¬ s.Entered v → (∀ p ∈ path, g.Reaches p v) → (g.unentered s).card ≤ n → Visits g path s v
  | 0, _, v, s, _, hv, hn, _, hcard => by
      have hpos := Finset.card_pos.2 ⟨v, mem_unentered.2 ⟨hv, hn⟩⟩
      omega
  | n + 1, path, v, s, h, hv, hn, hp, hcard => by
      intro frames
      have hlt := card_unentered_enter_lt h hv hn
      obtain ⟨low, t, sc, ht⟩ := exists_scanned h hv hn hp
        (fun t w c ht hw htn hpw => visits_of_card_le n ht hw htn hpw
          ((card_unentered_le c).trans (by omega)))
        frames (g.successors v) [] s.next (s.enter v) (fun w hw => hw) (scanned_enter h hv hn hp)
      rw [List.nil_append] at sc
      have hleave := ht.trans (Walk.finish_leave v s.next low frames t)
      by_cases hlow : low = s.next
      · subst hlow
        rw [if_pos rfl] at hleave
        exact ⟨_, _, sc.leave_closed h hv hn, hleave⟩
      · rw [if_neg hlow] at hleave
        exact ⟨low, t, sc.leave_open h hv hn hlow, hleave⟩

theorem exists_visited (h : Inv g [] s) (hv : v < g.size) (hn : ¬ s.Entered v) :
    ∃ low, Visited g [] v s low ((Walk.enter g v [] s).finish g) := by
  obtain ⟨low, t, vis, ht⟩ := visits_of_card_le _ h hv hn (by simp) le_rfl []
  rw [Walk.passLow, Walk.finish_nil] at ht
  exact ⟨low, ht ▸ vis⟩

end Visit

/-! ## The whole search -/

theorem inv_visitRoot {s : Search} (h : Inv g [] s) {v : ℕ} (hv : v < g.size) :
    Inv g [] (g.visitRoot s v) ∧ Continues s (g.visitRoot s v) ∧ (g.visitRoot s v).Entered v := by
  unfold visitRoot
  cases hs : s.entry? v with
  | none =>
      have hn : ¬ s.Entered v := by simp [Entered, hs]
      obtain ⟨low, vis⟩ := exists_visited h hv hn
      exact ⟨vis.inv, vis.continues, vis.entered⟩
  | some n => exact ⟨h, .refl s, by simp [Entered, hs]⟩

/-- Between two roots no node is open, and the roots so far are entered. -/
theorem inv_foldl_visitRoot :
    ∀ (vs : List ℕ) {s : Search}, (∀ v ∈ vs, v < g.size) → Inv g [] s →
      Inv g [] (vs.foldl g.visitRoot s) ∧ Continues s (vs.foldl g.visitRoot s) ∧
        ∀ v ∈ vs, (vs.foldl g.visitRoot s).Entered v
  | [], s, _, h => ⟨h, .refl s, fun v hv => absurd hv List.not_mem_nil⟩
  | v :: vs, s, hvs, h => by
      obtain ⟨h₁, c₁, e₁⟩ := inv_visitRoot h (hvs v List.mem_cons_self)
      obtain ⟨h₂, c₂, e₂⟩ :=
        inv_foldl_visitRoot vs (fun w hw => hvs w (List.mem_cons_of_mem _ hw)) h₁
      refine ⟨h₂, c₁.trans c₂, fun w hw => ?_⟩
      rcases List.mem_cons.1 hw with rfl | hw
      · exact c₂.entered e₁
      · exact e₂ w hw

theorem inv_search (g : Graph) : Inv g [] g.search :=
  (inv_foldl_visitRoot _ (fun _ hv => List.mem_range.1 hv) (inv_start g)).1

theorem closed_search {v : ℕ} (hv : v < g.size) : g.search.Closed v :=
  (inv_search g).closed_of_entered
    ((inv_foldl_visitRoot _ (fun _ hv => List.mem_range.1 hv) (inv_start g)).2.2 v
      (List.mem_range.2 hv))

@[simp] theorem length_components (g : Graph) : g.components.length = g.size := by
  simp [components]

theorem getElem_components {v : ℕ} (hv : v < g.components.length) :
    some g.components[v] = g.search.component? v := by
  rw [length_components] at hv
  obtain ⟨n, hn⟩ := Option.isSome_iff_exists.1 (closed_search hv)
  simp [components, hn]

/-- Two nodes have one component exactly when they reach each other. -/
theorem components_getElem_eq_iff {v w : ℕ} (hv : v < g.components.length)
    (hw : w < g.components.length) : g.components[v] = g.components[w] ↔ g.Joined v w := by
  rw [← Option.some_inj, getElem_components hv, getElem_components hw]
  rw [length_components] at hv hw
  exact (inv_search g).component_eq_iff v w (closed_search hv) (closed_search hw)

/-! ## The numbering -/

/-- Every listed successor is a node. -/
def InRange (g : Graph) : Prop := ∀ v < g.size, ∀ w ∈ g.getD v [], w < g.size

/-- There is a path, possibly empty, along the listed successors. -/
def Leads (g : Graph) : ℕ → ℕ → Prop := Relation.ReflTransGen fun v w => w ∈ g.getD v []

theorem InRange.edge_iff (h : g.InRange) {v w : ℕ} : g.Edge v w ↔ w ∈ g.getD v [] := by
  unfold Edge successors
  rw [List.mem_filter, decide_eq_true_eq, and_iff_left_iff_imp]
  intro hw
  by_cases hv : v < g.size
  · exact h v hv w hw
  · simp [hv] at hw

theorem InRange.reaches_iff (h : g.InRange) {v w : ℕ} : g.Reaches v w ↔ g.Leads v w := by
  have hedge : g.Edge = fun v w => w ∈ g.getD v [] := funext₂ fun _ _ => propext h.edge_iff
  rw [Reaches, Leads, hedge]

theorem InRange.joined_iff (h : g.InRange) {v w : ℕ} :
    g.Joined v w ↔ g.Leads v w ∧ g.Leads w v :=
  and_congr h.reaches_iff h.reaches_iff

/-- The state after the search from the first nodes. -/
def searchFirst (g : Graph) (k : ℕ) : Search :=
  (List.range k).foldl g.visitRoot (Search.start g.size)

/-- Between two roots no node is open. -/
theorem stack_searchFirst {k : ℕ} (hk : k ≤ g.size) : (g.searchFirst k).stack = [] :=
  (inv_foldl_visitRoot _ (fun _ hv => (List.mem_range.1 hv).trans_le hk)
    (inv_start g)).1.stack_eq_nil

/-- The numbers given are those below the number of components. -/
theorem mem_components_iff {n : ℕ} : n ∈ g.components ↔ n < g.search.closed := by
  constructor
  · intro h
    obtain ⟨v, hv, rfl⟩ := List.getElem_of_mem h
    exact (inv_search g).component_lt v _ (getElem_components hv).symm
  · intro h
    obtain ⟨v, hv⟩ := (inv_search g).component_used n h
    have hclosed : g.search.Closed v := by simp [Closed, hv]
    have hlt : v < g.components.length := by
      rw [length_components]
      exact (inv_search g).lt_size ((inv_search g).entered_of_closed v hclosed)
    obtain rfl := Option.some.inj ((getElem_components hlt).trans hv)
    exact List.getElem_mem hlt

/-- A walk is over after as many steps as it has before it. -/
theorem iterate_next_work :
    ∀ (n : ℕ) {w : Walk}, w.work g = n → (Walk.next g)^[n] w = ⟨[], w.finish g⟩
  | n, ⟨[], s⟩, _ => by
      have hs : Walk.next g ⟨[], s⟩ = ⟨[], s⟩ := rfl
      rw [Function.iterate_fixed hs, Walk.finish_nil]
  | n, ⟨f :: frames, s⟩, hn => by
      have hwork := Walk.work_next g (w := ⟨f :: frames, s⟩) (List.cons_ne_nil f frames)
      obtain ⟨m, rfl⟩ : ∃ m, n = m + 1 := ⟨_, (hwork.trans hn).symm⟩
      rw [Function.iterate_succ_apply, Walk.finish_next (List.cons_ne_nil f frames)]
      exact iterate_next_work m (by omega)

/-- What the numbers of the components say, and that the search for them ends. -/
structure NumbersClasses (g : Graph) : Prop where
  /-- A walk is over after as many steps as it has before it. -/
  ends : ∀ w : Walk, (Walk.next g)^[w.work g] w = ⟨[], w.finish g⟩
  /-- No node is open when the walk from a root is over. -/
  stack_eq_nil : ∀ k ≤ g.size, (g.searchFirst k).stack = []
  length_eq : g.components.length = g.size
  /-- Every node is given its number by the search. -/
  component_eq : ∀ v (hv : v < g.components.length),
    g.search.component? v = some g.components[v]
  mem_iff : ∃ k, ∀ n, n ∈ g.components ↔ n < k
  eq_iff : ∀ v w (hv : v < g.components.length) (hw : w < g.components.length),
    g.components[v] = g.components[w] ↔ g.Leads v w ∧ g.Leads w v

/-- Two nodes have one number exactly when each leads to the other, and the numbers are those from
zero on, without a gap. -/
theorem components_number_classes (h : g.InRange) : g.NumbersClasses where
  ends _ := iterate_next_work _ rfl
  stack_eq_nil _ hk := stack_searchFirst hk
  length_eq := length_components g
  component_eq _ hv := (getElem_components hv).symm
  mem_iff := ⟨g.search.closed, fun _ => mem_components_iff⟩
  eq_iff _ _ hv hw := (components_getElem_eq_iff hv hw).trans h.joined_iff

/-- Two nodes in a circle, one of them with its successor listed twice, and a node that leads to
itself. -/
theorem components_number_classes_circle :
    let g : Graph := #[[1, 1], [0, 2], [2]]
    g.InRange ∧ g.components = [1, 1, 0] ∧ g.NumbersClasses := by
  intro g
  have h : g.InRange := by
    unfold InRange
    decide
  exact ⟨h, by decide +kernel, components_number_classes h⟩

end Graph

end TransferPlan
