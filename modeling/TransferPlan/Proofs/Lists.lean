import Mathlib.Data.List.Forall2
import Mathlib.Data.List.Induction
import Mathlib.Data.List.Nodup

/-!
# Lists without repetition, and lists of results

Facts about lists that the theory of passes needs and the library does not have.
-/

namespace TransferPlan

variable {α β ε : Type}

theorem nodup_eraseDups [BEq α] [LawfulBEq α] : ∀ l : List α, l.eraseDups.Nodup
  | [] => by simp
  | a :: l => by
      rw [List.eraseDups_cons, List.nodup_cons, List.mem_eraseDups]
      exact ⟨by simp, nodup_eraseDups _⟩
termination_by l => l.length
decreasing_by
  have := List.length_filter_le (fun b => !b == a) l
  simp only [List.length_cons]
  omega

theorem eraseDups_eq_self [BEq α] [LawfulBEq α] {l : List α} (h : l.Nodup) : l.eraseDups = l := by
  induction l with
  | nil => rfl
  | cons a l ih =>
      obtain ⟨ha, hl⟩ := List.nodup_cons.1 h
      have hf : l.filter (fun b => !b == a) = l :=
        List.filter_eq_self.2 fun b hb => by simpa using fun e : b = a => ha (e ▸ hb)
      rw [List.eraseDups_cons, hf, ih hl]

/-- Places of a list are not repeated. -/
theorem nodup_filter_zipIdx (l : List α) (f : α × ℕ → Bool) :
    ((l.zipIdx.filter f).map Prod.snd).Nodup := by
  have hsnd : (l.zipIdx.map Prod.snd).Nodup := by
    rw [List.zipIdx_map_snd]
    exact List.nodup_range'
  exact hsnd.sublist (List.filter_sublist.map _)

/-- The places of a list, taken in turn, give its items. -/
theorem filterMap_range_getElem? (l : List α) : (List.range l.length).filterMap (l[·]?) = l := by
  induction l with
  | nil => rfl
  | cons a l ih =>
      rw [List.length_cons, List.range_succ_eq_map,
        List.filterMap_cons_some (f := ((a :: l)[·]?)) rfl, List.filterMap_map]
      exact congrArg (a :: ·) ih

/-- One more item comes in at the end unless it is there. -/
theorem eraseDups_concat [BEq α] [LawfulBEq α] (l : List α) (a : α) :
    (l ++ [a]).eraseDups = if a ∈ l then l.eraseDups else l.eraseDups ++ [a] := by
  rw [List.eraseDups_append, List.removeAll, List.filter_cons, List.elem_eq_contains]
  by_cases ha : a ∈ l
  · simp [ha]
  · simp [ha, List.eraseDups_cons]

theorem eraseDups_sublist [BEq α] [LawfulBEq α] (l : List α) : l.eraseDups.Sublist l := by
  induction l using List.reverseRecOn with
  | nil => exact List.Sublist.refl _
  | append_singleton l a ih =>
      rw [eraseDups_concat]
      split_ifs
      · exact ih.trans (List.sublist_append_left l [a])
      · exact ih.append (List.Sublist.refl [a])

/-- What is repeated within the first part goes anyway. -/
theorem eraseDups_eraseDups_append [BEq α] [LawfulBEq α] (l l' : List α) :
    (l.eraseDups ++ l').eraseDups = (l ++ l').eraseDups := by
  have hrest : l'.removeAll l.eraseDups = l'.removeAll l :=
    List.filter_congr fun a _ => by simp
  rw [List.eraseDups_append, List.eraseDups_append, eraseDups_eq_self (nodup_eraseDups l), hrest]

/-- Parts that are joined one by one, each time without repetition. -/
theorem foldl_eraseDups_append [BEq β] [LawfulBEq β] (g : α → List β) (l : List α) (v : List β) :
    l.foldl (fun v a => (v ++ g a).eraseDups) v.eraseDups = (v ++ l.flatMap g).eraseDups := by
  induction l generalizing v with
  | nil => simp
  | cons a l ih =>
      rw [List.foldl_cons, eraseDups_eraseDups_append, ih, List.flatMap_cons, List.append_assoc]

/-- Keys come in the order of the first items that have them. -/
theorem pairwise_eraseDups_map [BEq β] [LawfulBEq β] {l : List α} {key : α → β} {r : α → α → Prop}
    (h : l.Pairwise r) :
    (l.map key).eraseDups.Pairwise fun x y => ∀ b ∈ l, key b = y → ∃ a ∈ l, key a = x ∧ r a b := by
  induction l using List.reverseRecOn with
  | nil => simp
  | append_singleton l c ih =>
      obtain ⟨hl, -, hc⟩ := List.pairwise_append.1 h
      have hlast : ∀ {x y}, x ∈ (l.map key).eraseDups →
          (∀ b ∈ l, key b = y → ∃ a ∈ l, key a = x ∧ r a b) →
            ∀ b ∈ l ++ [c], key b = y → ∃ a ∈ l ++ [c], key a = x ∧ r a b := by
        intro x y hx hxy b hb hby
        rcases List.mem_append.1 hb with hb | hb
        · obtain ⟨a, ha, hax⟩ := hxy b hb hby
          exact ⟨a, List.mem_append_left _ ha, hax⟩
        · obtain ⟨a, ha, rfl⟩ := List.mem_map.1 (List.mem_eraseDups.1 hx)
          exact ⟨a, List.mem_append_left _ ha, rfl, hc a ha b hb⟩
      have hold := (ih hl).imp_of_mem fun hx _ hxy => hlast hx hxy
      rw [List.map_append, List.map_singleton, eraseDups_concat]
      split_ifs with hmem
      · exact hold
      · refine List.pairwise_append.2 ⟨hold, List.pairwise_singleton _ _, fun x hx y hy => ?_⟩
        rw [List.mem_singleton.1 hy]
        exact hlast hx fun b hb hbc => absurd (hbc ▸ List.mem_map_of_mem hb) hmem

/-- The only item that passes the test is what the filter keeps. -/
theorem filter_eq_singleton {l : List α} {p : α → Bool} {a : α} (hl : l.Nodup) (ha : a ∈ l)
    (hp : p a = true) (h : ∀ b ∈ l, p b = true → b = a) : l.filter p = [a] := by
  refine List.perm_singleton.1 ((List.perm_ext_iff_of_nodup (hl.filter p) (by simp)).2 fun b => ?_)
  rw [List.mem_filter, List.mem_singleton]
  constructor
  · rintro ⟨hb, hpb⟩
    exact h b hb hpb
  · rintro rfl
    exact ⟨ha, hp⟩

/-- Of two items of a list one stands in front of the other. -/
theorem pair_sublist_or {l : List α} {a b : α} (ha : a ∈ l) (hb : b ∈ l) (hab : a ≠ b) :
    [a, b].Sublist l ∨ [b, a].Sublist l := by
  obtain ⟨front, back, rfl⟩ := List.append_of_mem ha
  rcases List.mem_append.1 hb with hf | hb
  · exact .inr ((List.singleton_sublist.2 hf).append (List.singleton_sublist.2 List.mem_cons_self))
  · have hback : b ∈ back := (List.mem_cons.1 hb).resolve_left (Ne.symm hab)
    exact .inl (((List.singleton_sublist.2 hback).cons_cons a).trans
      (List.sublist_append_right front _))

/-- An item that comes earlier has a smaller position. -/
theorem pairwise_idxOf_lt [BEq α] [LawfulBEq α] {l : List α} (h : l.Nodup) :
    l.Pairwise fun a b => l.idxOf a < l.idxOf b := by
  refine List.pairwise_iff_getElem.2 fun i k hi hk hik => ?_
  rwa [h.idxOf_getElem, h.idxOf_getElem]

/-- Each item of the second list corresponds to one of the first. -/
theorem exists_of_mem_right {r : α → β → Prop} {l : List α} {l' : List β}
    (h : List.Forall₂ r l l') {b : β} (hb : b ∈ l') : ∃ a ∈ l, r a b := by
  induction h with
  | nil => exact absurd hb List.not_mem_nil
  | cons hab _ ih =>
      rcases List.mem_cons.1 hb with rfl | hb
      · exact ⟨_, List.mem_cons_self, hab⟩
      · obtain ⟨a, ha, hab⟩ := ih hb
        exact ⟨a, List.mem_cons_of_mem _ ha, hab⟩

theorem flatMap_filter_eq (p : α → Bool) (f : α → List β) (l : List α) :
    (l.filter p).flatMap f = l.flatMap fun a => if p a then f a else [] := by
  induction l with
  | nil => rfl
  | cons a l ih => by_cases ha : p a <;> simp [ha, ih]

theorem findSome?_congr {f g : α → Option β} {l : List α} (h : ∀ a ∈ l, f a = g a) :
    l.findSome? f = l.findSome? g := by
  induction l with
  | nil => rfl
  | cons a l ih =>
      rw [List.findSome?_cons, List.findSome?_cons, h a List.mem_cons_self,
        ih fun b hb => h b (List.mem_cons_of_mem _ hb)]

/-- What a fold adds item by item to a list that is read off its state. -/
theorem foldl_view {σ : Type} (view : σ → List β) {f : σ → α → σ} {g : α → List β}
    (h : ∀ s a, view (f s a) = view s ++ g a) (l : List α) (s : σ) :
    view (l.foldl f s) = view s ++ l.flatMap g := by
  induction l generalizing s with
  | nil => exact (List.append_nil _).symm
  | cons a l ih => rw [List.foldl_cons, ih, h, List.flatMap_cons, List.append_assoc]

/-- What a fold does to a view of its state that only some of the items change. -/
theorem foldl_view_of_filter {σ τ : Type} (view : σ → τ) {f : σ → α → σ} {g : τ → α → τ}
    {p : α → Prop} [DecidablePred p]
    (h : ∀ s a, view (f s a) = if p a then g (view s) a else view s) (l : List α) (s : σ) :
    view (l.foldl f s) = (l.filter p).foldl g (view s) := by
  simp only [List.foldl_filter, decide_eq_true_eq]
  exact (List.foldl_hom view fun s a => (h s a).symm).symm

/-! ## Cutting at a separator -/

section SplitOn

variable [BEq α]

/-- There is one part more than there are separators. -/
theorem length_splitOn (a : α) (l : List α) : (l.splitOn a).length = l.count a + 1 := by
  induction l with
  | nil => rfl
  | cons b l ih =>
      rw [List.splitOn, List.splitOnP_cons_eq_if_modifyHead, List.count_cons]
      split_ifs <;> simpa [List.splitOn] using ih

variable [LawfulBEq α]

theorem splitOn_append_cons (a : α) (l l' : List α) :
    (l ++ a :: l').splitOn a = l.splitOn a ++ l'.splitOn a :=
  List.splitOnP_append_cons l l' (beq_self_eq_true a)

/-- A list is known by the parts between the separators. -/
theorem splitOn_inj {a : α} {l l' : List α} : l.splitOn a = l'.splitOn a ↔ l = l' := by
  refine ⟨fun h => ?_, fun h => h ▸ rfl⟩
  calc l = [a].intercalate (l.splitOn a) := (List.intercalate_splitOn a).symm
    _ = [a].intercalate (l'.splitOn a) := by rw [h]
    _ = l' := List.intercalate_splitOn a

theorem not_mem_of_mem_splitOn {a : α} {l part : List α} (h : part ∈ l.splitOn a) : a ∉ part := by
  by_cases ha : a ∈ l
  · obtain ⟨front, back, hl, hfront⟩ := List.eq_append_cons_of_mem ha
    have hback : back.length < l.length := by
      rw [hl, List.length_append, List.length_cons]
      omega
    rw [hl, List.splitOn_append_cons_self_of_not_mem hfront] at h
    rcases List.mem_cons.1 h with rfl | h
    · exact hfront
    · exact not_mem_of_mem_splitOn h
  · rw [List.splitOn_eq_singleton ha, List.mem_singleton] at h
    exact h ▸ ha
termination_by l.length

end SplitOn

/-! ## Items known by a key -/

section Key

variable {l l' : List α} {key : α → String} {k : String} {a : α}

theorem find?_key_eq_some_iff (hl : (l.map key).Nodup) :
    l.find? (key · == k) = some a ↔ a ∈ l ∧ key a = k := by
  constructor
  · exact fun h => ⟨List.mem_of_find?_eq_some h, by simpa using List.find?_some h⟩
  · rintro ⟨ha, rfl⟩
    cases h : l.find? (key · == key a) with
    | none => simpa using List.find?_eq_none.1 h a ha
    | some b =>
        have hb : key b = key a := by simpa using List.find?_some h
        rw [List.inj_on_of_nodup_map hl (List.mem_of_find?_eq_some h) ha hb]

/-- What is found under a key does not depend on the order of the items. -/
theorem find?_key_eq_of_perm (hl : (l.map key).Nodup) (h : l.Perm l') :
    l.find? (key · == k) = l'.find? (key · == k) := by
  ext a
  rw [find?_key_eq_some_iff hl, find?_key_eq_some_iff ((h.map key).nodup_iff.1 hl), h.mem_iff]

end Key

/-! ## Shares

Each item of a list contributes a share, and what it contributes bears the key of the item. -/

section Share

variable {l : List α} {f : α → List β} {key : β → String} {col : α → String}

/-- What bears a key comes from the items with that key. -/
theorem filter_flatMap_eq (hf : ∀ a ∈ l, ∀ b ∈ f a, key b = col a) (k : String) :
    (l.flatMap f).filter (key · == k) = (l.filter (col · == k)).flatMap f := by
  induction l with
  | nil => rfl
  | cons x l ih =>
      have hl := ih fun a ha => hf a (List.mem_cons_of_mem _ ha)
      have hx := hf x List.mem_cons_self
      rw [List.flatMap_cons, List.filter_append, hl]
      by_cases hk : col x = k
      · have hown : (f x).filter (key · == k) = f x :=
          List.filter_eq_self.2 fun b hb => beq_iff_eq.2 ((hx b hb).trans hk)
        rw [hown, List.filter_cons, if_pos (beq_iff_eq.2 hk), List.flatMap_cons]
      · have hother : (f x).filter (key · == k) = [] :=
          List.filter_eq_nil_iff.2 fun b hb hbk => hk ((hx b hb).symm.trans (eq_of_beq hbk))
        rw [hother, List.nil_append, List.filter_cons, if_neg fun h => hk (eq_of_beq h)]

/-- The share of an item is what bears its key. -/
theorem filter_flatMap_key (hf : ∀ a ∈ l, ∀ b ∈ f a, key b = col a) (hl : (l.map col).Nodup) {a : α}
    (ha : a ∈ l) : (l.flatMap f).filter (key · == col a) = f a := by
  have hone : l.filter (col · == col a) = [a] :=
    filter_eq_singleton hl.of_map ha (beq_self_eq_true _) fun b hb hba =>
      List.inj_on_of_nodup_map hl hb ha (eq_of_beq hba)
  rw [filter_flatMap_eq hf, hone, List.flatMap_singleton]

theorem mem_map_of_mem_flatMap (hf : ∀ a ∈ l, ∀ b ∈ f a, key b = col a) {b : β}
    (hb : b ∈ l.flatMap f) : key b ∈ l.map col := by
  obtain ⟨a, ha, hb⟩ := List.mem_flatMap.1 hb
  exact hf a ha b hb ▸ List.mem_map_of_mem ha

/-- Shares of one item at most come in the order of the keys. -/
theorem map_flatMap_sublist (hf : ∀ a ∈ l, ∀ b ∈ f a, key b = col a)
    (hone : ∀ a ∈ l, (f a).length ≤ 1) : ((l.flatMap f).map key).Sublist (l.map col) := by
  induction l with
  | nil => exact List.Sublist.refl _
  | cons x l ih =>
      have hl := ih (fun a ha => hf a (List.mem_cons_of_mem _ ha))
        fun a ha => hone a (List.mem_cons_of_mem _ ha)
      rw [List.flatMap_cons, List.map_append, List.map_cons]
      match hfx : f x with
      | [] => exact hl.trans (List.sublist_cons_self _ _)
      | [b] =>
          rw [List.map_singleton, hf x List.mem_cons_self b (by simp [hfx])]
          exact hl.cons_cons _
      | _ :: _ :: _ =>
          have := hone x List.mem_cons_self
          simp [hfx] at this

/-- Shares come in the order of the keys. -/
theorem pairwise_flatMap_key {r : String → String → Prop} (hf : ∀ a ∈ l, ∀ b ∈ f a, key b = col a)
    (hr : ∀ k, r k k) (hl : (l.map col).Pairwise r) :
    ((l.flatMap f).map key).Pairwise r := by
  rw [List.map_flatMap, List.pairwise_flatMap]
  constructor
  · intro a ha
    refine List.pairwise_map.2 (List.pairwise_of_forall_mem_list fun b hb c hc => ?_)
    rw [hf a ha b hb, hf a ha c hc]
    exact hr _
  · refine (List.pairwise_map.1 hl).imp_of_mem fun {a b} ha hb hab x hx y hy => ?_
    obtain ⟨x, hxa, rfl⟩ := List.mem_map.1 hx
    obtain ⟨y, hyb, rfl⟩ := List.mem_map.1 hy
    rwa [hf a ha x hxa, hf b hb y hyb]

end Share

/-! ## Results -/

theorem bind_eq_ok_iff {x : Except ε α} {f : α → Except ε β} {b : β} :
    (x >>= f) = .ok b ↔ ∃ a, x = .ok a ∧ f a = .ok b := by
  cases x <;> simp [bind, Except.bind]

theorem map_eq_ok_iff {x : Except ε α} {f : α → β} {b : β} :
    x.map f = .ok b ↔ ∃ a, x = .ok a ∧ f a = b := by
  cases x <;> simp [Except.map]

theorem mapError_eq_ok_iff {δ : Type} {x : Except ε α} {f : ε → δ} {a : α} :
    x.mapError f = .ok a ↔ x = .ok a := by
  cases x <;> simp [Except.mapError]

theorem toOption_eq_some_iff {x : Except ε α} {a : α} : x.toOption = some a ↔ x = .ok a := by
  cases x <;> simp [Except.toOption]

theorem bind_eq_error_iff {x : Except ε α} {f : α → Except ε β} {e : ε} :
    (x >>= f) = .error e ↔ x = .error e ∨ ∃ a, x = .ok a ∧ f a = .error e := by
  cases x <;> simp [bind, Except.bind]

theorem mapError_eq_error_iff {δ : Type} {x : Except ε α} {f : ε → δ} {e : δ} :
    x.mapError f = .error e ↔ ∃ e', x = .error e' ∧ f e' = e := by
  cases x <;> simp [Except.mapError]

theorem mapError_ne_error {δ : Type} {x : Except ε α} {f : ε → δ} {e : δ} (hf : ∀ e', f e' ≠ e) :
    x.mapError f ≠ .error e := fun h =>
  have ⟨e', _, he⟩ := mapError_eq_error_iff.1 h
  hf e' he

/-- The error of a list of results is that of one of them. -/
theorem exists_of_mapM_eq_error {f : α → Except ε β} {e : ε} {l : List α}
    (h : l.mapM f = .error e) : ∃ a ∈ l, f a = .error e := by
  induction l with
  | nil => exact nomatch h
  | cons a l ih =>
      rw [List.mapM_cons] at h
      rcases bind_eq_error_iff.1 h with ha | ⟨b, -, h⟩
      · exact ⟨a, List.mem_cons_self, ha⟩
      · rcases bind_eq_error_iff.1 h with hl | ⟨bs, -, h⟩
        · obtain ⟨a', ha', hf⟩ := ih hl
          exact ⟨a', List.mem_cons_of_mem _ ha', hf⟩
        · exact nomatch h

/-- A list of results has a value exactly when each of them has. -/
theorem mapM_eq_ok_iff {f : α → Except ε β} :
    ∀ {l : List α} {bs : List β},
      l.mapM f = .ok bs ↔ List.Forall₂ (fun a b => f a = .ok b) l bs
  | [], bs => by
      rw [List.mapM_nil, List.forall₂_nil_left_iff]
      exact ⟨fun h => (Except.ok.inj h).symm, fun h => h ▸ rfl⟩
  | a :: l, bs => by
      rw [List.mapM_cons, List.forall₂_cons_left_iff]
      cases hf : f a with
      | error e =>
          refine iff_of_false (fun h => ?_) ?_
          · exact nomatch h
          · rintro ⟨b, -, hb, -⟩
            exact nomatch hb
      | ok b =>
          cases hl : l.mapM f with
          | error e =>
              refine iff_of_false (fun h => ?_) ?_
              · exact nomatch h
              · rintro ⟨-, bs', -, hbs, -⟩
                exact nomatch hl.symm.trans (mapM_eq_ok_iff.2 hbs)
          | ok bs' =>
              constructor
              · intro h
                exact ⟨b, bs', rfl, mapM_eq_ok_iff.1 hl, (Except.ok.inj h).symm⟩
              · rintro ⟨b', bs'', hb, hbs, rfl⟩
                obtain rfl := Except.ok.inj hb
                obtain rfl := Except.ok.inj (hl.symm.trans (mapM_eq_ok_iff.2 hbs))
                rfl

/-- A fold whose steps all succeed is a plain one. -/
theorem foldlM_eq_pure {m : Type → Type} [Monad m] [LawfulMonad m] {σ : Type} {f : σ → α → m σ}
    {g : σ → α → σ} {l : List α} (h : ∀ a ∈ l, ∀ s, f s a = pure (g s a)) (s : σ) :
    l.foldlM f s = pure (l.foldl g s) := by
  induction l generalizing s with
  | nil => rfl
  | cons a l ih =>
      rw [List.foldlM_cons, h a List.mem_cons_self, pure_bind,
        ih fun b hb => h b (List.mem_cons_of_mem _ hb)]
      rfl

/-- Which of the items that a fold passes over are in the list makes no difference. -/
theorem foldlM_filter_congr {m : Type → Type} [Monad m] [LawfulMonad m] {σ : Type} {f : σ → α → m σ}
    {p q : α → Bool} {l : List α} (h : ∀ a ∈ l, p a = q a ∨ ∀ s, f s a = pure s) (s : σ) :
    (l.filter p).foldlM f s = (l.filter q).foldlM f s := by
  induction l generalizing s with
  | nil => rfl
  | cons a l ih =>
      have ih := ih fun b hb => h b (List.mem_cons_of_mem _ hb)
      rcases h a List.mem_cons_self with hpq | hpass
      · rw [List.filter_cons, List.filter_cons, hpq]
        split
        · rw [List.foldlM_cons, List.foldlM_cons]
          exact bind_congr ih
        · exact ih s
      · have hskip : ∀ r : α → Bool,
            ((a :: l).filter r).foldlM f s = (l.filter r).foldlM f s := by
          intro r
          rw [List.filter_cons]
          split
          · rw [List.foldlM_cons, hpass, pure_bind]
          · rfl
        rw [hskip p, hskip q, ih]

theorem foldlM_congr {m : Type → Type} [Monad m] {σ : Type} {f : σ → α → m σ}
    {r : α → α → Prop} (hf : ∀ {a b}, r a b → ∀ s, f s a = f s b) {l l' : List α}
    (h : List.Forall₂ r l l') (s : σ) : l.foldlM f s = l'.foldlM f s := by
  induction h generalizing s with
  | nil => rfl
  | cons hab _ ih =>
      rw [List.foldlM_cons, List.foldlM_cons, hf hab]
      exact bind_congr ih

theorem mapM_forall₂_congr {m : Type → Type} [Monad m] [LawfulMonad m] {γ : Type} {f : α → m γ}
    {g : β → m γ} {l : List α} {l' : List β} (h : List.Forall₂ (fun a b => f a = g b) l l') :
    l.mapM f = l'.mapM g := by
  induction h with
  | nil => rfl
  | cons hab _ ih => rw [List.mapM_cons, List.mapM_cons, hab, ih]

theorem mapM_congr {m : Type → Type} [Monad m] [LawfulMonad m] {f g : α → m β} {l : List α}
    (h : ∀ a ∈ l, f a = g a) : l.mapM f = l.mapM g :=
  mapM_forall₂_congr (List.forall₂_same.2 h)

/-- The results for the parts of each item are those for the pairs of an item and a part. -/
theorem mapM_flatMap_eq {m : Type → Type} [Monad m] [LawfulMonad m] {γ : Type} (f : α → β → m γ)
    (g : α → List β) (l : List α) :
    (l.flatMap fun a => (g a).map (a, ·)).mapM (fun s => f s.1 s.2) =
      List.flatten <$> l.mapM fun a => (g a).mapM (f a) := by
  induction l with
  | nil => simp
  | cons a l ih =>
      rw [List.flatMap_cons, List.mapM_append, ih, List.mapM_map, List.mapM_cons]
      simp [Function.comp_def]

/-- What is read of each item of a list that was written is read of the list. -/
theorem mapM_map_eq_some {γ : Type} {f : β → Option γ} {g : α → β} {r : α → γ} {l : List α}
    (h : ∀ a ∈ l, f (g a) = some (r a)) : (l.map g).mapM f = some (l.map r) := by
  have hpure : l.mapM (f ∘ g) = l.mapM fun a => pure (r a) := mapM_congr h
  rw [List.mapM_map, hpure, List.mapM_pure]
  rfl

/-- The values of a list of results. -/
theorem eq_filterMap_of_mapM {f : α → Except ε β} {l : List α} {bs : List β}
    (h : l.mapM f = .ok bs) :
    (∀ a ∈ l, ∃ b, f a = .ok b) ∧ bs = l.filterMap fun a => (f a).toOption := by
  have hbs := mapM_eq_ok_iff.1 h
  clear h
  induction hbs with
  | nil => simp
  | cons hb _ ih =>
      refine ⟨List.forall_mem_cons.2 ⟨⟨_, hb⟩, ih.1⟩, ?_⟩
      rw [List.filterMap_cons, hb, ih.2]
      rfl

/-! ## Errors of results -/

section Errors

variable {σ : Type} {P Q : Prop} {e₀ e : ε}

/-- The first part fails in one way, and otherwise the second part may. -/
theorem bind_eq_error_iff_of_error {x : Except ε α} {f : α → Except ε β}
    (hx : ∀ e, x = .error e ↔ P ∧ e = e₀) (hf : ∀ a, x = .ok a → (f a = .error e ↔ Q)) :
    (x >>= f) = .error e ↔ (P ∧ e = e₀) ∨ (¬ P ∧ Q) := by
  rw [bind_eq_error_iff, hx]
  apply or_congr_right
  constructor
  · rintro ⟨a, ha, hfa⟩
    refine ⟨fun hP => ?_, (hf a ha).1 hfa⟩
    exact nomatch ha.symm.trans ((hx e₀).2 ⟨hP, rfl⟩)
  · rintro ⟨hP, hQ⟩
    cases ha : x with
    | error e' => exact absurd ((hx e').1 ha).1 hP
    | ok a => exact ⟨a, rfl, (hf a ha).2 hQ⟩

theorem mapError_eq_error_iff_of_error {δ : Type} {x : Except ε α} {f : ε → δ} {e : δ}
    (hx : ∀ e, x = .error e ↔ P ∧ e = e₀) : x.mapError f = .error e ↔ P ∧ e = f e₀ := by
  rw [mapError_eq_error_iff, eq_comm (a := e)]
  simp only [hx, and_assoc, exists_and_left, exists_eq_left]

theorem mapM_eq_error_iff {f : α → Except ε β} {P : α → Prop}
    (hf : ∀ a e, f a = .error e ↔ P a ∧ e = e₀) {l : List α} :
    l.mapM f = .error e ↔ (∃ a ∈ l, P a) ∧ e = e₀ := by
  constructor
  · intro h
    obtain ⟨a, ha, hfa⟩ := exists_of_mapM_eq_error h
    obtain ⟨hP, rfl⟩ := (hf a e).1 hfa
    exact ⟨⟨a, ha, hP⟩, rfl⟩
  · rintro ⟨⟨a, ha, hP⟩, rfl⟩
    cases h : l.mapM f with
    | error e' =>
        obtain ⟨b, -, hfb⟩ := exists_of_mapM_eq_error h
        rw [((hf b e').1 hfb).2]
    | ok bs =>
        obtain ⟨b, hb⟩ := (eq_filterMap_of_mapM h).1 a ha
        exact nomatch hb.symm.trans ((hf a e).2 ⟨hP, rfl⟩)

/-- A fold whose steps fail whatever they start from fails at the first item that does. -/
theorem foldlM_eq_error_iff {f : σ → α → Except ε σ} {g : α → Except ε β}
    (hf : ∀ s a e, f s a = .error e ↔ g a = .error e) {l : List α} {s : σ} :
    l.foldlM f s = .error e ↔ ∃ front a back, l = front ++ a :: back ∧
      (∀ b ∈ front, ∃ c, g b = .ok c) ∧ g a = .error e := by
  induction l generalizing s with
  | nil =>
      refine iff_of_false (fun h => nomatch h) ?_
      rintro ⟨front, a, back, h, -⟩
      exact absurd h (by simp)
  | cons x l ih =>
      rw [List.foldlM_cons, bind_eq_error_iff, hf]
      constructor
      · rintro (hx | ⟨s', hs', hl⟩)
        · exact ⟨[], x, l, rfl, by simp, hx⟩
        · obtain ⟨front, a, back, rfl, hfront, ha⟩ := ih.1 hl
          refine ⟨x :: front, a, back, rfl, List.forall_mem_cons.2 ⟨?_, hfront⟩, ha⟩
          cases hx : g x with
          | ok c => exact ⟨c, rfl⟩
          | error e' => exact nomatch hs'.symm.trans ((hf s x e').2 hx)
      · rintro ⟨front, a, back, hl, hfront, ha⟩
        cases front with
        | nil =>
            obtain ⟨rfl, rfl⟩ := List.cons.inj hl
            exact .inl ha
        | cons y front =>
            obtain ⟨rfl, rfl⟩ := List.cons.inj hl
            obtain ⟨⟨c, hc⟩, hfront⟩ := List.forall_mem_cons.1 hfront
            cases hs : f s x with
            | error e' => exact nomatch hc.symm.trans ((hf s x e').1 hs)
            | ok s' => exact .inr ⟨s', rfl, ih.2 ⟨front, a, back, rfl, hfront, ha⟩⟩

end Errors

end TransferPlan
