import TransferPlan.Keyed
import TransferPlan.Proofs.Lists
import Mathlib.Data.List.Induction

/-!
# Keyed lists

The keys and values of keyed lists, and what a list of rows gives that is folded into one by a key:
under each key what the rows with that key fold to (`get?_grouped`).
-/

namespace TransferPlan

namespace Keyed

variable {α β : Type} {m : Keyed α} {k : String} {v : α}

/-! ## Keys and values -/

theorem value?_eq_some_iff {es : List (String × α)} (hes : (es.map Prod.fst).Nodup) :
    value? k es = some v ↔ (k, v) ∈ es := by
  induction es with
  | nil => simp [value?]
  | cons e es ih =>
      obtain ⟨he, hes⟩ := List.nodup_cons.1 hes
      rw [value?, List.mem_cons, Prod.ext_iff, eq_comm (a := k), eq_comm (a := v)]
      split_ifs with hk
      · have hmem : (k, v) ∉ es := fun h => he (hk ▸ List.mem_map_of_mem h)
        simp [hk, hmem]
      · simp [hk, ih hes]

theorem get?_eq_some_iff : m.get? k = some v ↔ (k, v) ∈ m.entries := value?_eq_some_iff m.nodup

theorem isSome_get?_iff : (m.get? k).isSome = true ↔ k ∈ m.keys := by
  simp [Option.isSome_iff_exists, get?_eq_some_iff, keys]

theorem keys_filter (p : String → Bool) : (m.filter fun k _ => p k).keys = m.keys.filter p :=
  List.filter_map.symm

/-- The entries are the keys with their values. -/
theorem entries_eq_map (m : Keyed α) (d : α) :
    m.entries = m.keys.map fun k => (k, (m.get? k).getD d) := by
  rw [keys, List.map_map]
  refine (List.map_id _).symm.trans (List.map_congr_left fun e he => ?_)
  have hget : m.get? e.1 = some e.2 := get?_eq_some_iff.2 he
  simp [hget]

theorem get?_mapValues (f : String → α → β) (m : Keyed α) (k : String) :
    (m.mapValues f).get? k = (m.get? k).map (f k) := by
  ext v
  rw [get?_eq_some_iff, Option.map_eq_some_iff]
  simp only [get?_eq_some_iff, mapValues, List.mem_map]
  constructor
  · rintro ⟨e, he, h⟩
    obtain ⟨rfl, rfl⟩ := Prod.mk.inj h
    exact ⟨e.2, he, rfl⟩
  · rintro ⟨v, he, rfl⟩
    exact ⟨(k, v), he, rfl⟩

theorem get?_filter_eq (p : String → α → Bool) (m : Keyed α) (k : String) :
    (m.filter p).get? k = (m.get? k).filter (p k) := by
  ext v
  rw [get?_eq_some_iff, Option.filter_eq_some_iff, get?_eq_some_iff]
  exact List.mem_filter

/-! ## Some of the keys -/

section Filter

variable (p : String → Bool)

theorem ext_entries {m m' : Keyed α} (h : m.entries = m'.entries) : m = m' := by
  cases m
  cases m'
  cases h
  rfl

theorem filter_put (k : String) (v : α) (es : List (String × α)) :
    (put k v es).filter (p ·.1) =
      if p k then put k v (es.filter (p ·.1)) else es.filter (p ·.1) := by
  induction es with
  | nil => by_cases hp : p k <;> simp [put, hp]
  | cons e es ih =>
      by_cases hk : e.1 = k
      · subst hk
        by_cases hp : p e.1 <;> simp [put, hp]
      · by_cases he : p e.1 <;> by_cases hp : p k <;> simp [put, hk, he, hp, ih]

theorem get?_filter (hp : p k = true) : (m.filter fun k _ => p k).get? k = m.get? k := by
  rw [get?_filter_eq]
  cases m.get? k <;> simp [Option.filter, hp]

theorem alter_ne_empty (m : Keyed α) (k : String) (d : α) (f : α → α) :
    m.alter k d f ≠ empty := by
  intro h
  have hget := congrArg (·.get? k) h
  rw [get?_alter, if_pos rfl] at hget
  exact nomatch hget

theorem filter_alter (m : Keyed α) (k : String) (d : α) (f : α → α) :
    ((m.alter k d f).filter fun k _ => p k) =
      if p k then (m.filter fun k _ => p k).alter k d f else m.filter fun k _ => p k := by
  refine ext_entries ((filter_put p k _ m.entries).trans ?_)
  by_cases hp : p k
  · rw [if_pos hp, if_pos hp, alter, get?_filter p hp]
    rfl
  · rw [if_neg hp, if_neg hp]
    rfl

theorem filter_mapValues (f : String → α → β) (m : Keyed α) :
    ((m.mapValues f).filter fun k _ => p k) = (m.filter fun k _ => p k).mapValues f :=
  ext_entries List.filter_map

theorem mapValues_congr {f g : String → α → β} (h : ∀ k ∈ m.keys, ∀ v, f k v = g k v) :
    m.mapValues f = m.mapValues g :=
  ext_entries (List.map_congr_left fun e he => by rw [h e.1 (List.mem_map_of_mem he)])

end Filter

/-! ## Rows grouped by a key -/

/-- The rows are folded into one value for each key, from `d` on. -/
def grouped (key : β → String) (d : α) (f : β → α → α) (rows : List β) : Keyed α :=
  rows.foldl (fun m r => m.alter (key r) d (f r)) empty

variable (key : β → String) (d : α) (f : β → α → α)

theorem get?_foldl_alter (rows : List β) (m : Keyed α) (k : String) :
    (rows.foldl (fun m r => m.alter (key r) d (f r)) m).get? k =
      (rows.filter (key · == k)).foldl (fun v r => some (f r (v.getD d))) (m.get? k) := by
  induction rows generalizing m with
  | nil => rfl
  | cons r rows ih =>
      rw [List.foldl_cons, ih, get?_alter, List.filter_cons]
      by_cases hk : key r = k <;> simp [hk]

theorem foldl_some (rows : List β) (v : α) :
    rows.foldl (fun v r => some (f r (v.getD d))) (some v) =
      some (rows.foldl (fun v r => f r v) v) := by
  induction rows generalizing v with
  | nil => rfl
  | cons r rows ih => exact ih _

/-- Some of the keys come from the rows that have them. -/
theorem filter_grouped (p : String → Bool) (rows : List β) :
    ((grouped key d f rows).filter fun k _ => p k) =
      grouped key d f (rows.filter (p <| key ·)) := by
  have hfold : ∀ m : Keyed α,
      ((rows.foldl (fun m r => m.alter (key r) d (f r)) m).filter fun k _ => p k) =
        (rows.filter (p <| key ·)).foldl (fun m r => m.alter (key r) d (f r))
          (m.filter fun k _ => p k) := by
    induction rows with
    | nil => exact fun _ => rfl
    | cons r rows ih =>
        intro m
        rw [List.foldl_cons, ih, filter_alter, List.filter_cons]
        by_cases hp : p (key r) <;> simp [hp]
  exact hfold empty

/-- A key is there if a row has it, and its value comes from the rows that have it. -/
theorem get?_grouped (rows : List β) (k : String) :
    (grouped key d f rows).get? k =
      if k ∈ rows.map key then some ((rows.filter (key · == k)).foldl (fun v r => f r v) d)
      else none := by
  rw [grouped, get?_foldl_alter]
  cases hrows : rows.filter (key · == k) with
  | nil =>
      have hk : k ∉ rows.map key := fun h => by
        obtain ⟨r, hr, rfl⟩ := List.mem_map.1 h
        simpa using List.filter_eq_nil_iff.1 hrows r hr
      rw [if_neg hk]
      rfl
  | cons r rest =>
      have hr : r ∈ rows.filter (key · == k) := hrows ▸ List.mem_cons_self
      obtain ⟨hr, hk⟩ := List.mem_filter.1 hr
      rw [if_pos (eq_of_beq hk ▸ List.mem_map_of_mem hr)]
      exact foldl_some d f rest _

theorem mem_keys_grouped {rows : List β} :
    k ∈ (grouped key d f rows).keys ↔ ∃ r ∈ rows, key r = k := by
  rw [← isSome_get?_iff, get?_grouped, ← List.mem_map]
  split_ifs with hk <;> simp [hk]

/-- The keys come in the order of their first rows. -/
theorem keys_grouped (rows : List β) : (grouped key d f rows).keys = (rows.map key).eraseDups := by
  induction rows using List.reverseRecOn with
  | nil => rfl
  | append_singleton rows r ih =>
      have hlast : grouped key d f (rows ++ [r]) =
          (grouped key d f rows).alter (key r) d (f r) := by
        simp [grouped]
      rw [hlast, alter, keys_insert, ih, List.map_append, List.map_singleton, eraseDups_concat]
      simp only [List.mem_eraseDups]

/-- A key without a row counts as `d`, from which no row is folded. -/
theorem getD_grouped (rows : List β) (k : String) :
    ((grouped key d f rows).get? k).getD d =
      (rows.filter (key · == k)).foldl (fun v r => f r v) d := by
  rw [get?_grouped]
  split_ifs with hk
  · rfl
  · have hrows : rows.filter (key · == k) = [] :=
      List.filter_eq_nil_iff.2 fun r hr h => hk (eq_of_beq h ▸ List.mem_map_of_mem hr)
    rw [hrows]
    rfl

end Keyed

end TransferPlan
