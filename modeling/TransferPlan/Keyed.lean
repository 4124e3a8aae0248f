/-!
# Keyed lists

A keyed list holds one value for each of its names and remembers the order in which the names
first came.  Putting a value under a name that is present replaces it where it stands; a new name
goes to the end.
-/

namespace TransferPlan

/-- Values under distinct names, in the order in which the names first came. -/
structure Keyed (α : Type) where
  entries : List (String × α)
  nodup : (entries.map Prod.fst).Nodup
deriving DecidableEq, Repr

namespace Keyed

variable {α β : Type}

/-! ## Entries one at a time -/

/-- The value of the first entry named `k`. -/
def value? (k : String) : List (String × α) → Option α
  | [] => none
  | e :: rest => if e.1 = k then some e.2 else value? k rest

/-- The entries with `v` under `k`: in its place if `k` is there, else at the end. -/
def put (k : String) (v : α) : List (String × α) → List (String × α)
  | [] => [(k, v)]
  | e :: rest => if e.1 = k then (k, v) :: rest else e :: put k v rest

theorem map_fst_put (k : String) (v : α) (es : List (String × α)) :
    (put k v es).map Prod.fst =
      if k ∈ es.map Prod.fst then es.map Prod.fst else es.map Prod.fst ++ [k] := by
  induction es with
  | nil => simp [put]
  | cons e rest ih =>
    by_cases h : e.1 = k
    · simp [put, h]
    · have h' : ¬k = e.1 := fun hk => h hk.symm
      simp only [put, h, if_false, List.map_cons, List.mem_cons, h', false_or, ih]
      split <;> simp

theorem nodup_put (k : String) (v : α) {es : List (String × α)}
    (h : (es.map Prod.fst).Nodup) : ((put k v es).map Prod.fst).Nodup := by
  rw [map_fst_put]
  split
  · exact h
  · next hk =>
    rw [List.nodup_append]
    refine ⟨h, by simp, ?_⟩
    intro a ha b hb hab
    simp only [List.mem_singleton] at hb
    exact hk (hb ▸ hab ▸ ha)

/-! ## Operations -/

def empty : Keyed α := ⟨[], List.nodup_nil⟩

instance : Inhabited (Keyed α) := ⟨empty⟩

instance : EmptyCollection (Keyed α) := ⟨empty⟩

/-- The value under a name. -/
def get? (m : Keyed α) (k : String) : Option α := value? k m.entries

/-- The names, in order. -/
def keys (m : Keyed α) : List String := m.entries.map Prod.fst

/-- Whether there is a value under the name. -/
def contains (m : Keyed α) (k : String) : Bool := m.keys.contains k

def insert (m : Keyed α) (k : String) (v : α) : Keyed α :=
  ⟨put k v m.entries, nodup_put k v m.nodup⟩

/-- Changes the value under a name; an absent one counts as `d` and comes in at the end. -/
def alter (m : Keyed α) (k : String) (d : α) (f : α → α) : Keyed α :=
  m.insert k (f ((m.get? k).getD d))

/-- The last value given for each name, at the place where the name first came. -/
def ofList (es : List (String × α)) : Keyed α :=
  es.foldl (fun m e => m.insert e.1 e.2) empty

/-- The same names with other values. -/
def mapValues (f : String → α → β) (m : Keyed α) : Keyed β :=
  ⟨m.entries.map fun e => (e.1, f e.1 e.2), by
    rw [List.map_map]
    exact m.nodup⟩

/-- The entries whose name and value pass a test. -/
def filter (p : String → α → Bool) (m : Keyed α) : Keyed α :=
  ⟨m.entries.filter fun e => p e.1 e.2, m.nodup.sublist (List.filter_sublist.map _)⟩

@[simp] theorem keys_empty : (empty : Keyed α).keys = [] := rfl

theorem nodup_keys (m : Keyed α) : m.keys.Nodup := m.nodup

theorem keys_insert (m : Keyed α) (k : String) (v : α) :
    (m.insert k v).keys = if k ∈ m.keys then m.keys else m.keys ++ [k] :=
  map_fst_put k v m.entries

@[simp] theorem keys_mapValues (f : String → α → β) (m : Keyed α) :
    (m.mapValues f).keys = m.keys := by
  simp [keys, mapValues, Function.comp_def]

@[simp] theorem get?_empty (k : String) : (empty : Keyed α).get? k = none := rfl

theorem value?_put (k k' : String) (v : α) (es : List (String × α)) :
    value? k' (put k v es) = if k = k' then some v else value? k' es := by
  induction es with
  | nil => simp [put, value?]
  | cons e rest ih =>
    by_cases h : e.1 = k
    · subst h
      by_cases h' : e.1 = k' <;> simp [put, value?, h']
    · by_cases h' : e.1 = k'
      · have hk : ¬k = k' := fun hk => h (h'.trans hk.symm)
        rw [put, if_neg h, if_neg hk, value?, value?, if_pos h', if_pos h']
      · simp [put, value?, h, h', ih]

theorem get?_insert (m : Keyed α) (k k' : String) (v : α) :
    (m.insert k v).get? k' = if k = k' then some v else m.get? k' :=
  value?_put k k' v m.entries

theorem get?_alter (m : Keyed α) (k k' : String) (d : α) (f : α → α) :
    (m.alter k d f).get? k' = if k = k' then some (f ((m.get? k).getD d)) else m.get? k' :=
  get?_insert m k k' _

end Keyed

end TransferPlan
