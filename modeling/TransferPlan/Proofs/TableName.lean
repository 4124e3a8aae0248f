import TransferPlan.Proofs.Text.Pieces
import TransferPlan.TableName
import Mathlib.Data.Set.Function

/-!
# Cutting the keys of tables

A key is cut at its first dot, whichever of the two names of its table that dot belongs to.  So a
table is got back from its key exactly if the first dot is the one between its names, or there is
none, and a key from its table exactly if that dot has something on both sides
(`cut_undoes_joining_iff`).
-/

namespace TransferPlan.TableName

variable {t : TableName} {k : String} {front back : List Char}

/-! ## The first dot -/

theorem ofKey_of_not_mem (h : '.' ∉ k.toList) : ofKey k = ⟨"", k⟩ := by
  simp only [ofKey, Text.splitFirst_of_not_mem h, String.ofList_toList]

theorem ofKey_of_last (h : '.' ∉ front) (hk : k.toList = front ++ ['.']) :
    ofKey k = ⟨"", String.ofList front⟩ := by
  simp only [ofKey, hk, Text.splitFirst_append h]

theorem ofKey_of_inner (h : '.' ∉ front) (hk : k.toList = front ++ '.' :: back)
    (hback : back ≠ []) : ofKey k = ⟨String.ofList front, String.ofList back⟩ := by
  obtain ⟨c, cs, rfl⟩ := List.exists_cons_of_ne_nil hback
  simp only [ofKey, hk, Text.splitFirst_append h]

/-- The three ways to cut a key: it has no dot, its first dot is its last character, or something
stands behind that dot. -/
theorem ofKey_cases (k : String) :
    ('.' ∉ k.toList ∧ ofKey k = ⟨"", k⟩) ∨
    (∃ front, '.' ∉ front ∧ k.toList = front ++ ['.'] ∧ ofKey k = ⟨"", String.ofList front⟩) ∨
    ∃ front back, '.' ∉ front ∧ k.toList = front ++ '.' :: back ∧ back ≠ [] ∧
      ofKey k = ⟨String.ofList front, String.ofList back⟩ := by
  by_cases hdot : '.' ∈ k.toList
  · obtain ⟨front, back, hk, hfront⟩ := List.eq_append_cons_of_mem hdot
    by_cases hback : back = []
    · subst hback
      exact .inr (.inl ⟨front, hfront, hk, ofKey_of_last hfront hk⟩)
    · exact .inr (.inr ⟨front, back, hfront, hk, hback, ofKey_of_inner hfront hk hback⟩)
  · exact .inl ⟨hdot, ofKey_of_not_mem hdot⟩

/-- What stands in front of the first dot has no dot. -/
theorem not_mem_schema_ofKey (k : String) : '.' ∉ (ofKey k).schema.toList := by
  rcases ofKey_cases k with ⟨-, h⟩ | ⟨front, -, -, h⟩ | ⟨front, back, hfront, -, -, h⟩
  · simp [h]
  · simp [h]
  · simpa [h] using hfront

/-- A dot is lost from a key that has one. -/
theorem length_table_ofKey_lt (h : '.' ∈ k.toList) : (ofKey k).table.length < k.length := by
  rw [← String.length_toList, ← String.length_toList]
  rcases ofKey_cases k with ⟨hk, -⟩ | ⟨front, -, hk, heq⟩ | ⟨front, back, -, hk, -, heq⟩
  · exact absurd h hk
  · simp [heq, hk]
  · rw [heq, hk, String.toList_ofList, List.length_append, List.length_cons]
    omega

/-! ## Keys of tables -/

theorem key_of_schema_empty (h : t.schema = "") : t.key = t.table := if_pos h

theorem toList_key (h : t.schema ≠ "") :
    t.key.toList = t.schema.toList ++ '.' :: t.table.toList := by
  simp [key, h]

/-- The first dot of the key is the one between the two names of the table, or the key has none. -/
def HasFirstDot (t : TableName) : Prop :=
  (t.schema ≠ "" ∧ '.' ∉ t.schema.toList ∧ t.table ≠ "") ∨
    (t.schema = "" ∧ '.' ∉ t.table.toList)

theorem ofKey_key_iff : ofKey t.key = t ↔ t.HasFirstDot := by
  by_cases hschema : t.schema = ""
  · have hiff : t.HasFirstDot ↔ '.' ∉ t.table.toList := by simp [HasFirstDot, hschema]
    rw [hiff, key_of_schema_empty hschema]
    constructor
    · intro h hdot
      have hlt := length_table_ofKey_lt hdot
      rw [h] at hlt
      exact Nat.lt_irrefl _ hlt
    · intro hdot
      rw [ofKey_of_not_mem hdot, ← hschema]
  · have hiff : t.HasFirstDot ↔ '.' ∉ t.schema.toList ∧ t.table ≠ "" := by
      simp [HasFirstDot, hschema]
    rw [hiff]
    constructor
    · intro h
      have hdot : '.' ∉ t.schema.toList := by
        have hcut := not_mem_schema_ofKey t.key
        rwa [h] at hcut
      refine ⟨hdot, fun htable => hschema ?_⟩
      have hlast : t.key.toList = t.schema.toList ++ ['.'] := by simp [toList_key hschema, htable]
      rw [ofKey_of_last hdot hlast] at h
      rw [← h]
    · rintro ⟨hdot, htable⟩
      have hback : t.table.toList ≠ [] := by simpa using htable
      rw [ofKey_of_inner hdot (toList_key hschema) hback, String.ofList_toList,
        String.ofList_toList]

/-- The first dot of a text, if it has one, is neither its first nor its last character. -/
def HasInnerDot (k : String) : Prop :=
  '.' ∉ k.toList ∨ (k.toList.idxOf '.' ≠ 0 ∧ k.toList.idxOf '.' + 1 ≠ k.toList.length)

theorem hasInnerDot_iff (h : '.' ∉ front) (hk : k.toList = front ++ '.' :: back) :
    HasInnerDot k ↔ front ≠ [] ∧ back ≠ [] := by
  have hindex : k.toList.idxOf '.' = front.length := by
    rw [hk, List.idxOf_append_of_notMem h, List.idxOf_cons_self, Nat.add_zero]
  have hlength : k.toList.length = front.length + (back.length + 1) := by simp [hk]
  have hmem : '.' ∈ k.toList := by simp [hk]
  rw [HasInnerDot, or_iff_right (not_not.2 hmem), hindex, hlength, ← List.length_eq_zero_iff.ne,
    ← List.length_eq_zero_iff.ne]
  omega

theorem key_ofKey_iff : (ofKey k).key = k ↔ HasInnerDot k := by
  rcases ofKey_cases k with ⟨hk, h⟩ | ⟨front, hfront, hk, h⟩ | ⟨front, back, hfront, hk, hback, h⟩
  · rw [h, key_of_schema_empty rfl]
    exact iff_of_true rfl (.inl hk)
  · rw [h, key_of_schema_empty rfl, hasInnerDot_iff hfront hk, ← String.toList_inj, hk]
    simp
  · rw [h, hasInnerDot_iff hfront hk, and_iff_left hback]
    constructor
    · rintro hkey rfl
      rw [key_of_schema_empty rfl, ← String.toList_inj, hk] at hkey
      simp at hkey
    · intro hne
      have hschema : String.ofList front ≠ "" := by simpa using hne
      rw [← String.toList_inj, toList_key hschema, hk]
      simp

/-- A table is got back from its key, and a key from its table, exactly under the stated conditions
on the first dot.  So tables that are got back have keys of their own. -/
theorem cut_undoes_joining_iff :
    (∀ t : TableName, ofKey t.key = t ↔
      (t.schema ≠ "" ∧ '.' ∉ t.schema.toList ∧ t.table ≠ "") ∨
        (t.schema = "" ∧ '.' ∉ t.table.toList)) ∧
    (∀ k : String, (ofKey k).key = k ↔
      '.' ∉ k.toList ∨ (k.toList.idxOf '.' ≠ 0 ∧ k.toList.idxOf '.' + 1 ≠ k.toList.length)) ∧
    Set.InjOn key {t | t.HasFirstDot} := by
  refine ⟨fun t => ofKey_key_iff, fun k => key_ofKey_iff, fun t ht u hu h => ?_⟩
  calc t = ofKey t.key := (ofKey_key_iff.2 ht).symm
    _ = ofKey u.key := by rw [h]
    _ = u := ofKey_key_iff.2 hu

end TransferPlan.TableName
