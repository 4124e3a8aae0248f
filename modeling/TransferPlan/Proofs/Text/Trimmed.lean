import TransferPlan.Text.Blank
import Mathlib.Data.List.DropRight

/-!
# Trimmed texts

What trimming leaves has no blank at either end, and such a text is left as it is
(`trimList_eq_self_iff`).  Only blanks are cut off (`exists_eq_append_trim`), and blanks around a
text make no difference (`trim_append`).  The names of a delimited list are trimmed and not empty
(`isName_of_mem_names`).
-/

namespace TransferPlan.Text

section List

variable {p : Char → Bool} {s t front back : List Char}

/-- Neither the first nor the last character passes the test. -/
structure IsTrimmed (p : Char → Bool) (cs : List Char) : Prop where
  head : ∀ h : cs ≠ [], p (cs.head h) = false
  last : ∀ h : cs ≠ [], p (cs.getLast h) = false

theorem isTrimmed_trimList (p : Char → Bool) (cs : List Char) : IsTrimmed p (trimList p cs) where
  head h := by
    have hfront : trimList p cs <+: cs.dropWhile p := List.rdropWhile_prefix p _
    rw [hfront.head h]
    exact List.head_dropWhile_not p _
  last h := by
    have hlast := List.rdropWhile_last_not p (cs.dropWhile p) h
    rwa [Bool.not_eq_true] at hlast

theorem trimList_eq_self_iff : trimList p s = s ↔ IsTrimmed p s := by
  refine ⟨fun h => h ▸ isTrimmed_trimList p s, fun h => ?_⟩
  have hfront : s.dropWhile p = s := List.dropWhile_eq_self_iff.2 fun hl => by
    rw [← List.head_eq_getElem (List.ne_nil_of_length_pos hl), h.head]
    exact Bool.false_ne_true
  have hback : s.rdropWhile p = s := List.rdropWhile_eq_self_iff.2 fun hne => by
    rw [h.last hne]
    exact Bool.false_ne_true
  calc trimList p s = (s.dropWhile p).rdropWhile p := rfl
    _ = s := by rw [hfront, hback]

/-- Only characters that pass the test are cut off. -/
theorem exists_eq_append_trimList (p : Char → Bool) (cs : List Char) :
    ∃ front back, cs = front ++ trimList p cs ++ back ∧ ∀ c ∈ front ++ back, p c = true := by
  refine ⟨cs.takeWhile p, (cs.dropWhile p).rtakeWhile p, ?_, fun c hc => ?_⟩
  · calc cs = cs.takeWhile p ++ cs.dropWhile p := List.takeWhile_append_dropWhile.symm
      _ = cs.takeWhile p ++ ((cs.dropWhile p).rdropWhile p ++ (cs.dropWhile p).rtakeWhile p) := by
        rw [List.rdropWhile_append_rtakeWhile]
      _ = cs.takeWhile p ++ trimList p cs ++ (cs.dropWhile p).rtakeWhile p :=
        (List.append_assoc _ _ _).symm
  · rcases List.mem_append.1 hc with hc | hc
    · exact List.mem_takeWhile_imp hc
    · exact List.mem_rtakeWhile_imp hc

/-- What passes the test makes no difference around a text. -/
theorem trimList_append (hfront : ∀ c ∈ front, p c = true) (hback : ∀ c ∈ back, p c = true) :
    trimList p (front ++ s ++ back) = trimList p s := by
  have hend : ∀ ds : List Char, (ds ++ back).rdropWhile p = ds.rdropWhile p := fun ds => by
    rw [List.rdropWhile, List.reverse_append,
      List.dropWhile_append_of_pos fun c hc => hback c (List.mem_reverse.1 hc), List.rdropWhile]
  show ((front ++ s ++ back).dropWhile p).rdropWhile p = (s.dropWhile p).rdropWhile p
  rw [List.append_assoc, List.dropWhile_append_of_pos hfront, List.dropWhile_append]
  -- Where nothing is left of the text, its back is cut off from the front too.
  split_ifs with hcs
  · rw [List.isEmpty_iff.1 hcs, List.dropWhile_eq_nil_iff.2 hback]
  · exact hend _

/-- The ends of a text are those of its first and its last part. -/
theorem IsTrimmed.append (hs : IsTrimmed p s) (ht : IsTrimmed p t) (hs' : s ≠ []) (ht' : t ≠ [])
    (middle : List Char) : IsTrimmed p (s ++ middle ++ t) where
  head _ := by
    rw [List.head_append_of_ne_nil (by simp [hs']), List.head_append_of_ne_nil hs']
    exact hs.head hs'
  last _ := by
    rw [List.getLast_append_of_ne_nil _ ht']
    exact ht.last ht'

end List

variable {s t front back : String}

/-! ## Blank texts -/

/-- The text has no character but blanks. -/
def IsBlankText (s : String) : Prop := ∀ c ∈ s.toList, isBlank c = true

instance (s : String) : Decidable (IsBlankText s) :=
  List.decidableBAll (fun c => isBlank c = true) s.toList

theorem trim_append (hfront : IsBlankText front) (hback : IsBlankText back) (s : String) :
    trim (front ++ s ++ back) = trim s := by
  rw [trim, String.toList_append, String.toList_append, trimList_append hfront hback, trim]

theorem exists_eq_append_trim (s : String) : ∃ front back, IsBlankText front ∧ IsBlankText back ∧
    s = front ++ trim s ++ back := by
  obtain ⟨front, back, hsplit, hblank⟩ := exists_eq_append_trimList isBlank s.toList
  obtain ⟨hfront, hback⟩ := List.forall_mem_append.1 hblank
  refine ⟨String.ofList front, String.ofList back, ?_, ?_, ?_⟩
  · rwa [IsBlankText, String.toList_ofList]
  · rwa [IsBlankText, String.toList_ofList]
  · rw [← String.toList_inj, String.toList_append, String.toList_append, String.toList_ofList,
      String.toList_ofList, trim, String.toList_ofList]
    exact hsplit

theorem trim_eq_empty_iff : trim s = "" ↔ IsBlankText s := by
  constructor
  · intro h
    obtain ⟨front, back, hfront, hback, hsplit⟩ := exists_eq_append_trim s
    rw [h, String.append_empty] at hsplit
    rw [hsplit, IsBlankText, String.toList_append]
    exact List.forall_mem_append.2 ⟨hfront, hback⟩
  · intro h
    have hempty : trim (s ++ "" ++ "") = trim "" := trim_append h (by decide) ""
    rwa [String.append_empty, String.append_empty] at hempty

theorem trim?_eq_none_iff : trim? s = none ↔ IsBlankText s := by
  simp [trim?, trim_eq_empty_iff]

/-! ## Names -/

/-- The text is not empty and has no blank at either end. -/
def IsName (s : String) : Prop := s ≠ "" ∧ trim s = s

instance (s : String) : Decidable (IsName s) := inferInstanceAs (Decidable (_ ∧ _))

theorem trim_eq_self_iff : trim s = s ↔ IsTrimmed isBlank s.toList := by
  rw [← trimList_eq_self_iff, trim, ← String.toList_inj, String.toList_ofList]

theorem isName_iff : IsName s ↔ s.toList ≠ [] ∧ IsTrimmed isBlank s.toList := by
  rw [IsName, trim_eq_self_iff, ne_eq, ne_eq, String.toList_eq_nil_iff]

theorem trim?_eq_some_iff : trim? s = some t ↔ trim s ≠ "" ∧ trim s = t := by
  unfold trim?
  dsimp only
  split_ifs with h
  · simp [h]
  · simp [h]

theorem isName_of_trim? (h : trim? s = some t) : IsName t := by
  obtain ⟨hne, rfl⟩ := trim?_eq_some_iff.1 h
  refine ⟨hne, trim_eq_self_iff.2 ?_⟩
  rw [trim, String.toList_ofList]
  exact isTrimmed_trimList _ _

theorem trim?_append (hfront : IsBlankText front) (hback : IsBlankText back) (hs : IsName s) :
    trim? (front ++ s ++ back) = some s := by
  rw [trim?_eq_some_iff, trim_append hfront hback, hs.2]
  exact ⟨hs.1, rfl⟩

theorem isName_of_mem_names {sep : String} (h : t ∈ names sep s) : IsName t := by
  obtain ⟨piece, -, hpiece⟩ := List.mem_filterMap.1 h
  exact isName_of_trim? hpiece

theorem IsName.append (hs : IsName s) (ht : IsName t) (middle : String) :
    IsName (s ++ middle ++ t) := by
  rw [isName_iff] at hs ht ⊢
  rw [String.toList_append, String.toList_append]
  exact ⟨by simp [hs.1], hs.2.append ht.2 hs.1 ht.1 _⟩

end TransferPlan.Text
