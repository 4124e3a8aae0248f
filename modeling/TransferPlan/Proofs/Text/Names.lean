import TransferPlan.Proofs.Lists
import TransferPlan.Proofs.Text.Trimmed

/-!
# Names joined by commas

A list of names is written as one text: pieces joined by commas, each of them a name with blanks
around it or blank altogether (`Padded`).  A text is read as exactly the names that it is written
from (`names_comma_eq_iff`), so names that are read and joined again are read again
(`names_undo_joining`).
-/

namespace TransferPlan.Text

variable {s t n : String} {ns pieces : List String}

/-! ## Padding -/

theorem IsBlankText.comma_not_mem (h : IsBlankText s) : ',' ∉ s.toList := fun hc =>
  absurd (h ',' hc) (by decide)

/-- The second list has the names of the first one, in their order and each with blanks around it,
and any number of blank pieces among them. -/
inductive Padded : List String → List String → Prop
  | nil : Padded [] []
  | blank {s : String} {ns pieces : List String} :
      IsBlankText s → Padded ns pieces → Padded ns (s :: pieces)
  | name {front n back : String} {ns pieces : List String} :
      IsBlankText front → IsBlankText back → Padded ns pieces →
        Padded (n :: ns) ((front ++ n ++ back) :: pieces)

theorem padded_self (ns : List String) : Padded ns ns := by
  induction ns with
  | nil => exact .nil
  | cons n ns ih =>
      have hn : Padded (n :: ns) (("" ++ n ++ "") :: ns) := .name (by decide) (by decide) ih
      rwa [String.empty_append, String.append_empty] at hn

theorem padded_filterMap_trim? (pieces : List String) : Padded (pieces.filterMap trim?) pieces := by
  induction pieces with
  | nil => exact .nil
  | cons s pieces ih =>
      cases hs : trim? s with
      | none =>
          rw [List.filterMap_cons_none hs]
          exact .blank (trim?_eq_none_iff.1 hs) ih
      | some n =>
          rw [List.filterMap_cons_some hs]
          obtain ⟨-, rfl⟩ := trim?_eq_some_iff.1 hs
          obtain ⟨front, back, hfront, hback, hsplit⟩ := exists_eq_append_trim s
          have hn := Padded.name (n := trim s) hfront hback ih
          rwa [← hsplit] at hn

theorem Padded.filterMap_trim? (h : Padded ns pieces) (hns : ∀ n ∈ ns, IsName n) :
    pieces.filterMap trim? = ns := by
  induction h with
  | nil => rfl
  | blank hs _ ih => rw [List.filterMap_cons_none (trim?_eq_none_iff.2 hs), ih hns]
  | name hfront hback _ ih =>
      obtain ⟨hn, hns⟩ := List.forall_mem_cons.1 hns
      rw [List.filterMap_cons_some (trim?_append hfront hback hn), ih hns]

/-- Padding brings no comma. -/
theorem Padded.comma_not_mem_iff (h : Padded ns pieces) :
    (∀ s ∈ pieces, ',' ∉ s.toList) ↔ ∀ n ∈ ns, ',' ∉ n.toList := by
  induction h with
  | nil => exact Iff.rfl
  | blank hs _ ih => rw [List.forall_mem_cons, ih, and_iff_right hs.comma_not_mem]
  | name hfront hback _ ih =>
      rw [List.forall_mem_cons, List.forall_mem_cons, ih, String.toList_append,
        String.toList_append, List.mem_append, List.mem_append,
        or_iff_left hback.comma_not_mem, or_iff_right hfront.comma_not_mem]

/-! ## Joining and splitting -/

theorem cut_singleton (c : Char) (cs piece : List Char) :
    cut [c] 0 cs piece = cs.splitOnPPrepend (· == c) piece := by
  induction cs generalizing piece with
  | nil => rfl
  | cons d cs ih =>
      have hmark : [c].isPrefixOf (d :: cs) = (d == c) := by
        rw [List.isPrefixOf, List.isPrefixOf, Bool.and_true, Bool.beq_comm]
      -- A mark of one character is passed over at once.
      have hrest : cut [c] ([c].length - 1) cs [] = cs.splitOnP (· == c) := ih []
      rw [cut, hmark, hrest, List.splitOnPPrepend_cons_eq_if, ih]

theorem splitAt_comma (s : String) : splitAt "," s = (s.toList.splitOn ',').map String.ofList :=
  congrArg (List.map String.ofList) (cut_singleton ',' s.toList [])

theorem comma_not_mem_of_mem_splitAt (h : s ∈ splitAt "," t) : ',' ∉ s.toList := by
  rw [splitAt_comma] at h
  obtain ⟨piece, hpiece, rfl⟩ := List.mem_map.1 h
  rw [String.toList_ofList]
  exact not_mem_of_mem_splitOn hpiece

theorem intercalate_splitAt (s : String) : ",".intercalate (splitAt "," s) = s := by
  have hlist : (splitAt "," s).map String.toList = s.toList.splitOn ',' := by
    simp [splitAt_comma, Function.comp_def]
  rw [← String.toList_inj, String.toList_intercalate, hlist]
  exact List.intercalate_splitOn ','

theorem splitAt_intercalate (hne : pieces ≠ []) (h : ∀ s ∈ pieces, ',' ∉ s.toList) :
    splitAt "," (",".intercalate pieces) = pieces := by
  have hsplit : ([','].intercalate (pieces.map String.toList)).splitOn ',' =
      pieces.map String.toList :=
    List.splitOn_intercalate ',' (List.forall_mem_map.2 h) (by simpa using hne)
  rw [splitAt_comma, String.toList_intercalate]
  exact (congrArg (List.map String.ofList) hsplit).trans (by simp [Function.comp_def])

/-! ## Names -/

/-- A name that a list with commas can hold. -/
structure IsListable (n : String) : Prop where
  nonempty : n ≠ ""
  comma_not_mem : ',' ∉ n.toList
  trimmed : IsTrimmed isBlank n.toList

theorem isListable_iff : IsListable n ↔ IsName n ∧ ',' ∉ n.toList :=
  ⟨fun h => ⟨⟨h.nonempty, trim_eq_self_iff.2 h.trimmed⟩, h.comma_not_mem⟩,
    fun h => ⟨h.1.1, h.2, trim_eq_self_iff.1 h.1.2⟩⟩

instance (n : String) : Decidable (IsListable n) := decidable_of_iff _ isListable_iff.symm

theorem isListable_of_mem_names (h : n ∈ names "," t) : IsListable n := by
  have hcomma : ∀ n ∈ names "," t, ',' ∉ n.toList :=
    (padded_filterMap_trim? (splitAt "," t)).comma_not_mem_iff.1 fun _ =>
      comma_not_mem_of_mem_splitAt
  exact isListable_iff.2 ⟨isName_of_mem_names h, hcomma n h⟩

theorem names_intercalate (h : Padded ns pieces) (hns : ∀ n ∈ ns, IsListable n) :
    names "," (",".intercalate pieces) = ns := by
  simp only [isListable_iff] at hns
  have hname : pieces.filterMap trim? = ns := h.filterMap_trim? fun n hn => (hns n hn).1
  by_cases hne : pieces = []
  -- No piece and one empty piece are joined to the same text, which is cut to the latter.
  · subst hne
    exact hname
  · rw [names, splitAt_intercalate hne (h.comma_not_mem_iff.2 fun n hn => (hns n hn).2), hname]

/-- A text is read as exactly the names that it is written from. -/
theorem names_comma_eq_iff : names "," t = ns ↔
    (∀ n ∈ ns, IsListable n) ∧ ∃ pieces, Padded ns pieces ∧ ",".intercalate pieces = t := by
  constructor
  · rintro rfl
    exact ⟨fun _ => isListable_of_mem_names, splitAt "," t, padded_filterMap_trim? _,
      intercalate_splitAt t⟩
  · rintro ⟨hns, pieces, h, rfl⟩
    exact names_intercalate h hns

theorem names?_comma (t : String) : names? "," (some t) = some (names "," t) := by
  by_cases h : t = ""
  · subst h
    rfl
  · simp [names?, h]

/-- A text is read as a list of names exactly if it is these names joined by commas, with blanks
around them and blank pieces in between as one likes.  Whatever is read is a list of such names,
and joined again it is read as itself. -/
theorem names_undo_joining :
    (∀ (t : String) (ns : List String), names? "," (some t) = some ns ↔
      (∀ n ∈ ns, IsListable n) ∧ ∃ pieces, Padded ns pieces ∧ ",".intercalate pieces = t) ∧
    ∀ s : Option String, ∃ ns, names? "," s = some ns ∧ (∀ n ∈ ns, IsListable n) ∧
      names? "," (some (",".intercalate ns)) = some ns := by
  have hiff : ∀ (t : String) (ns : List String), names? "," (some t) = some ns ↔
      (∀ n ∈ ns, IsListable n) ∧ ∃ pieces, Padded ns pieces ∧ ",".intercalate pieces = t :=
    fun t ns => by rw [names?_comma, Option.some_inj, names_comma_eq_iff]
  refine ⟨hiff, fun s => ?_⟩
  cases s with
  | none => exact ⟨[], rfl, by simp, rfl⟩
  | some t =>
      have hns : ∀ n ∈ names "," t, IsListable n := fun _ => isListable_of_mem_names
      exact ⟨names "," t, names?_comma t, hns, (hiff _ _).2 ⟨hns, _, padded_self _, rfl⟩⟩

/-- Two names, one of them with a blank inside, among pieces that are empty or blank. -/
theorem names_undo_joining_spaced :
    (∀ n ∈ ["id", "名 前"], IsListable n) ∧
    Padded ["id", "名 前"] [" id", "", "\t \n", "名 前\u3000"] ∧
    names? "," (some " id,,\t \n,名 前\u3000") = some ["id", "名 前"] := by
  have hns : ∀ n ∈ ["id", "名 前"], IsListable n := by decide +kernel
  have hread : [" id", "", "\t \n", "名 前\u3000"].filterMap trim? = ["id", "名 前"] := by
    decide +kernel
  have hpadded : Padded ["id", "名 前"] [" id", "", "\t \n", "名 前\u3000"] :=
    hread ▸ padded_filterMap_trim? _
  exact ⟨hns, hpadded, (names_undo_joining.1 _ _).2 ⟨hns, _, hpadded, by decide⟩⟩

end TransferPlan.Text
