import TransferPlan.Binary64.Decimal
import TransferPlan.Proofs.Text.Quoted
import Mathlib.Data.List.Basic
import Mathlib.Data.List.TakeWhile

/-!
# Cutting a text at its commas

A reader that knows string literals and brackets, and nothing else, cuts a text at the commas that
stand outside of both (`pieces`).  Texts that it passes over are put together from plain text,
literals and bracketed lists (`Uncut`), and joined by commas they are got back
(`enclosed_intercalate`).
-/

namespace TransferPlan.Text

/-! ## Plain text -/

/-- Whether a character is a letter, a digit, an underscore, a minus sign or a point. -/
def isPlain (c : Char) : Bool := c.isAlphanum || c == '_' || c == '-' || c == '.'

/-- The text has plain characters only. -/
def IsPlain (s : String) : Prop := ∀ c ∈ s.toList, isPlain c = true

instance (s : String) : Decidable (IsPlain s) :=
  List.decidableBAll (fun c => isPlain c = true) s.toList

theorem isPlain_of_isDigit {c : Char} (h : c.isDigit = true) : isPlain c = true := by
  simp [isPlain, Char.isAlphanum, h]

theorem ne_of_isPlain {c d : Char} (hc : isPlain c = true) (hd : isPlain d = false) : c ≠ d := by
  rintro rfl
  exact absurd (hc.symm.trans hd) (by decide)

theorem le_toNat_of_isPlain {c : Char} (h : isPlain c = true) : 32 ≤ c.toNat := by
  have hcontrol : ∀ n < 32, isPlain (Char.ofNat n) = false := by decide
  by_contra hc
  exact ne_of_isPlain h (hcontrol c.toNat (Nat.lt_of_not_le hc)) (Char.ofNat_toNat c).symm

theorem isPlain_of_mem_digits {n : Nat} {c : Char} (h : c ∈ Binary64.digits n) :
    isPlain c = true :=
  isPlain_of_isDigit (Nat.isDigit_of_mem_toDigits (by decide) (by decide) h)

theorem isPlain_int (n : Int) : IsPlain (toString n) := by
  intro c hc
  rw [Int.toString_eq_repr, Int.repr_eq_if] at hc
  split_ifs at hc
  · exact isPlain_of_mem_digits (Nat.toList_repr ▸ hc)
  · rw [String.toList_append, Nat.toList_repr, List.mem_append] at hc
    rcases hc with hc | hc
    · exact (by decide : IsPlain "-") c hc
    · exact isPlain_of_mem_digits hc

theorem isPlain_fixed (x : Binary64) : IsPlain x.fixed := by
  have hpad : ∀ {w n : Nat} {c : Char}, c ∈ Binary64.padLeft w (Binary64.digits n) →
      isPlain c = true := fun hc => by
    rcases List.mem_append.1 hc with hc | hc
    · rw [List.eq_of_mem_replicate hc]
      decide
    · exact isPlain_of_mem_digits hc
  have hsign : ∀ {negative : Bool} {c : Char}, c ∈ Binary64.signText negative →
      isPlain c = true := fun {negative c} hc => by
    cases negative with
    | false => exact absurd hc List.not_mem_nil
    | true => exact List.mem_singleton.1 hc ▸ rfl
  cases x with
  | nan => exact (by decide : IsPlain "nan")
  | infinite negative => cases negative <;> decide
  | finite negative m e =>
      intro c hc
      simp only [Binary64.fixed, String.toList_ofList, List.mem_append, List.mem_cons] at hc
      rcases hc with (hc | hc) | rfl | hc
      · exact hsign hc
      · exact isPlain_of_mem_digits hc
      · decide
      · exact hpad hc

/-! ## Pieces -/

/-- The pieces with more characters in front of the first one. -/
def prepend (cs : List Char) (r : List Char × List (List Char)) : List Char × List (List Char) :=
  (cs ++ r.1, r.2)

/-- The pieces of a text between the commas that stand outside string literals and brackets: the
first one and the others.  So many brackets are open in front of the text.  A literal without an
end and brackets that do not come in pairs are refused. -/
def pieces (depth : Nat) : List Char → Option (List Char × List (List Char))
  | [] => if depth = 0 then some ([], []) else none
  | c :: rest =>
    if c = '"' then
      match _h : Quoted.readBody rest with
      | none => none
      | some (_, after) =>
        -- The literal stays as it is written: what its reader has passed over.
        (pieces depth after).map (prepend (c :: rest.take (rest.length - after.length)))
    else if c = ',' ∧ depth = 0 then (pieces depth rest).map fun r => ([], r.1 :: r.2)
    else if c = '[' ∨ c = '(' then (pieces (depth + 1) rest).map (prepend [c])
    else if c = ']' ∨ c = ')' then
      if depth = 0 then none else (pieces (depth - 1) rest).map (prepend [c])
    else (pieces depth rest).map (prepend [c])
termination_by cs => cs.length
decreasing_by
  · have := Quoted.length_of_readBody _h
    simp only [List.length_cons]
    omega
  all_goals simp

/-- The reader passes over the text without a cut, and as many brackets are open after it as in
front of it. -/
def Uncut (depth : Nat) (t : List Char) : Prop :=
  ∀ rest, pieces depth (t ++ rest) = (pieces depth rest).map (prepend t)

section

variable {depth : Nat} {t u : List Char} {ts : List (List Char)}

theorem uncut_nil : Uncut depth [] := fun rest => by
  cases hrest : pieces depth rest <;> simp [prepend, hrest]

theorem Uncut.append (ht : Uncut depth t) (hu : Uncut depth u) : Uncut depth (t ++ u) := by
  intro rest
  rw [List.append_assoc, ht, hu, Option.map_map]
  refine congrArg (Option.map · _) (funext fun r => ?_)
  simp [prepend]

/-- What is neither a quote nor a comma nor a bracket is passed over. -/
theorem uncut_singleton {c : Char} (h : c ∉ ['"', ',', '[', '(', ']', ')']) : Uncut depth [c] := by
  intro rest
  simp only [List.mem_cons, List.not_mem_nil, or_false, not_or] at h
  rw [List.singleton_append, pieces]
  simp [h]

theorem uncut_comma : Uncut (depth + 1) [','] := by
  intro rest
  rw [List.singleton_append, pieces]
  simp

theorem uncut_of_isPlain (h : ∀ c ∈ t, isPlain c = true) : Uncut depth t := by
  have hmark : ∀ d ∈ ['"', ',', '[', '(', ']', ')'], isPlain d = false := fun d hd => by
    simp only [List.mem_cons, List.not_mem_nil, or_false] at hd
    rcases hd with rfl | rfl | rfl | rfl | rfl | rfl <;> decide
  induction t with
  | nil => exact uncut_nil
  | cons c cs ih =>
      rw [List.forall_mem_cons] at h
      have hc : Uncut depth [c] := uncut_singleton fun hc => ne_of_isPlain h.1 (hmark c hc) rfl
      exact hc.append (ih h.2)

theorem uncut_intercalate (h : ∀ t ∈ ts, Uncut (depth + 1) t) :
    Uncut (depth + 1) ([','].intercalate ts) := by
  induction ts with
  | nil => exact uncut_nil
  | cons t ts ih =>
      rw [List.forall_mem_cons] at h
      cases ts with
      | nil => simpa using h.1
      | cons u ts =>
          rw [List.intercalate_cons_cons]
          exact (h.1.append uncut_comma).append (ih h.2)

theorem uncut_literal (cs : List Char) : Uncut depth (Quoted.encodeList cs) := by
  intro rest
  have hbody : Quoted.readBody (cs.flatMap Quoted.escape ++ '"' :: rest) = some (cs, rest) :=
    Quoted.readBody_flatMap_escape cs rest
  have htake : (cs.flatMap Quoted.escape ++ '"' :: rest).take
      ((cs.flatMap Quoted.escape ++ '"' :: rest).length - rest.length) =
        cs.flatMap Quoted.escape ++ ['"'] := by
    have hsplit : cs.flatMap Quoted.escape ++ '"' :: rest =
        (cs.flatMap Quoted.escape ++ ['"']) ++ rest := by simp
    rw [hsplit, List.length_append, Nat.add_sub_cancel, List.take_left]
  rw [Quoted.encodeList, List.cons_append, List.append_assoc, List.singleton_append, pieces,
    if_pos rfl]
  split
  · next hnone => simp [hbody] at hnone
  · next after hsome =>
      obtain ⟨-, rfl⟩ := Prod.mk.inj (Option.some.inj (hbody.symm.trans hsome))
      rw [htake]

theorem Uncut.brackets (h : Uncut (depth + 1) t) : Uncut depth ('[' :: (t ++ [']'])) := by
  intro rest
  have hclose : pieces (depth + 1) (']' :: rest) = (pieces depth rest).map (prepend [']']) := by
    rw [pieces]
    simp
  rw [List.cons_append, pieces, List.append_assoc, List.singleton_append, h, hclose]
  simp only [Char.reduceEq, if_false, false_and, or_false, if_true, Option.map_map]
  refine congrArg (Option.map · _) (funext fun r => ?_)
  simp [prepend]

/-! ## Joined pieces -/

theorem pieces_of_uncut (h : Uncut 0 t) : pieces 0 t = some (t, []) := by
  have hend : pieces 0 [] = some ([], []) := by
    rw [pieces, if_pos rfl]
  rw [← List.append_nil t, h, hend]
  simp [prepend]

theorem pieces_append_comma (h : Uncut 0 t) (rest : List Char) :
    pieces 0 (t ++ ',' :: rest) = (pieces 0 rest).map fun r => (t, r.1 :: r.2) := by
  have hcomma : pieces 0 (',' :: rest) = (pieces 0 rest).map fun r => ([], r.1 :: r.2) := by
    rw [pieces]
    simp
  rw [h, hcomma, Option.map_map]
  simp [Function.comp_def, prepend]

theorem pieces_intercalate (h : ∀ u ∈ t :: ts, Uncut 0 u) :
    pieces 0 ([','].intercalate (t :: ts)) = some (t, ts) := by
  induction ts generalizing t with
  | nil => simpa using pieces_of_uncut (h t List.mem_cons_self)
  | cons u ts ih =>
      obtain ⟨ht, hts⟩ := List.forall_mem_cons.1 h
      rw [List.intercalate_cons_cons, List.append_assoc, List.singleton_append,
        pieces_append_comma ht, ih hts]
      rfl

/-- The pieces of what stands in front of the last character, which must be the closing one.
Where nothing stands in front of it there is no piece. -/
def enclosed (closing : Char) (cs : List Char) : Option (List (List Char)) :=
  if cs.getLast? = some closing then
    if cs.dropLast = [] then some [] else (pieces 0 cs.dropLast).map fun r => r.1 :: r.2
  else none

/-- Pieces joined by commas are got back. -/
theorem enclosed_intercalate (closing : Char) (h : ∀ t ∈ ts, t ≠ [] ∧ Uncut 0 t) :
    enclosed closing ([','].intercalate ts ++ [closing]) = some ts := by
  rw [enclosed, List.getLast?_concat, if_pos rfl, List.dropLast_concat]
  cases ts with
  | nil => rfl
  | cons t ts =>
      have hne : [','].intercalate (t :: ts) ≠ [] := fun hnil => by
        cases ts with
        | nil => exact (h t List.mem_cons_self).1 (by simpa using hnil)
        | cons u ts => simp [List.intercalate_cons_cons] at hnil
      rw [if_neg hne, pieces_intercalate fun u hu => (h u hu).2]
      rfl

end

theorem splitFirst_append {c : Char} {t : List Char} (h : c ∉ t) (rest : List Char) :
    splitFirst c (t ++ c :: rest) = (t, some rest) := by
  have hkeep : ∀ d ∈ t, (d != c) = true := fun d hd => by
    simpa using fun hdc : d = c => h (hdc ▸ hd)
  have hdrop : (t ++ c :: rest).dropWhile (· != c) = c :: rest := by
    rw [List.dropWhile_append_of_pos hkeep]
    simp
  have htake : (t ++ c :: rest).takeWhile (· != c) = t := by
    rw [List.takeWhile_append_of_pos hkeep]
    simp
  simp only [splitFirst, hdrop, htake]

theorem splitFirst_of_not_mem {c : Char} {t : List Char} (h : c ∉ t) :
    splitFirst c t = (t, none) := by
  have hdrop : t.dropWhile (· != c) = [] := by
    refine List.dropWhile_eq_nil_iff.2 fun d hd => ?_
    simpa using fun hdc : d = c => h (hdc ▸ hd)
  simp only [splitFirst, hdrop]

theorem splitLast_append {c : Char} {t : List Char} (h : c ∉ t) (front : List Char) :
    splitLast c (front ++ c :: t) = (some front, t) := by
  have hreverse : (front ++ c :: t).reverse = t.reverse ++ c :: front.reverse := by simp
  rw [splitLast, hreverse, splitFirst_append (by simpa using h)]
  simp

theorem cut_of_not_mem {c : Char} {t : List Char} (h : c ∉ t) (piece : List Char) :
    cut [c] 0 t piece = [piece.reverse ++ t] := by
  induction t generalizing piece with
  | nil => rw [cut, List.append_nil]
  | cons d t ih =>
      have hcd : c ≠ d := fun hcd => h (hcd ▸ List.mem_cons_self)
      have hne : ¬ [c].isPrefixOf (d :: t) = true := by simp [hcd]
      rw [cut, if_neg hne, ih fun ht => h (List.mem_cons_of_mem _ ht), List.reverse_cons,
        List.append_assoc, List.singleton_append]

end TransferPlan.Text
