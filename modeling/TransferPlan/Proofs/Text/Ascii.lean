import TransferPlan.Proofs.Text.Trimmed
import TransferPlan.Text.LetterCase
import TransferPlan.Text.Numeral

/-!
# ASCII texts

What trimming, lower-casing and reading numbers, which know the characters of every script, do to
visible ASCII characters.
-/

namespace TransferPlan.Text

variable {s : String} {cs t : List Char}

/-- The text consists of visible ASCII characters. -/
def IsVisible (cs : List Char) : Prop := ∀ c ∈ cs, 32 < c.toNat ∧ c.toNat < 127

-- Named, since searching for an instance can find one that goes through all characters there are.
instance (cs : List Char) : Decidable (IsVisible cs) :=
  List.decidableBAll (fun c : Char => 32 < c.toNat ∧ c.toNat < 127) cs

theorem isVisible_append : IsVisible (cs ++ t) ↔ IsVisible cs ∧ IsVisible t :=
  List.forall_mem_append

theorem isVisible_cons {c : Char} :
    IsVisible (c :: cs) ↔ (32 < c.toNat ∧ c.toNat < 127) ∧ IsVisible cs :=
  List.forall_mem_cons

theorem isBlank_of_visible {c : Char} (h : 32 < c.toNat ∧ c.toNat < 127) : isBlank c = false := by
  simp only [isBlank, isWhiteSpace, Bool.or_eq_false_iff, Bool.and_eq_false_iff,
    decide_eq_false_iff_not, beq_eq_false_iff_ne]
  omega

theorem trim_of_isVisible (h : IsVisible s.toList) : trim s = s := by
  apply trim_eq_self_iff.2
  constructor
  · intro hne
    exact isBlank_of_visible (h _ (List.head_mem hne))
  · intro hne
    exact isBlank_of_visible (h _ (List.getLast_mem hne))

theorem toList_lower_of_ascii (h : ∀ c ∈ s.toList, c.toNat < 128) :
    (lower s).toList = s.toList.map Char.toLower := by
  have hmap : ∀ (cs before : List Char), (∀ c ∈ cs, c.toNat < 128) →
      lowerList before cs = cs.map Char.toLower := by
    intro cs
    induction cs with
    | nil => exact fun _ _ => rfl
    | cons c cs ih =>
        intro before hcs
        rw [lowerList, if_pos (hcs c List.mem_cons_self),
          ih _ fun d hd => hcs d (List.mem_cons_of_mem _ hd)]
        rfl
  rw [lower, String.toList_ofList, hmap _ _ h]

theorem lower_of_ascii (h : ∀ c ∈ s.toList, c.toNat < 128 ∧ c.toLower = c) : lower s = s := by
  rw [← String.toList_inj, toList_lower_of_ascii fun c hc => (h c hc).1]
  exact (List.map_congr_left fun c hc => (h c hc).2).trans (List.map_id _)

/-- The last change of letter case counts. -/
theorem toLower_toUpper_of_ascii {c : Char} (h : c.toNat < 128) :
    c.toUpper.toLower = c.toLower ∧ c.toLower.toUpper = c.toUpper := by
  have hall : ∀ n < 128, (Char.ofNat n).toUpper.toLower = (Char.ofNat n).toLower ∧
      (Char.ofNat n).toLower.toUpper = (Char.ofNat n).toUpper := by decide
  rw [← Char.ofNat_toNat c]
  exact hall c.toNat h

theorem asciiDigit?_of_isDigit {c : Char} (h : c.isDigit = true) :
    asciiDigit? c = some (c.toNat - '0'.toNat) := by
  simp only [Char.isDigit, Bool.and_eq_true, decide_eq_true_eq, ge_iff_le] at h
  have hrange : '0' ≤ c ∧ c ≤ '9' := h
  exact if_pos (by simpa using hrange)

theorem foldl_asciiDigit? (h : ∀ c ∈ cs, c.isDigit = true) (n : Nat) :
    cs.foldl (fun n c => n * 10 + (asciiDigit? c).getD 0) n = Nat.ofDigitChars 10 cs n := by
  induction cs generalizing n with
  | nil => rfl
  | cons c cs ih =>
      rw [List.foldl_cons, Nat.ofDigitChars_cons, asciiDigit?_of_isDigit (h c List.mem_cons_self),
        ih fun d hd => h d (List.mem_cons_of_mem _ hd), Nat.mul_comm, Option.getD_some]

end TransferPlan.Text
