import TransferPlan.Text.Quoted
import Mathlib.Tactic.SplitIfs

/-!
# Reading quoted text back

The literal of a text is read back as that text, whatever characters it holds and whatever follows
it (`read_encodeList`), and no control character below U+0020 stands in it
(`le_toNat_of_mem_encodeList`).
-/

namespace TransferPlan.Text.Quoted

/-! ## Escapes -/

theorem hexValue?_hexDigit : ∀ n < 16, hexValue? (hexDigit n) = some n := by
  decide

theorem readHex4_hex4 {n : Nat} (h : n < 65536) (rest : List Char) :
    readHex4 (hex4 n ++ rest) = some (n, rest) := by
  have hdigit : ∀ k, hexValue? (hexDigit (k % 16)) = some (k % 16) := fun k =>
    hexValue?_hexDigit _ (Nat.mod_lt _ (by omega))
  have hsum : ((n / 4096 % 16 * 16 + n / 256 % 16) * 16 + n / 16 % 16) * 16 + n % 16 = n := by
    omega
  simp [hex4, readHex4, hdigit, hsum]

/-- A control character is written by its number. -/
theorem readEscape_hex4 {c : Char} (h : c.toNat < 32) (rest : List Char) :
    readEscape ('u' :: (hex4 c.toNat ++ rest)) = some (c, rest) := by
  have hhigh : isHighHalf c.toNat = false := by
    simp only [isHighHalf, Bool.and_eq_false_iff, decide_eq_false_iff_not]
    omega
  have hlow : isLowHalf c.toNat = false := by
    simp only [isLowHalf, Bool.and_eq_false_iff, decide_eq_false_iff_not]
    omega
  simp [readEscape, readHex4_hex4 (show c.toNat < 65536 by omega), hhigh, hlow]

/-! ## Literals -/

theorem readBody_backslash {cs rest : List Char} {c : Char} (h : readEscape cs = some (c, rest)) :
    readBody ('\\' :: cs) = (readBody rest).map fun r => (c :: r.1, r.2) := by
  rw [readBody, if_neg (by decide), if_pos rfl]
  split
  · next hnone => simp [hnone] at h
  · next hsome =>
      obtain ⟨rfl, rfl⟩ := Prod.mk.inj (Option.some.inj (hsome.symm.trans h))
      rfl

theorem readBody_escape (c : Char) (rest : List Char) :
    readBody (escape c ++ rest) = (readBody rest).map fun r => (c :: r.1, r.2) := by
  unfold escape
  split_ifs with hquote hback hn hr ht hb hf hcontrol
  · subst hquote
    exact readBody_backslash rfl
  · subst hback
    exact readBody_backslash rfl
  · subst hn
    exact readBody_backslash rfl
  · subst hr
    exact readBody_backslash rfl
  · subst ht
    exact readBody_backslash rfl
  · subst hb
    exact readBody_backslash rfl
  · subst hf
    exact readBody_backslash rfl
  · exact readBody_backslash (readEscape_hex4 hcontrol rest)
  · rw [List.singleton_append, readBody, if_neg hquote, if_neg hback, if_neg hcontrol]

theorem readBody_flatMap_escape (cs rest : List Char) :
    readBody (cs.flatMap escape ++ '"' :: rest) = some (cs, rest) := by
  induction cs with
  | nil => rw [List.flatMap_nil, List.nil_append, readBody, if_pos rfl]
  | cons c cs ih => rw [List.flatMap_cons, List.append_assoc, readBody_escape, ih, Option.map_some]

theorem read_encodeList (cs rest : List Char) : read (encodeList cs ++ rest) = some (cs, rest) := by
  rw [encodeList, List.cons_append, List.append_assoc]
  exact readBody_flatMap_escape cs rest

theorem decode_encode (s : String) : decode (encode s) = some s := by
  have hread : read (encode s).toList = some (s.toList, []) := by
    simpa [encode] using read_encodeList s.toList []
  simp [decode, hread]

theorem length_of_readBody {cs s rest : List Char} (h : readBody cs = some (s, rest)) :
    rest.length < cs.length := by
  fun_induction readBody cs generalizing s with
  | case1 => exact nomatch h
  | case2 cs =>
      obtain ⟨-, rfl⟩ := Prod.mk.inj (Option.some.inj h)
      exact Nat.lt_succ_self _
  | case3 => exact nomatch h
  | case4 cs e after he _ ih =>
      obtain ⟨⟨s', rest'⟩, hbody, heq⟩ := Option.map_eq_some_iff.1 h
      obtain ⟨-, rfl⟩ := Prod.mk.inj heq
      exact Nat.lt_trans (ih hbody) (Nat.lt_succ_of_lt (readEscape_length he))
  | case5 => exact nomatch h
  | case6 c cs _ _ _ ih =>
      obtain ⟨⟨s', rest'⟩, hbody, heq⟩ := Option.map_eq_some_iff.1 h
      obtain ⟨-, rfl⟩ := Prod.mk.inj heq
      exact Nat.lt_succ_of_lt (ih hbody)

theorem length_of_read {cs s rest : List Char} (h : read cs = some (s, rest)) :
    rest.length < cs.length := by
  unfold read at h
  split at h
  · exact Nat.lt_succ_of_lt (length_of_readBody h)
  · exact nomatch h

/-! ## Control characters -/

theorem le_toNat_hexDigit : ∀ n < 16, 32 ≤ (hexDigit n).toNat := by
  decide

theorem le_toNat_of_mem_hex4 {n : Nat} {c : Char} (h : c ∈ hex4 n) : 32 ≤ c.toNat := by
  have hdigit : ∀ k, 32 ≤ (hexDigit (k % 16)).toNat := fun k =>
    le_toNat_hexDigit _ (Nat.mod_lt _ (by omega))
  simp only [hex4, List.mem_cons, List.not_mem_nil, or_false] at h
  rcases h with rfl | rfl | rfl | rfl <;> exact hdigit _

theorem le_toNat_of_mem_escape {c d : Char} (h : d ∈ escape c) : 32 ≤ d.toNat := by
  have htwo : ∀ {e : Char}, 32 ≤ e.toNat → d ∈ ['\\', e] → 32 ≤ d.toNat := fun he hd => by
    rcases List.mem_cons.1 hd with rfl | hd
    · decide
    · exact List.mem_singleton.1 hd ▸ he
  unfold escape at h
  split_ifs at h with _ _ _ _ _ _ _ hcontrol
  iterate 7 exact htwo (by decide) h
  · rcases List.mem_cons.1 h with rfl | h
    · decide
    · rcases List.mem_cons.1 h with rfl | h
      · decide
      · exact le_toNat_of_mem_hex4 h
  · obtain rfl := List.mem_singleton.1 h
    exact Nat.le_of_not_lt hcontrol

theorem le_toNat_of_mem_encodeList {cs : List Char} {c : Char} (h : c ∈ encodeList cs) :
    32 ≤ c.toNat := by
  simp only [encodeList, List.mem_cons, List.mem_append, List.mem_flatMap, List.not_mem_nil,
    or_false] at h
  rcases h with rfl | ⟨d, -, h⟩ | rfl
  · decide
  · exact le_toNat_of_mem_escape h
  · decide

end TransferPlan.Text.Quoted
