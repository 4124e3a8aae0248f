import TransferPlan.Proofs.Text.Ascii
import TransferPlan.Text.Percent

/-!
# Reading percent-encoded texts

What is written for a text consists of unreserved characters and percent signs
(`isCoded_encode`), and reading it, as a part of a URL or of a query, gives the text back
(`decode_encode`, `decodeQuery_encode`).  A text is written as it stands only if all of its
characters are unreserved (`encode_eq_self_iff`).  Every percent sign in what is written begins a
triplet (`isSegment_encode`).
-/

namespace TransferPlan.Text.Percent

/-! ## Characters -/

/-- Whether a character is unreserved or a percent sign. -/
def isCoded (c : Char) : Bool := isUnreserved c || c == '%'

theorem isCoded_of_isUnreserved {c : Char} (h : isUnreserved c = true) : isCoded c = true := by
  rw [isCoded, h, Bool.true_or]

theorem ne_of_isCoded {c d : Char} (hc : isCoded c = true) (hd : isCoded d = false) : c ≠ d := by
  rintro rfl
  exact absurd (hc.symm.trans hd) (by decide)

/-- Coded characters are ASCII and visible. -/
theorem visible_of_isCoded {c : Char} (h : isCoded c = true) : 32 < c.toNat ∧ c.toNat < 127 := by
  simp only [isCoded, isUnreserved, Bool.or_eq_true, Bool.and_eq_true, decide_eq_true_eq,
    beq_iff_eq, Char.le_def, UInt32.le_iff_toNat_le] at h
  rcases h with ((((((h | h) | h) | rfl) | rfl) | rfl) | rfl) | rfl
  · change 65 ≤ c.toNat ∧ c.toNat ≤ 90 at h
    omega
  · change 97 ≤ c.toNat ∧ c.toNat ≤ 122 at h
    omega
  · change 48 ≤ c.toNat ∧ c.toNat ≤ 57 at h
    omega
  all_goals decide

/-- Each character is unreserved or a percent sign. -/
def IsCoded (t : List Char) : Prop := ∀ c ∈ t, isCoded c = true

instance (t : List Char) : Decidable (IsCoded t) := List.decidableBAll (isCoded · = true) t

theorem IsCoded.not_mem {t : List Char} (h : IsCoded t) {c : Char} (hc : isCoded c = false) :
    c ∉ t :=
  fun hmem => ne_of_isCoded (h c hmem) hc rfl

theorem IsCoded.isVisible {t : List Char} (h : IsCoded t) : IsVisible t :=
  fun c hc => visible_of_isCoded (h c hc)

theorem isCoded_upperHexDigit {n : Nat} (h : n < 16) : isCoded (upperHexDigit n) = true := by
  have hdigits : ∀ n < 16, isCoded (upperHexDigit n) = true := by decide
  exact hdigits n h

theorem hexValue?_upperHexDigit {n : Nat} (h : n < 16) :
    Quoted.hexValue? (upperHexDigit n) = some n := by
  have hdigits : ∀ n < 16, Quoted.hexValue? (upperHexDigit n) = some n := by decide
  exact hdigits n h

/-! ## Bytes -/

theorem isCoded_of_mem_encodeByte {b : UInt8} {c : Char} (h : c ∈ encodeByte b) :
    isCoded c = true := by
  have hb : b.toNat < 256 := b.toNat_lt
  unfold encodeByte at h
  dsimp only at h
  split_ifs at h with hc
  · rw [List.mem_singleton.1 h]
    exact isCoded_of_isUnreserved hc
  · simp only [List.mem_cons, List.not_mem_nil, or_false] at h
    rcases h with rfl | rfl | rfl
    · decide
    · exact isCoded_upperHexDigit (by omega)
    · exact isCoded_upperHexDigit (by omega)

theorem triplets_cons {c : Char} (h : c ≠ '%') (rest : List Char) :
    triplets (c :: rest) = UInt8.ofNat c.toNat :: triplets rest := by
  rw [triplets]
  rintro _ _ _ rfl
  exact absurd rfl h

theorem triplets_encodeByte (b : UInt8) (rest : List Char) :
    triplets (encodeByte b ++ rest) = b :: triplets rest := by
  have hb : b.toNat < 256 := b.toNat_lt
  unfold encodeByte
  dsimp only
  split_ifs with hc
  · have hvalid : (Char.ofNat b.toNat).toNat = b.toNat := by
      rw [Char.ofNat, dif_pos (.inl (by omega))]
      rfl
    have hne : Char.ofNat b.toNat ≠ '%' := by
      intro h
      rw [h] at hc
      exact absurd hc (by decide)
    rw [List.singleton_append, triplets_cons hne, hvalid, UInt8.ofNat_toNat]
  · have hvalue : b.toNat / 16 * 16 + b.toNat % 16 = b.toNat := by omega
    show triplets ('%' :: upperHexDigit (b.toNat / 16) :: upperHexDigit (b.toNat % 16) :: rest) = _
    rw [triplets, hexValue?_upperHexDigit (by omega), hexValue?_upperHexDigit (by omega)]
    dsimp only
    rw [hvalue, UInt8.ofNat_toNat]

theorem triplets_flatMap_encodeByte (bs : List UInt8) : triplets (bs.flatMap encodeByte) = bs := by
  induction bs with
  | nil => rfl
  | cons b bs ih => rw [List.flatMap_cons, triplets_encodeByte, ih]

/-! ## UTF-8 -/

section Utf8

variable {value k low high : Nat} {b : UInt8} {rest : List UInt8}

theorem decodeUtf8_ascii (h : b.toNat < 0x80) :
    decodeUtf8 0 0 0 0 (b :: rest) = Char.ofNat b.toNat :: decodeUtf8 0 0 0 0 rest := by
  have hlead : lead? b.toNat = some (0, 0x80, 0xBF) := if_pos h
  rw [decodeUtf8]
  simp only [hlead, List.nil_append]

/-- The first byte of a character of several. -/
theorem decodeUtf8_first {m : Nat} (h : lead? b.toNat = some (k + 1, low, high))
    (hm : Nat.pow 2 (5 - k) = m) :
    decodeUtf8 0 0 0 0 (b :: rest) = decodeUtf8 (b.toNat % m) (k + 1) low high rest := by
  rw [decodeUtf8]
  simp only [h, List.nil_append, hm]

theorem decodeUtf8_last (hlow : low ≤ b.toNat) (hhigh : b.toNat ≤ high) :
    decodeUtf8 value 1 low high (b :: rest) =
      Char.ofNat (value * 64 + b.toNat % 64) :: decodeUtf8 0 0 0 0 rest := by
  have hbounds : (decide (low ≤ b.toNat) && decide (b.toNat ≤ high)) = true := by simp [hlow, hhigh]
  rw [decodeUtf8]
  simp only [hbounds, if_true]

theorem decodeUtf8_next (hlow : low ≤ b.toNat) (hhigh : b.toNat ≤ high) :
    decodeUtf8 value (k + 2) low high (b :: rest) =
      decodeUtf8 (value * 64 + b.toNat % 64) (k + 1) 0x80 0xBF rest := by
  have hbounds : (decide (low ≤ b.toNat) && decide (b.toNat ≤ high)) = true := by simp [hlow, hhigh]
  rw [decodeUtf8]
  simp only [hbounds, if_true, Nat.succ_ne_zero, if_false]

theorem lead?_two {v : Nat} (h : 0x7F < v) (h' : v ≤ 0x7FF) :
    lead? (v / 64 % 32 + 192) = some (1, 0x80, 0xBF) := by
  unfold lead?
  rw [if_neg (by omega), if_neg (by omega), if_pos (by omega)]

/-- The bounds of the second byte leave out the values that fewer bytes can write and the
surrogates. -/
theorem exists_lead?_three {v : Nat} (h : 0x7FF < v) (h' : v ≤ 0xFFFF)
    (hsurrogate : v < 0xD800 ∨ 0xDFFF < v) :
    ∃ low high, lead? (v / 4096 % 16 + 224) = some (2, low, high) ∧
      low ≤ v / 64 % 64 + 128 ∧ v / 64 % 64 + 128 ≤ high := by
  unfold lead?
  rw [if_neg (by omega), if_neg (by omega), if_neg (by omega)]
  split_ifs
  · exact ⟨_, _, rfl, by omega, by omega⟩
  · exact ⟨_, _, rfl, by omega, by omega⟩
  · exact ⟨_, _, rfl, by omega, by omega⟩
  all_goals omega

theorem exists_lead?_four {v : Nat} (h : 0xFFFF < v) (h' : v < 0x110000) :
    ∃ low high, lead? (v / 262144 % 8 + 240) = some (3, low, high) ∧
      low ≤ v / 4096 % 64 + 128 ∧ v / 4096 % 64 + 128 ≤ high := by
  unfold lead?
  rw [if_neg (by omega), if_neg (by omega), if_neg (by omega), if_neg (by omega),
    if_neg (by omega), if_neg (by omega)]
  split_ifs
  · exact ⟨_, _, rfl, by omega, by omega⟩
  · exact ⟨_, _, rfl, by omega, by omega⟩
  · exact ⟨_, _, rfl, by omega, by omega⟩
  all_goals omega

end Utf8

theorem decodeUtf8_utf8EncodeChar (c : Char) (rest : List UInt8) :
    decodeUtf8 0 0 0 0 (String.utf8EncodeChar c ++ rest) = c :: decodeUtf8 0 0 0 0 rest := by
  obtain ⟨v, hv⟩ : ∃ v, v = c.toNat := ⟨_, rfl⟩
  have hvalid : v < 0xD800 ∨ 0xDFFF < v ∧ v < 0x110000 := hv ▸ c.valid
  have hc : Char.ofNat v = c := hv ▸ Char.ofNat_toNat c
  have hbyte : ∀ {n : Nat}, n < 256 → (UInt8.ofNat n).toNat = n := fun h =>
    UInt8.toNat_ofNat_of_lt' h
  unfold String.utf8EncodeChar
  dsimp only
  rw [show c.val.toNat = v from hv.symm]
  split_ifs with h₁ h₂ h₃
  · rw [List.singleton_append, decodeUtf8_ascii (by rw [hbyte (by omega)]; omega),
      hbyte (by omega), hc]
  · have hfirst := hbyte (n := v / 64 % 32 + 192) (by omega)
    have hsecond := hbyte (n := v % 64 + 128) (by omega)
    have hvalue : (v / 64 % 32 + 192) % 32 * 64 + (v % 64 + 128) % 64 = v := by omega
    rw [List.cons_append, List.singleton_append,
      decodeUtf8_first (by rw [hfirst]; exact lead?_two (by omega) h₂) (rfl : Nat.pow 2 5 = 32),
      decodeUtf8_last (by omega) (by omega), hfirst, hsecond, hvalue, hc]
  · obtain ⟨low, high, hlead, hlow, hhigh⟩ :=
      exists_lead?_three (v := v) (by omega) h₃ (by omega)
    have hfirst := hbyte (n := v / 4096 % 16 + 224) (by omega)
    have hsecond := hbyte (n := v / 64 % 64 + 128) (by omega)
    have hthird := hbyte (n := v % 64 + 128) (by omega)
    have hvalue : ((v / 4096 % 16 + 224) % 16 * 64 + (v / 64 % 64 + 128) % 64) * 64 +
        (v % 64 + 128) % 64 = v := by omega
    rw [List.cons_append, List.cons_append, List.singleton_append,
      decodeUtf8_first (by rw [hfirst]; exact hlead) (rfl : Nat.pow 2 4 = 16),
      decodeUtf8_next (by omega) (by omega), decodeUtf8_last (by omega) (by omega),
      hfirst, hsecond, hthird, hvalue, hc]
  · obtain ⟨low, high, hlead, hlow, hhigh⟩ :=
      exists_lead?_four (v := v) (by omega) (by omega)
    have hfirst := hbyte (n := v / 262144 % 8 + 240) (by omega)
    have hsecond := hbyte (n := v / 4096 % 64 + 128) (by omega)
    have hthird := hbyte (n := v / 64 % 64 + 128) (by omega)
    have hfourth := hbyte (n := v % 64 + 128) (by omega)
    have hvalue : (((v / 262144 % 8 + 240) % 8 * 64 + (v / 4096 % 64 + 128) % 64) * 64 +
        (v / 64 % 64 + 128) % 64) * 64 + (v % 64 + 128) % 64 = v := by omega
    rw [List.cons_append, List.cons_append, List.cons_append, List.singleton_append,
      decodeUtf8_first (by rw [hfirst]; exact hlead) (rfl : Nat.pow 2 3 = 8),
      decodeUtf8_next (by omega) (by omega), decodeUtf8_next (by omega) (by omega),
      decodeUtf8_last (by omega) (by omega), hfirst, hsecond, hthird, hfourth, hvalue, hc]

theorem decodeUtf8_flatMap (cs : List Char) :
    decodeUtf8 0 0 0 0 (cs.flatMap String.utf8EncodeChar) = cs := by
  induction cs with
  | nil => rfl
  | cons c cs ih => rw [List.flatMap_cons, decodeUtf8_utf8EncodeChar, ih]

/-! ## Texts -/

theorem toList_encode (s : String) :
    (encode s).toList = (s.toList.flatMap String.utf8EncodeChar).flatMap encodeByte :=
  String.toList_ofList

theorem isCoded_encode (s : String) : IsCoded (encode s).toList := by
  intro c hc
  rw [toList_encode] at hc
  obtain ⟨b, -, hb⟩ := List.mem_flatMap.1 hc
  exact isCoded_of_mem_encodeByte hb

theorem decodeRuns_of_isVisible {cs : List Char} (h : IsVisible cs) (run : List Char) :
    decodeRuns run cs = decodeUtf8 0 0 0 0 (triplets (run.reverse ++ cs)) := by
  induction cs generalizing run with
  | nil => rw [decodeRuns, List.append_nil]
  | cons c cs ih =>
      obtain ⟨hc, hcs⟩ := isVisible_cons.1 h
      rw [decodeRuns, if_pos (by omega), ih hcs, List.reverse_cons, List.append_assoc,
        List.singleton_append]

theorem decode_encode (s : String) : decode (encode s) = s := by
  rw [decode, decodeRuns_of_isVisible (isCoded_encode s).isVisible, toList_encode,
    List.reverse_nil, List.nil_append, triplets_flatMap_encodeByte, decodeUtf8_flatMap,
    String.ofList_toList]

theorem decodeQuery_encode (s : String) : decodeQuery (encode s) = s := by
  have hplus : (encode s).toList.map (fun c => if c = '+' then ' ' else c) = (encode s).toList := by
    refine (List.map_congr_left fun c hc => ?_).trans (List.map_id _)
    exact if_neg (ne_of_isCoded (isCoded_encode s c hc) (by decide))
  rw [decodeQuery, hplus, String.ofList_toList, decode_encode]

/-! ## Texts that stand for themselves -/

theorem encode_char_of_isUnreserved {c : Char} (h : isUnreserved c = true) :
    (String.utf8EncodeChar c).flatMap encodeByte = [c] := by
  have hascii : c.toNat < 127 := (visible_of_isCoded (isCoded_of_isUnreserved h)).2
  have hbyte : (UInt8.ofNat c.toNat).toNat = c.toNat :=
    UInt8.toNat_ofNat_of_lt' (Nat.lt_trans hascii (by decide))
  have hencode : encodeByte (UInt8.ofNat c.toNat) = [c] := by
    unfold encodeByte
    dsimp only
    rw [hbyte, Char.ofNat_toNat, if_pos h]
  have hutf8 : String.utf8EncodeChar c = [UInt8.ofNat c.toNat] :=
    if_pos (Nat.le_of_lt hascii)
  rw [hutf8, List.flatMap_singleton, hencode]

/-- Each percent sign is written with two more characters. -/
theorem length_encode {cs : List Char} (h : IsCoded cs) :
    ((cs.flatMap String.utf8EncodeChar).flatMap encodeByte).length =
      cs.length + 2 * cs.count '%' := by
  induction cs with
  | nil => rfl
  | cons c cs ih =>
      have ih := ih fun d hd => h d (List.mem_cons_of_mem _ hd)
      rw [List.flatMap_cons, List.flatMap_append, List.length_append, ih, List.length_cons,
        List.count_cons]
      by_cases hc : isUnreserved c = true
      · have hne : ¬ (c == '%') = true := by
          rw [beq_iff_eq]
          rintro rfl
          exact absurd hc (by decide)
        rw [encode_char_of_isUnreserved hc, if_neg hne, List.length_singleton]
        omega
      · have hpercent : c = '%' := by
          simpa [isCoded, hc] using h c List.mem_cons_self
        rw [hpercent]
        show 3 + _ = _
        rw [if_pos (by decide)]
        omega

theorem encode_eq_self_iff {s : String} :
    encode s = s ↔ ∀ c ∈ s.toList, isUnreserved c = true := by
  constructor
  · intro h
    have hcoded : IsCoded s.toList := h ▸ isCoded_encode s
    have hlength : s.toList.length = s.toList.length + 2 * s.toList.count '%' := by
      rw [← length_encode hcoded, ← toList_encode, h]
    have hpercent : '%' ∉ s.toList := List.count_eq_zero.1 (by omega)
    intro c hc
    have hne : c ≠ '%' := fun h => hpercent (h ▸ hc)
    simpa [isCoded, hne] using hcoded c hc
  · intro h
    have hself : ∀ cs : List Char, (∀ c ∈ cs, isUnreserved c = true) →
        (cs.flatMap String.utf8EncodeChar).flatMap encodeByte = cs := by
      intro cs hcs
      rw [List.flatMap_assoc]
      exact (List.flatMap_congr fun c hc => encode_char_of_isUnreserved (hcs c hc)).trans
        (List.flatMap_singleton' cs)
    rw [← String.toList_inj, toList_encode, hself _ h]

theorem encode_ne_empty {s : String} (h : s ≠ "") : encode s ≠ "" := by
  intro hs
  have hdecode := decode_encode s
  rw [hs] at hdecode
  exact h hdecode.symm

theorem encode_injective : Function.Injective encode :=
  Function.LeftInverse.injective decode_encode

/-! ## Segments -/

/-- Whether a character is a decimal digit or one of the capitals A to F. -/
def isUpperHexDigit (c : Char) : Bool := ('0' ≤ c && c ≤ '9') || ('A' ≤ c && c ≤ 'F')

/-- A sequence of unreserved characters and triplets. -/
inductive IsSegment : List Char → Prop
  | nil : IsSegment []
  | unreserved {c : Char} {cs : List Char} (char : isUnreserved c = true) (rest : IsSegment cs) :
    IsSegment (c :: cs)
  | triplet {a b : Char} {cs : List Char} (first : isUpperHexDigit a = true)
    (second : isUpperHexDigit b = true) (rest : IsSegment cs) : IsSegment ('%' :: a :: b :: cs)

theorem isUpperHexDigit_upperHexDigit {n : Nat} (h : n < 16) :
    isUpperHexDigit (upperHexDigit n) = true := by
  have hdigits : ∀ n < 16, isUpperHexDigit (upperHexDigit n) = true := by decide
  exact hdigits n h

theorem isSegment_encodeByte (b : UInt8) {cs : List Char} (h : IsSegment cs) :
    IsSegment (encodeByte b ++ cs) := by
  have hb : b.toNat < 256 := b.toNat_lt
  unfold encodeByte
  dsimp only
  split_ifs with hc
  · exact .unreserved hc h
  · exact .triplet (isUpperHexDigit_upperHexDigit (by omega))
      (isUpperHexDigit_upperHexDigit (by omega)) h

theorem isSegment_encode (s : String) : IsSegment (encode s).toList := by
  rw [toList_encode]
  induction s.toList.flatMap String.utf8EncodeChar with
  | nil => exact .nil
  | cons b bs ih => exact isSegment_encodeByte b ih

end TransferPlan.Text.Percent
