import TransferPlan.Json.Reader
import TransferPlan.Proofs.Compile.Calls

/-!
# Quoted texts as JSON

A quoted text is a JSON string, and a list of quoted texts is a JSON array of strings
(`Json.read?_encode`, `Json.read?_quotedList`).  These and insert arguments are read back whatever
the texts hold, so that no two inputs are written alike (`quoted_texts_decode`).
-/

namespace TransferPlan

/-! ## Strings and arrays of strings -/

namespace Json

/-- The items of a list of quoted texts, its closing bracket, and what follows it. -/
def quotedItems (xs : List String) (rest : List Char) : List Char :=
  [','].intercalate (xs.map fun x => Text.Quoted.encodeList x.toList) ++ ']' :: rest

theorem skipSpace_cons {c : Char} (h : c ∉ [' ', '\n', '\r', '\t']) (cs : List Char) :
    skipSpace (c :: cs) = c :: cs := by
  simp only [List.mem_cons, List.not_mem_nil, or_false, not_or] at h
  simp [skipSpace, h]

/-- One step is enough for a literal, whatever follows it. -/
theorem readValue_literal (s : String) (rest : List Char) (fuel : Nat) :
    readValue (fuel + 1) (Text.Quoted.encodeList s.toList ++ rest) = some (.string s, rest) := by
  obtain ⟨body, hbody⟩ : ∃ body, Text.Quoted.encodeList s.toList ++ rest = '"' :: body :=
    ⟨_, List.cons_append⟩
  have hread : readString ('"' :: body) = some (s, rest) := by
    rw [readString, ← hbody, Text.Quoted.read_encodeList, Option.map_some, String.ofList_toList]
  rw [hbody, readValue, skipSpace_cons (by decide)]
  simp only [hread, Option.map_some]

theorem readItems_of_close (x : String) (done : List Json) (rest : List Char) (fuel : Nat) :
    readItems (fuel + 2) done (Text.Quoted.encodeList x.toList ++ ']' :: rest) =
      some (.array (done.reverse ++ [.string x]), rest) := by
  rw [readItems, readValue_literal]
  simp only [skipSpace_cons (show ']' ∉ [' ', '\n', '\r', '\t'] by decide), List.reverse_cons]

theorem readItems_of_comma (x : String) (done : List Json) (rest : List Char) (fuel : Nat) :
    readItems (fuel + 2) done (Text.Quoted.encodeList x.toList ++ ',' :: rest) =
      readItems (fuel + 1) (.string x :: done) rest := by
  rw [readItems, readValue_literal]
  simp only [skipSpace_cons (show ',' ∉ [' ', '\n', '\r', '\t'] by decide)]

theorem quotedItems_singleton (x : String) (rest : List Char) :
    quotedItems [x] rest = Text.Quoted.encodeList x.toList ++ ']' :: rest := by
  simp [quotedItems]

theorem quotedItems_cons_cons (x y : String) (xs : List String) (rest : List Char) :
    quotedItems (x :: y :: xs) rest =
      Text.Quoted.encodeList x.toList ++ ',' :: quotedItems (y :: xs) rest := by
  simp [quotedItems, List.intercalate_cons_cons]

theorem exists_quotedItems_eq (x : String) (xs : List String) (rest : List Char) :
    ∃ body, quotedItems (x :: xs) rest = '"' :: body := by
  cases xs with
  | nil => exact ⟨_, quotedItems_singleton x rest⟩
  | cons y xs => exact ⟨_, quotedItems_cons_cons x y xs rest⟩

theorem two_le_length_encodeList (cs : List Char) : 2 ≤ (Text.Quoted.encodeList cs).length := by
  simp [Text.Quoted.encodeList]

/-- The items are read in order.  As many steps as characters are enough, since each item has two
quotes and takes two steps. -/
theorem readItems_quotedItems (x : String) (xs : List String) (done : List Json)
    (rest : List Char) {fuel : Nat} (h : (quotedItems (x :: xs) rest).length ≤ fuel) :
    readItems fuel done (quotedItems (x :: xs) rest) =
      some (.array (done.reverse ++ (x :: xs).map .string), rest) := by
  induction xs generalizing x done fuel with
  | nil =>
      have hquotes := two_le_length_encodeList x.toList
      rw [quotedItems_singleton, List.length_append] at h
      obtain ⟨fuel, rfl⟩ : ∃ n, fuel = n + 2 := Nat.exists_eq_add_of_le' (by omega)
      rw [quotedItems_singleton, readItems_of_close, List.map_singleton]
  | cons y xs ih =>
      have hquotes := two_le_length_encodeList x.toList
      rw [quotedItems_cons_cons, List.length_append, List.length_cons] at h
      obtain ⟨fuel, rfl⟩ : ∃ n, fuel = n + 2 := Nat.exists_eq_add_of_le' (by omega)
      calc readItems (fuel + 2) done (quotedItems (x :: y :: xs) rest)
          = readItems (fuel + 1) (.string x :: done) (quotedItems (y :: xs) rest) := by
            rw [quotedItems_cons_cons, readItems_of_comma]
        _ = some (.array ((.string x :: done).reverse ++ (y :: xs).map .string), rest) :=
            ih y _ (by omega)
        _ = some (.array (done.reverse ++ (x :: y :: xs).map .string), rest) := by
            simp only [List.reverse_cons, List.append_assoc, List.singleton_append, List.map_cons]

/-- A quoted text is a JSON string. -/
theorem read?_encode (s : String) : read? (Text.Quoted.encode s) = some (.string s) := by
  have hread := readValue_literal s [] (Text.Quoted.encodeList s.toList).length
  rw [List.append_nil] at hread
  simp only [read?, toList_encode, hread]
  rfl

/-- An array whose first item is a literal. -/
theorem readValue_array (body : List Char) (fuel : Nat) :
    readValue (fuel + 1) ('[' :: '"' :: body) = readItems fuel [] ('"' :: body) := by
  rw [readValue, skipSpace_cons (by decide)]
  simp only [skipSpace_cons (show '"' ∉ [' ', '\n', '\r', '\t'] by decide)]
  rfl

/-- A list of quoted texts is a JSON array of strings. -/
theorem read?_quotedList (xs : List String) :
    read? (quotedList xs) = some (.array (xs.map .string)) := by
  have hlist : (quotedList xs).toList = '[' :: quotedItems xs [] := toList_quotedList xs
  cases xs with
  | nil =>
      rw [read?, hlist]
      rfl
  | cons x xs =>
      obtain ⟨body, hbody⟩ := exists_quotedItems_eq x xs []
      have hitems := readItems_quotedItems x xs [] [] (Nat.le_succ _)
      rw [hbody] at hlist hitems
      simp only [read?, hlist, readValue_array, List.length_cons] at hitems ⊢
      rw [hitems]
      rfl

end Json

/-! ## Recovering texts -/

/-- What is read back from every text that is written tells the inputs apart. -/
theorem injective_of_read {α β : Type} {write : α → β} {read : β → Option α}
    (h : ∀ a, read (write a) = some a) : Function.Injective write := fun a b hab => by
  have hread := h a
  rw [hab, h b] at hread
  exact (Option.some.inj hread).symm

/-- A quoted text is a JSON string for the text itself, without raw control characters.  The texts
of a list are got back from both of its forms, so that no two lists have the same form. -/
theorem quoted_texts_decode :
    (∀ s, Json.read? (Text.Quoted.encode s) = some (.string s) ∧
      ∀ c ∈ (Text.Quoted.encode s).toList, 32 ≤ c.toNat) ∧
    (∀ xs, Json.read? (quotedList xs) = some (.array (xs.map .string))) ∧
    (∀ columns, readArguments (insertArguments columns) = some columns) ∧
    Function.Injective Text.Quoted.encode ∧ Function.Injective quotedList ∧
      Function.Injective insertArguments := by
  refine ⟨fun s => ⟨Json.read?_encode s, fun c hc => ?_⟩, Json.read?_quotedList,
    readArguments_insertArguments, injective_of_read Text.Quoted.decode_encode,
    injective_of_read readTexts_quotedList, injective_of_read readArguments_insertArguments⟩
  rw [toList_encode] at hc
  exact Text.Quoted.le_toNat_of_mem_encodeList hc

end TransferPlan
