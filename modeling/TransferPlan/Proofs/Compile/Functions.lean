import TransferPlan.Proofs.Compile.Blocks
import TransferPlan.Proofs.Compile.Treatment

/-!
# Functions of scripts

The function of a column is named for the column, with an underscore in the place of each character
that a name cannot hold.  Two columns share a name exactly if they are alike in every place, and
what a name calls is what was declared under it last.  So the functions that are read off a block
are told apart exactly if no two of its columns are alike (`functions_told_apart_iff`), which names
as different as `first name` and `first-name` can be (`first_names_share_function`).
-/

namespace TransferPlan

namespace Script

/-! ## Names -/

/-- The two characters are the same in the name of a function: they are equal, or each is an
underscore or cannot stand in a name. -/
def Alike (c d : Char) : Prop :=
  c = d ∨ (isNameCharacter c = true → c = '_') ∧ (isNameCharacter d = true → d = '_')

instance (c d : Char) : Decidable (Alike c d) := by
  unfold Alike
  infer_instance

/-- The columns have the same length and are alike in every place. -/
def AlikeNames (a b : String) : Prop := List.Forall₂ Alike a.toList b.toList

instance (a b : String) : Decidable (AlikeNames a b) :=
  inferInstanceAs (Decidable (List.Forall₂ Alike a.toList b.toList))

theorem alike_iff {c d : Char} :
    Alike c d ↔
      (if isNameCharacter c then c else '_') = (if isNameCharacter d then d else '_') := by
  have hmark : isNameCharacter '_' = true := by decide
  unfold Alike
  split_ifs <;> grind

theorem functionName_eq_iff {a b : String} :
    functionName a = functionName b ↔ AlikeNames a b := by
  rw [functionName, functionName, String.append_right_inj, String.ofList_inj,
    ← List.forall₂_eq_eq_eq, List.forall₂_map_left_iff, List.forall₂_map_right_iff, AlikeNames]
  simp only [← alike_iff]

theorem AlikeNames.eq {a b : String} (h : AlikeNames a b)
    (ha : ∀ c ∈ a.toList, isNameCharacter c = true)
    (hb : ∀ c ∈ b.toList, isNameCharacter c = true) : a = b := by
  have hkeep : ∀ {s : String}, (∀ c ∈ s.toList, isNameCharacter c = true) →
      functionName s = "fn_" ++ s := fun {s} hs => by
    have hmap : s.toList.map (fun c => if isNameCharacter c then c else '_') = s.toList :=
      (List.map_congr_left fun c hc => if_pos (hs c hc)).trans (List.map_id _)
    rw [functionName, hmap, String.ofList_toList]
  have hname := functionName_eq_iff.2 h
  rw [hkeep ha, hkeep hb] at hname
  exact String.append_right_inj _ |>.1 hname

/-! ## Calls -/

variable {scripts : List Script}

/-- The functions that scripts declare, each a name with its code. -/
def functions (scripts : List Script) : List (String × String) :=
  scripts.map fun s => (functionName s.column, s.code)

/-- The code that a name calls among declared functions: a later declaration takes the place of an
earlier one. -/
def called? (functions : List (String × String)) (name : String) : Option String :=
  (functions.reverse.find? (·.1 = name)).map (·.2)

/-- The name of the function of a script calls some code of a script with that name. -/
theorem exists_called {s : Script} (hs : s ∈ scripts) :
    ∃ s' ∈ scripts, functionName s'.column = functionName s.column ∧
      called? (functions scripts) (functionName s.column) = some s'.code := by
  cases hfind : (functions scripts).reverse.find? (·.1 = functionName s.column) with
  | none =>
      have hmem : (functionName s.column, s.code) ∈ (functions scripts).reverse :=
        List.mem_reverse.2 (List.mem_map_of_mem hs)
      have hne := List.find?_eq_none.1 hfind _ hmem
      exact absurd (decide_eq_true rfl) hne
  | some f =>
      obtain ⟨s', hs', rfl⟩ := List.mem_map.1 (List.mem_reverse.1 (List.mem_of_find?_eq_some hfind))
      refine ⟨s', hs', by simpa using List.find?_some hfind, ?_⟩
      rw [called?, hfind, Option.map_some]

/-- Every column gets the result of its own code exactly if alike columns have the same code. -/
theorem forall_called_iff :
    (∀ s ∈ scripts, called? (functions scripts) (functionName s.column) = some s.code) ↔
      ∀ s ∈ scripts, ∀ s' ∈ scripts, AlikeNames s.column s'.column → s.code = s'.code := by
  constructor
  · intro h s hs s' hs' hsame
    have hname := functionName_eq_iff.2 hsame
    exact Option.some.inj ((h s hs).symm.trans (hname ▸ h s' hs'))
  · intro h s hs
    obtain ⟨s', hs', hname, hcalled⟩ := exists_called hs
    rw [hcalled, h s' hs' s hs (functionName_eq_iff.1 hname)]

/-- No name is declared twice exactly if no two columns are alike. -/
theorem nodup_functions_iff :
    ((functions scripts).map (·.1)).Nodup ↔
      scripts.Pairwise fun s s' => ¬ AlikeNames s.column s'.column := by
  rw [List.Nodup, functions, List.map_map, List.pairwise_map]
  simp only [Function.comp_apply, ne_eq, functionName_eq_iff]

end Script

/-! ## Blocks -/

/-- The code of a mapping that runs a script, if it is not empty. -/
def Mapping.code? (m : Mapping) : Option String :=
  match m.transformer with
  | some ⟨.transformJavascript, some (.transformJavascript code)⟩ =>
    if code = "" then none else some code
  | _ => none

theorem script_eq_ok_code? {m : Mapping} {o : Option Script} (h : m.script = .ok o) :
    o = m.code?.map (Script.mk m.column) := by
  by_cases hs : ∃ t, m.transformer = some t ∧ t.source = .transformJavascript
  · obtain ⟨code, ht, rfl⟩ := script_eq_ok h hs
    rw [Mapping.code?, ht]
    by_cases hcode : code = "" <;> simp [hcode]
  · obtain rfl := Except.ok.inj ((script_of_ne hs).symm.trans h)
    have hnone : m.code? = none := by
      unfold Mapping.code?
      split
      · next ht => exact absurd ⟨_, ht, rfl⟩ hs
      · rfl
    rw [hnone, Option.map_none]

theorem scripts_eq_ok {mappings : List Mapping} {ss : List Script} (h : scripts mappings = .ok ss) :
    ss = mappings.filterMap fun m => m.code?.map (Script.mk m.column) := by
  obtain ⟨os, hos, rfl⟩ := map_eq_ok_iff.1 h
  obtain ⟨hall, rfl⟩ := eq_filterMap_of_mapM hos
  rw [List.filterMap_filterMap]
  refine List.filterMap_congr fun m hm => ?_
  obtain ⟨o, ho⟩ := hall m hm
  rw [ho, ← script_eq_ok_code? ho]
  rfl

section

variable {mappings : List Mapping} {text : String}

/-- The functions and the lines of the output are read off a block: it declares a function for each
mapping that runs a script, and each of these columns calls its function by name.  No name is
declared twice exactly if no two of the columns are alike, and every column gets the result of its
own code exactly if alike columns have the same code.  Columns whose names are letters, digits and
underscores only are told apart. -/
theorem functions_told_apart_iff (h : scriptBlock mappings = .ok text) :
    ∃ (ss : List Script) (b : Script.Block),
      ss = mappings.filterMap (fun m => m.code?.map (Script.mk m.column)) ∧
      text = Script.block ss ∧ Script.readBlock (ss.map (·.code)) text = some b ∧
      b.functions = ss.map (fun s => (Script.functionName s.column, s.code)) ∧
      b.outputs = ss.map (fun s => (s.column, Script.functionName s.column)) ∧
      ((b.functions.map (·.1)).Nodup ↔
        ss.Pairwise fun s s' => ¬ Script.AlikeNames s.column s'.column) ∧
      ((∀ s ∈ ss, Script.called? b.functions (Script.functionName s.column) = some s.code) ↔
        ∀ s ∈ ss, ∀ s' ∈ ss, Script.AlikeNames s.column s'.column → s.code = s'.code) ∧
      ((mappings.map (·.column)).Nodup →
        (∀ s ∈ ss, ∀ c ∈ s.column.toList, Script.isNameCharacter c = true) →
          (b.functions.map (·.1)).Nodup) := by
  obtain ⟨ss, hss, rfl⟩ := map_eq_ok_iff.1 h
  refine ⟨ss, _, scripts_eq_ok hss, rfl, Script.readBlock_block ss, rfl, rfl,
    Script.nodup_functions_iff, Script.forall_called_iff, ?_⟩
  intro hnd hplain
  have hapart : ss.Pairwise fun s s' => s.column ≠ s'.column := by
    -- Every script keeps the column of its mapping.
    rw [scripts_eq_ok hss, List.pairwise_filterMap]
    refine (List.pairwise_map.1 hnd).imp fun {m m'} hne s hs s' hs' => ?_
    obtain ⟨_, -, rfl⟩ := Option.map_eq_some_iff.1 hs
    obtain ⟨_, -, rfl⟩ := Option.map_eq_some_iff.1 hs'
    exact hne
  apply Script.nodup_functions_iff.2
  refine hapart.imp_of_mem fun hs hs' hne hsame => ?_
  exact hne (hsame.eq (hplain _ hs) (hplain _ hs'))

/-- Two columns whose names agree up to their last places. -/
def fullNames : List Mapping :=
  [⟨"public", "staff", "full name",
      some ⟨.transformJavascript, some (.transformJavascript "return 'x';")⟩⟩,
    ⟨"public", "staff", "full-names",
      some ⟨.transformJavascript, some (.transformJavascript "return value;")⟩⟩]

theorem functions_told_apart_full_names :
    ∃ text b, scriptBlock fullNames = .ok text ∧
      text = Script.block [⟨"full name", "return 'x';"⟩, ⟨"full-names", "return value;"⟩] ∧
      Script.readBlock ["return 'x';", "return value;"] text = some b ∧
      b.functions = [("fn_full_name", "return 'x';"), ("fn_full_names", "return value;")] ∧
      b.outputs = [("full name", "fn_full_name"), ("full-names", "fn_full_names")] ∧
      (b.functions.map (·.1)).Nodup ∧
      Script.called? b.functions "fn_full_name" = some "return 'x';" := by
  have htext : ∃ text, scriptBlock fullNames = .ok text := ⟨_, rfl⟩
  obtain ⟨text, htext⟩ := htext
  obtain ⟨ss, b, rfl, hblock, hread, hfunctions, houtputs, hnodup, hcalled, -⟩ :=
    functions_told_apart_iff htext
  exact ⟨text, b, htext, hblock, hread, hfunctions, houtputs, hnodup.2 (by decide),
    hcalled.2 (by decide) ⟨"full name", "return 'x';"⟩ List.mem_cons_self⟩

/-- Two columns whose names differ in a character that a name of a function cannot hold. -/
def firstNames : List Mapping :=
  [⟨"public", "staff", "first name",
      some ⟨.transformJavascript, some (.transformJavascript "return 'x';")⟩⟩,
    ⟨"public", "staff", "first-name",
      some ⟨.transformJavascript, some (.transformJavascript "return value;")⟩⟩]

/-- The block declares two functions under one name, and that name calls the code of the second
column for both. -/
theorem first_names_share_function :
    (firstNames.map (·.column)).Nodup ∧
      scripts firstNames =
        .ok [⟨"first name", "return 'x';"⟩, ⟨"first-name", "return value;"⟩] ∧
      Script.functionName "first name" = Script.functionName "first-name" ∧
      ∃ text b, scriptBlock firstNames = .ok text ∧
        Script.readBlock ["return 'x';", "return value;"] text = some b ∧
        b.functions = [("fn_first_name", "return 'x';"), ("fn_first_name", "return value;")] ∧
        b.outputs = [("first name", "fn_first_name"), ("first-name", "fn_first_name")] ∧
        Script.called? b.functions (Script.functionName "first name") = some "return value;" := by
  have hnames : Script.functionName "first name" = "fn_first_name" ∧
      Script.functionName "first-name" = "fn_first_name" := by decide
  refine ⟨by decide, by rfl, by decide, _, _, rfl, Script.readBlock_block
    [⟨"first name", "return 'x';"⟩, ⟨"first-name", "return value;"⟩], ?_, ?_, ?_⟩
  · simp [hnames]
  · simp [hnames]
  · decide

end

end TransferPlan
