import TransferPlan.Proofs.Compile.Assignments

/-!
# Script blocks are read back

A block opens, declares its functions, fills in the output and closes.  The code of a function is
arbitrary text, so a block is read for given codes: each one is taken off where its declaration has
to hold it, and what is declared is the name (`Script.readDeclarations`).  The lines behind the
declarations hold no code and are read one by one.  A block gives back the functions and the lines
of its scripts and nothing else (`Script.readBlock_block`).
-/

namespace TransferPlan

open Text (IsLine isLine_append isLine_encode)

theorem linesOf_append (s t : String) : linesOf (s ++ "\n" ++ t) = linesOf s ++ linesOf t := by
  have htext : (s ++ "\n" ++ t).toList = s.toList ++ '\n' :: t.toList := by simp
  rw [linesOf, htext, splitOn_append_cons, List.map_append]
  rfl

theorem linesOf_of_isLine {s : String} (h : IsLine s) : linesOf s = [s] := by
  have hone : linesOf ("\n".intercalate [s]) = [s] :=
    linesOf_intercalate (by simpa using h) (by simp)
  simpa using hone

theorem dropPrefix?_append (front rest : List Char) :
    (front ++ rest).dropPrefix? front = some rest :=
  List.dropPrefix?_append_of_beq rest (beq_self_eq_true front)

namespace Script

variable {scripts : List Script}

/-! ## Names -/

theorem le_toNat_of_isNameCharacter {c : Char} (h : isNameCharacter c = true) : 32 ≤ c.toNat := by
  simp only [isNameCharacter, Bool.or_eq_true, Bool.and_eq_true, decide_eq_true_eq, beq_iff_eq] at h
  rcases h with ((⟨h, -⟩ | ⟨h, -⟩) | ⟨h, -⟩) | rfl
  · exact Nat.le_trans (by decide) h
  · exact Nat.le_trans (by decide) h
  · exact Nat.le_trans (by decide) h
  · decide

theorem isNameCharacter_of_mem_functionName (column : String) :
    ∀ c ∈ (functionName column).toList, isNameCharacter c = true := by
  intro c hc
  have hfront : "fn_".toList.all isNameCharacter = true := by decide
  rw [functionName, String.toList_append, List.mem_append] at hc
  rcases hc with hc | hc
  · exact List.all_eq_true.1 hfront c hc
  · rw [String.toList_ofList] at hc
    obtain ⟨d, -, rfl⟩ := List.mem_map.1 hc
    split_ifs with hd
    · exact hd
    · decide

theorem isLine_functionName (column : String) : IsLine (functionName column) := fun c hc =>
  le_toNat_of_isNameCharacter (isNameCharacter_of_mem_functionName column c hc)

/-- Reads a name off the front of a text. -/
def readName (text : List Char) : String × List Char :=
  (String.ofList (text.takeWhile isNameCharacter), text.dropWhile isNameCharacter)

theorem readName_functionName (column : String) {rest : List Char} (h : rest.head? = some '(') :
    readName ((functionName column).toList ++ rest) = (functionName column, rest) := by
  have hname := isNameCharacter_of_mem_functionName column
  obtain ⟨rest, rfl⟩ : ∃ tail, rest = '(' :: tail := List.head?_eq_some_iff.1 h
  have hstop : ¬ isNameCharacter '(' = true := by decide
  rw [readName, List.takeWhile_append_of_pos hname, List.dropWhile_append_of_pos hname,
    List.takeWhile_cons_of_neg hstop, List.dropWhile_cons_of_neg hstop, List.append_nil,
    String.ofList_toList]

/-! ## Declarations -/

/-- Reads the declaration of a function with the given code off the front of a text: its name. -/
def readDeclaration (code : String) (text : List Char) : Option (String × List Char) := do
  let text ← text.dropPrefix? "function ".toList
  let (name, text) := readName text
  let text ← text.dropPrefix? "(value, input)\x7b\n  ".toList
  let text ← text.dropPrefix? code.toList
  let text ← text.dropPrefix? "\n\x7d;".toList
  return (name, text)

theorem readDeclaration_declaration (s : Script) (rest : List Char) :
    readDeclaration s.code (s.declaration.toList ++ rest) = some (functionName s.column, rest) := by
  have hname : readName ((functionName s.column).toList ++
      ("(value, input)\x7b\n  ".toList ++ (s.code.toList ++ ("\n\x7d;".toList ++ rest)))) =
        (functionName s.column,
          "(value, input)\x7b\n  ".toList ++ (s.code.toList ++ ("\n\x7d;".toList ++ rest))) :=
    readName_functionName s.column rfl
  have hdeclaration : s.declaration.toList ++ rest = "function ".toList ++
      ((functionName s.column).toList ++ ("(value, input)\x7b\n  ".toList ++
        (s.code.toList ++ ("\n\x7d;".toList ++ rest)))) := by
    simp only [declaration, String.toList_append, List.append_assoc]
  simp only [readDeclaration, hdeclaration, dropPrefix?_append, hname, Option.bind_eq_bind,
    Option.bind_some, Option.pure_def]

/-- Reads the declarations of functions with the given codes, one after the other, each closed by a
line feed: their names and codes. -/
def readDeclarations : List String → List Char → Option (List (String × String) × List Char)
  | [], text => some ([], text)
  | code :: codes, text => do
    let (name, text) ← readDeclaration code text
    let text ← text.dropPrefix? ['\n']
    let (functions, text) ← readDeclarations codes text
    return ((name, code) :: functions, text)

theorem readDeclarations_append (scripts : List Script) (rest : List Char) :
    readDeclarations (scripts.map (·.code))
        (scripts.flatMap (fun s => s.declaration.toList ++ ['\n']) ++ rest) =
      some (scripts.map fun s => (functionName s.column, s.code), rest) := by
  induction scripts with
  | nil => rfl
  | cons s scripts ih =>
      simp only [List.map_cons, List.flatMap_cons, List.append_assoc, readDeclarations,
        readDeclaration_declaration, dropPrefix?_append, ih, Option.bind_eq_bind, Option.bind_some,
        Option.pure_def]

/-! ## Lines of the output -/

/-- The column that a line fills in and the name that it calls: `output[`, a literal of the column,
`] = `, the name and its arguments, the value of the column and the whole input. -/
def readOutput (line : String) : Option (String × String) := do
  let text ← line.toList.dropPrefix? "output[".toList
  let (column, text) ← Text.Quoted.read text
  let text ← text.dropPrefix? "] = ".toList
  let (name, text) := readName text
  let text ← text.dropPrefix? "(input[".toList
  let (argument, text) ← Text.Quoted.read text
  if argument = column ∧ text = "], input);".toList then some (String.ofList column, name) else none

theorem readOutput_outputLine (s : Script) :
    readOutput s.outputLine = some (s.column, functionName s.column) := by
  have hline : s.outputLine.toList = "output[".toList ++
      (Text.Quoted.encodeList s.column.toList ++ ("] = ".toList ++
        ((functionName s.column).toList ++ ("(input[".toList ++
          (Text.Quoted.encodeList s.column.toList ++ "], input);".toList))))) := by
    simp only [outputLine, String.toList_append, toList_encode, List.append_assoc]
  have hname : readName ((functionName s.column).toList ++ ("(input[".toList ++
      (Text.Quoted.encodeList s.column.toList ++ "], input);".toList))) =
        (functionName s.column, "(input[".toList ++
          (Text.Quoted.encodeList s.column.toList ++ "], input);".toList)) :=
    readName_functionName s.column rfl
  simp only [readOutput, hline, dropPrefix?_append, Text.Quoted.read_encodeList, hname,
    Option.bind_eq_bind, Option.bind_some, and_self, if_true, String.ofList_toList]

theorem isLine_outputLine (s : Script) : IsLine s.outputLine := by
  simp only [outputLine, isLine_append, isLine_encode, isLine_functionName, and_true]
  decide

/-! ## Blocks -/

/-- What a script block says. -/
structure Block where
  /-- The functions that it declares, each a name with its code. -/
  functions : List (String × String)
  /-- The columns that it fills in, each with the name that it calls. -/
  outputs : List (String × String)
deriving DecidableEq

/-- The line in front of those that fill in the output. -/
def outputStart : String := "const output = \x7b ...input \x7d;"

/-- Reads a block in which functions with the given codes are declared.  An empty text is the block
of no function. -/
def readBlock (codes : List String) (text : String) : Option Block := do
  if text = "" then return ⟨[], []⟩
  let text ← text.toList.dropPrefix? "(() => \x7b\n".toList
  let (functions, text) ← readDeclarations codes text
  let lines := linesOf (String.ofList text)
  let filled := (lines.drop 2).dropLast.dropLast
  if lines = ["const input = benthos.v0_msg_as_structured();", outputStart] ++ filled ++
      ["benthos.v0_msg_set_structured(output);", "\x7d)();"] then
    return ⟨functions, ← filled.mapM readOutput⟩
  else none

/-- What a block holds behind its declarations. -/
def closing (scripts : List Script) : String :=
  "const input = benthos.v0_msg_as_structured();" ++ "\n" ++ outputStart ++ "\n" ++
    "\n".intercalate (scripts.map outputLine) ++ "\n" ++
    "benthos.v0_msg_set_structured(output);" ++ "\n" ++ "\x7d)();"

theorem block_eq (h : scripts ≠ []) :
    block scripts =
      "(() => \x7b\n" ++ "\n".intercalate (scripts.map declaration) ++ "\n" ++ closing scripts := by
  have hinput : "\nconst input = benthos.v0_msg_as_structured();\n" =
      "\n" ++ ("const input = benthos.v0_msg_as_structured();" ++ "\n") := by simp
  have hstart : "const output = \x7b ...input \x7d;\n" =
      "const output = \x7b ...input \x7d;" ++ "\n" := by simp
  have hset : "\nbenthos.v0_msg_set_structured(output);\n\x7d)();" =
      "\n" ++ ("benthos.v0_msg_set_structured(output);" ++ ("\n" ++ "\x7d)();")) := by simp
  have hsome : ¬ scripts.isEmpty = true := by simpa using h
  unfold block closing outputStart
  rw [if_neg hsome, hinput, hstart, hset]
  simp only [String.append_assoc, -String.reduceAppend]

theorem linesOf_closing (h : scripts ≠ []) :
    linesOf (closing scripts) =
      ["const input = benthos.v0_msg_as_structured();", outputStart] ++ scripts.map outputLine ++
        ["benthos.v0_msg_set_structured(output);", "\x7d)();"] := by
  have hout : linesOf ("\n".intercalate (scripts.map outputLine)) = scripts.map outputLine := by
    refine linesOf_intercalate (fun l hl => ?_) (by simpa using h)
    obtain ⟨s, -, rfl⟩ := List.mem_map.1 hl
    exact s.isLine_outputLine
  have hinput : linesOf "const input = benthos.v0_msg_as_structured();" =
      ["const input = benthos.v0_msg_as_structured();"] := linesOf_of_isLine (by decide)
  have hstart : linesOf outputStart = [outputStart] := linesOf_of_isLine (by decide)
  have hset : linesOf "benthos.v0_msg_set_structured(output);" =
      ["benthos.v0_msg_set_structured(output);"] := linesOf_of_isLine (by decide)
  have hend : linesOf "\x7d)();" = ["\x7d)();"] := linesOf_of_isLine (by decide)
  unfold closing
  rw [linesOf_append, linesOf_append, linesOf_append, linesOf_append, hinput, hstart, hout, hset,
    hend]
  simp only [List.append_assoc, List.cons_append, List.nil_append]

/-- Texts with line feeds between them and one at the end. -/
theorem toList_intercalate_append {l : List String} (h : l ≠ []) (rest : String) :
    ("\n".intercalate l ++ "\n" ++ rest).toList =
      l.flatMap (fun s => s.toList ++ ['\n']) ++ rest.toList := by
  induction l with
  | nil => exact absurd rfl h
  | cons s l ih =>
      cases l with
      | nil => simp
      | cons t l =>
          have hrest := ih (List.cons_ne_nil t l)
          simp only [String.toList_append] at hrest
          simp only [String.intercalate_cons_cons, String.toList_append, List.append_assoc,
            List.flatMap_cons] at hrest ⊢
          rw [hrest]
          rfl

/-- A block says what its scripts say, in their order. -/
theorem readBlock_block (scripts : List Script) :
    readBlock (scripts.map (·.code)) (block scripts) =
      some ⟨scripts.map fun s => (functionName s.column, s.code),
        scripts.map fun s => (s.column, functionName s.column)⟩ := by
  by_cases h : scripts = []
  · subst h
    rfl
  have hne : block scripts ≠ "" := by
    rw [block_eq h]
    simp
  have htext : (block scripts).toList = "(() => \x7b\n".toList ++
      (scripts.flatMap (fun s => s.declaration.toList ++ ['\n']) ++ (closing scripts).toList) := by
    rw [block_eq h, String.append_assoc, String.append_assoc, String.toList_append,
      ← String.append_assoc, toList_intercalate_append (by simpa using h), List.flatMap_map]
  have hlines := linesOf_closing h
  have hfilled : ((linesOf (closing scripts)).drop 2).dropLast.dropLast =
      scripts.map outputLine := by
    rw [hlines]
    simp [List.dropLast_append_of_ne_nil]
  have houtputs : (scripts.map outputLine).mapM readOutput =
      some (scripts.map fun s => (s.column, functionName s.column)) :=
    mapM_map_eq_some fun s _ => s.readOutput_outputLine
  simp only [readBlock, hne, if_false, htext, dropPrefix?_append, readDeclarations_append,
    String.ofList_toList, hfilled, houtputs, Option.bind_eq_bind, Option.bind_some, Option.pure_def]
  rw [if_pos hlines]

end Script

end TransferPlan
