import TransferPlan.Compile.Expression

/-!
# Mutations and scripts

The columns of a pass that have an expression are assigned by one mutation, a line for each.  The
columns with a script share one block: a function for each column, then one line for each that
puts the function's result into the output.
-/

namespace TransferPlan

/-! ## Mutations -/

/-- Whether a column is assigned by a line of the mutation. -/
def Mapping.isMutated (m : Mapping) : Bool :=
  match m.transformer with
  | some t => !t.source.isCopy && t.source != .transformJavascript
  | none => false

/-- The line that assigns a column. -/
def Mapping.mutationLine (m : Mapping) (columns : Keyed Column) : Except TransformerError String :=
  (m.expression (columns.get? m.column)).map fun e => outputPath m.column ++ " = " ++ e.render

/-- The lines of the mutation, in the order of the mappings. -/
def mutationLines (mappings : List Mapping) (columns : Keyed Column) :
    Except TransformerError (List String) :=
  (mappings.filter (·.isMutated)).mapM (·.mutationLine columns)

/-- The mutation of some columns; empty when no column is assigned. -/
def mutation (mappings : List Mapping) (columns : Keyed Column) : Except TransformerError String :=
  (mutationLines mappings columns).map ("\n".intercalate ·)

/-! ## Scripts -/

/-- A column with the code that computes it. -/
structure Script where
  column : String
  code : String
deriving DecidableEq, Repr

namespace Script

/-- Whether a character may stand in the name of a function. -/
def isNameCharacter (c : Char) : Bool :=
  ('A' ≤ c && c ≤ 'Z') || ('a' ≤ c && c ≤ 'z') || ('0' ≤ c && c ≤ '9') || c == '_'

/-- The name of the function of a column. -/
def functionName (column : String) : String :=
  "fn_" ++ String.ofList (column.toList.map fun c => if isNameCharacter c then c else '_')

/-- The declaration of the function. -/
def declaration (s : Script) : String :=
  "function " ++ functionName s.column ++ "(value, input)\x7b\n  " ++ s.code ++ "\n\x7d;"

/-- The line that puts the result into the output. -/
def outputLine (s : Script) : String :=
  let key := Text.Quoted.encode s.column
  "output[" ++ key ++ "] = " ++ functionName s.column ++ "(input[" ++ key ++ "], input);"

/-- The block of some scripts; empty for none. -/
def block (scripts : List Script) : String :=
  if scripts.isEmpty then ""
  else
    "(() => \x7b\n" ++ "\n".intercalate (scripts.map declaration) ++
      "\nconst input = benthos.v0_msg_as_structured();\n" ++
      "const output = \x7b ...input \x7d;\n" ++
      "\n".intercalate (scripts.map outputLine) ++
      "\nbenthos.v0_msg_set_structured(output);\n\x7d)();"

end Script

/-- The script of a column, if it has one.  A script without code is none. -/
def Mapping.script (m : Mapping) : Except TransformerError (Option Script) :=
  match m.transformer with
  | none => .ok none
  | some t =>
    if t.source = .transformJavascript then do
      match ← t.ownConfig m.column false with
      | .transformJavascript code => return if code = "" then none else some ⟨m.column, code⟩
      | _ => return none
    else .ok none

/-- The scripts of some columns, in the order of the mappings. -/
def scripts (mappings : List Mapping) : Except TransformerError (List Script) :=
  (mappings.mapM Mapping.script).map fun ss => ss.filterMap id

/-- The script block of some columns; empty when none has a script. -/
def scriptBlock (mappings : List Mapping) : Except TransformerError String :=
  (scripts mappings).map Script.block

end TransferPlan
