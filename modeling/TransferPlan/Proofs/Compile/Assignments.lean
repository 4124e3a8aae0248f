import TransferPlan.Compile.Mutation
import TransferPlan.Proofs.Compile.Calls

/-!
# One line for each assignment

The mutation of some columns has one line for each column that is assigned, and no other line.
From the front of a line the column is read back and what is left is its expression
(`assigned_line_by_line`), because neither the literal of a name nor an expression holds a line
feed, whatever texts the names and the settings hold.
-/

namespace TransferPlan

/-! ## Texts without control characters -/

namespace Text

/-- The text has no control character below U+0020, and so no line feed. -/
def IsLine (s : String) : Prop := ∀ c ∈ s.toList, 32 ≤ c.toNat

instance (s : String) : Decidable (IsLine s) :=
  List.decidableBAll (fun c : Char => 32 ≤ c.toNat) s.toList

theorem isLine_append {s t : String} : IsLine (s ++ t) ↔ IsLine s ∧ IsLine t := by
  simp only [IsLine, String.toList_append, List.forall_mem_append]

theorem isLine_intercalate {sep : String} {l : List String} (hsep : IsLine sep)
    (h : ∀ s ∈ l, IsLine s) : IsLine (sep.intercalate l) := by
  induction l with
  | nil => exact (by decide : IsLine "")
  | cons s l ih =>
      rw [List.forall_mem_cons] at h
      cases l with
      | nil => simpa using h.1
      | cons t l =>
          rw [String.intercalate_cons_cons, isLine_append, isLine_append]
          exact ⟨⟨h.1, hsep⟩, ih h.2⟩

theorem IsPlain.isLine {s : String} (h : IsPlain s) : IsLine s :=
  fun c hc => le_toNat_of_isPlain (h c hc)

theorem isLine_encode (s : String) : IsLine (Quoted.encode s) := by
  intro c hc
  rw [toList_encode] at hc
  exact Quoted.le_toNat_of_mem_encodeList hc

theorem IsLine.not_mem {s : String} (h : IsLine s) : '\n' ∉ s.toList :=
  fun hc => absurd (h _ hc) (by decide)

end Text

open Text (IsLine isLine_append isLine_intercalate isLine_encode)

theorem Argument.isLine_render (a : Argument) : IsLine a.render := by
  cases a with
  | number n => exact (Text.isPlain_int n).isLine
  | decimal x => exact (Text.isPlain_fixed x).isLine
  | switch b => cases b <;> decide
  | text s => exact isLine_encode s
  | texts xs =>
      have hxs : ∀ s ∈ xs.map Text.Quoted.encode, IsLine s := fun s hs => by
        obtain ⟨x, -, rfl⟩ := List.mem_map.1 hs
        exact isLine_encode x
      rw [render, quotedList, isLine_append, isLine_append]
      exact ⟨⟨by decide, isLine_intercalate (by decide) hxs⟩, by decide⟩
  | column name =>
      rw [render, inputPath, isLine_append]
      exact ⟨by decide, isLine_encode name⟩

theorem Call.isLine_render {c : Call} (h : c.IsPlain) : IsLine c.render := by
  have harguments : ∀ s ∈ c.arguments.map fun a => a.1 ++ ":" ++ a.2.render, IsLine s :=
    fun s hs => by
      obtain ⟨a, ha, rfl⟩ := List.mem_map.1 hs
      rw [isLine_append, isLine_append]
      exact ⟨⟨(h.keys a ha).isLine, by decide⟩, a.2.isLine_render⟩
  rw [render, isLine_append, isLine_append, isLine_append]
  exact ⟨⟨⟨h.function.isLine, by decide⟩, isLine_intercalate (by decide) harguments⟩, by decide⟩

/-- The expression of a mapping stays on its line. -/
theorem Mapping.isLine_of_expression {m : Mapping} {info : Option Column} {e : Expression}
    (h : m.expression info = .ok e) : IsLine e.render := by
  cases ht : m.transformer with
  | none => simp [expression, ht] at h
  | some t =>
      by_cases hnull : t.source = .generateNull
      · obtain rfl : .null = e := by simpa [expression, ht, hnull] using h
        decide
      · by_cases hdefault : t.source = .generateDefault
        · obtain rfl : .default = e := by simpa [expression, ht, hdefault] using h
          decide
        · obtain ⟨-, config, c, -, hcall, rfl⟩ := (expression_eq_ok_iff ht hnull hdefault).1 h
          exact Call.isLine_render (Config.isPlain_of_call? hcall)

/-! ## Lines -/

/-- The parts of a text between its line feeds. -/
def linesOf (s : String) : List String := (s.toList.splitOn '\n').map String.ofList

theorem linesOf_intercalate {lines : List String} (h : ∀ s ∈ lines, IsLine s)
    (hne : lines ≠ []) : linesOf ("\n".intercalate lines) = lines := by
  have hfeed : ∀ l ∈ lines.map String.toList, '\n' ∉ l := fun l hl => by
    obtain ⟨s, hs, rfl⟩ := List.mem_map.1 hl
    exact (h s hs).not_mem
  have htext : ("\n".intercalate lines).toList = ['\n'].intercalate (lines.map String.toList) := by
    rw [String.toList_intercalate]
    rfl
  rw [linesOf, htext, List.splitOn_intercalate '\n' hfeed (by simpa using hne), List.map_map]
  simp [Function.comp_def]

/-- The column that a line assigns and the text of its value: after `root.` a literal, and after
` = ` the rest of the line. -/
def readStatement (line : String) : Option (String × String) :=
  match line.toList with
  | 'r' :: 'o' :: 'o' :: 't' :: '.' :: rest =>
    match Text.Quoted.read rest with
    | some (column, ' ' :: '=' :: ' ' :: value) =>
      some (String.ofList column, String.ofList value)
    | _ => none
  | _ => none

theorem readStatement_append (column value : String) :
    readStatement (outputPath column ++ " = " ++ value) = some (column, value) := by
  have hline : (outputPath column ++ " = " ++ value).toList =
      'r' :: 'o' :: 'o' :: 't' :: '.' ::
        (Text.Quoted.encodeList column.toList ++ ' ' :: '=' :: ' ' :: value.toList) := by
    simp [outputPath, toList_encode]
  simp only [readStatement, hline, Text.Quoted.read_encodeList, String.ofList_toList]

theorem isLine_statement {column value : String} (h : IsLine value) :
    IsLine (outputPath column ++ " = " ++ value) := by
  rw [isLine_append, isLine_append, outputPath, isLine_append]
  exact ⟨⟨⟨by decide, isLine_encode column⟩, by decide⟩, h⟩

/-! ## Mutations -/

/-- The mapping has a transformer that neither copies its column nor runs a script. -/
def Mapping.Assigns (m : Mapping) : Prop :=
  ∃ t, m.transformer = some t ∧ t.source ∉ [.passthrough, .unspecified, .transformJavascript]

theorem Mapping.isMutated_iff {m : Mapping} : m.isMutated = true ↔ m.Assigns := by
  cases h : m.transformer with
  | none => simp [isMutated, Assigns, h]
  | some t => simp [isMutated, Assigns, h, Source.isCopy, and_assoc]

instance (m : Mapping) : Decidable m.Assigns := decidable_of_iff _ Mapping.isMutated_iff

/-- The line assigns to the column of the mapping the expression of the mapping: `root.`, a literal
of the column, ` = ` and the expression. -/
def Mapping.AssignedBy (m : Mapping) (columns : Keyed Column) (line : String) : Prop :=
  ∃ literal e, Text.Quoted.decode literal = some m.column ∧
    m.expression (columns.get? m.column) = .ok e ∧
    line = "root." ++ literal ++ " = " ++ e.render ∧
    readStatement line = some (m.column, e.render)

variable {mappings : List Mapping} {columns : Keyed Column} {text : String}

theorem assignedBy_of_mutationLine {m : Mapping} {line : String}
    (h : m.mutationLine columns = .ok line) : m.AssignedBy columns line ∧ IsLine line := by
  obtain ⟨e, he, rfl⟩ := map_eq_ok_iff.1 h
  exact ⟨⟨_, e, Text.Quoted.decode_encode m.column, he, rfl, readStatement_append _ _⟩,
    isLine_statement (m.isLine_of_expression he)⟩

/-- The lines of a mutation are the assignments of the mappings that assign, one for each in their
order.  Where no mapping assigns, the mutation is empty. -/
theorem assigned_line_by_line (h : mutation mappings columns = .ok text) :
    (mappings.filter (·.Assigns) = [] → text = "") ∧
    (mappings.filter (·.Assigns) ≠ [] →
      List.Forall₂ (fun m line => m.AssignedBy columns line) (mappings.filter (·.Assigns))
        (linesOf text)) := by
  obtain ⟨lines, hlines, rfl⟩ := map_eq_ok_iff.1 h
  have hassigns : mappings.filter (·.isMutated) = mappings.filter (·.Assigns) :=
    List.filter_congr fun m _ => by rw [Bool.eq_iff_iff, m.isMutated_iff, decide_eq_true_iff]
  rw [mutationLines, hassigns, mapM_eq_ok_iff] at hlines
  constructor
  · intro hnone
    rw [hnone, List.forall₂_nil_left_iff] at hlines
    rw [hlines]
    rfl
  · intro hsome
    -- No line holds a line feed of its own, so the cuts are those between the lines.
    have hline : ∀ s ∈ lines, IsLine s := fun s hs => by
      obtain ⟨m, -, hm⟩ := exists_of_mem_right hlines hs
      exact (assignedBy_of_mutationLine hm).2
    have hne : lines ≠ [] := fun hnil =>
      hsome (List.forall₂_nil_right_iff.1 (hnil ▸ hlines))
    rw [linesOf_intercalate hline hne]
    exact hlines.imp fun _ _ hm => (assignedBy_of_mutationLine hm).1

/-- A name and categories that hold lines like those of a mutation, between a copied column and one
with a script. -/
def forged : List Mapping :=
  [⟨"", "staff", "x\" = 1\nroot.\"y", some ⟨.generateNull, none⟩⟩,
    ⟨"", "staff", "y", some ⟨.passthrough, none⟩⟩,
    ⟨"", "staff", "z",
      some ⟨.generateCategorical, some (.generateCategorical "a\nroot.\"y\" = 1")⟩⟩,
    ⟨"", "staff", "w", some ⟨.transformJavascript, some (.transformJavascript "return 1;")⟩⟩]

theorem assigned_line_by_line_forged :
    ∃ text first second, mutation forged .empty = .ok text ∧ linesOf text = [first, second] ∧
      readStatement first = some ("x\" = 1\nroot.\"y", "null") ∧
      readStatement second =
        some ("z", "generate_categorical(categories:\"a\\nroot.\\\"y\\\" = 1\")") := by
  have htext : ∃ text, mutation forged .empty = .ok text := ⟨_, rfl⟩
  obtain ⟨text, htext⟩ := htext
  have hlines := (assigned_line_by_line htext).2 (by decide)
  have hassigns : forged.filter (·.Assigns) =
      [⟨"", "staff", "x\" = 1\nroot.\"y", some ⟨.generateNull, none⟩⟩,
        ⟨"", "staff", "z",
          some ⟨.generateCategorical, some (.generateCategorical "a\nroot.\"y\" = 1")⟩⟩] := rfl
  rw [hassigns, List.forall₂_cons_left_iff] at hlines
  obtain ⟨first, rest, ⟨_, e, -, he, -, hfirst⟩, hrest, hsplit⟩ := hlines
  rw [List.forall₂_cons_left_iff] at hrest
  obtain ⟨second, last, ⟨_, e', -, he', -, hsecond⟩, hlast, rfl⟩ := hrest
  obtain rfl := List.forall₂_nil_left_iff.1 hlast
  obtain rfl := Except.ok.inj he
  obtain rfl := Except.ok.inj he'
  refine ⟨text, first, second, htext, hsplit, hfirst, hsecond.trans ?_⟩
  decide

end TransferPlan
