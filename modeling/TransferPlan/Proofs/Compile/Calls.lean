import TransferPlan.Proofs.Compile.Arguments
import TransferPlan.Proofs.Lists
import TransferPlan.Proofs.Text.Pieces

/-!
# Reading calls back

A call is a function with named arguments between parentheses.  A reader that knows string literals
and brackets gets back the function and the arguments in their order, whatever texts the values
hold, and the quoted values decode to the column and to the texts of the settings
(`Mapping.read_back_exactly`).
-/

namespace TransferPlan

/-! ## Reading -/

/-- A key and its value, with a colon between them. -/
def readArgument (piece : List Char) : Option (String × String) :=
  match Text.splitFirst ':' piece with
  | (key, some value) => some (String.ofList key, String.ofList value)
  | (_, none) => none

/-- The function of a call and its arguments: what stands between the outer parentheses is cut at
the commas outside literals and brackets, and each piece at its first colon. -/
def readCall (s : String) : Option (String × List (String × String)) :=
  match Text.splitFirst '(' s.toList with
  | (function, some rest) => do
    let arguments ← (← Text.enclosed ')' rest).mapM readArgument
    return (String.ofList function, arguments)
  | (_, none) => none

/-- The texts of a list of literals in brackets. -/
def readTexts (s : String) : Option (List String) :=
  match s.toList with
  | '[' :: rest => do
    (← Text.enclosed ']' rest).mapM fun piece => Text.Quoted.decode (String.ofList piece)
  | _ => none

/-- The column of a path in the row that was read. -/
def readColumn (s : String) : Option String :=
  match readInputPath s.toList with
  | some (column, []) => some column
  | _ => none

theorem readColumn_inputPath (column : String) : readColumn (inputPath column) = some column := by
  have hread := readInputPath_inputPath column []
  rw [List.append_nil] at hread
  rw [readColumn, hread]

theorem toList_encode (s : String) :
    (Text.Quoted.encode s).toList = Text.Quoted.encodeList s.toList := by
  rw [Text.Quoted.encode, String.toList_ofList]

theorem toList_quotedList (xs : List String) :
    (quotedList xs).toList =
      '[' :: ([','].intercalate (xs.map fun x => Text.Quoted.encodeList x.toList) ++ [']']) := by
  simp [quotedList, Function.comp_def, toList_encode]

theorem readTexts_quotedList (xs : List String) : readTexts (quotedList xs) = some xs := by
  let literals := xs.map fun x => Text.Quoted.encodeList x.toList
  have henclosed : Text.enclosed ']' ([','].intercalate literals ++ [']']) = some literals := by
    refine Text.enclosed_intercalate ']' fun t ht => ?_
    obtain ⟨x, -, rfl⟩ := List.mem_map.1 ht
    exact ⟨List.cons_ne_nil _ _, Text.uncut_literal _⟩
  have hdecode : literals.mapM (fun piece => Text.Quoted.decode (String.ofList piece)) =
      some (xs.map id) :=
    mapM_map_eq_some fun x _ => Text.Quoted.decode_encode x
  rw [readTexts, toList_quotedList]
  simp only [literals, Option.bind_eq_bind] at henclosed hdecode ⊢
  rw [henclosed, Option.bind_some, hdecode, List.map_id]

/-! ## Calls of plain names -/

/-- The arguments of a call, each key with the text of its value. -/
def Call.rendered (c : Call) : List (String × String) := c.arguments.map fun a => (a.1, a.2.render)

theorem Call.lookup_rendered (c : Call) (key : String) :
    c.rendered.lookup key = (c.arguments.lookup key).map Argument.render := by
  rw [rendered]
  induction c.arguments with
  | nil => rfl
  | cons a l ih =>
      rw [List.map_cons, List.lookup_cons, List.lookup_cons, ih]
      split <;> rfl

theorem Call.decode_lookup {c : Call} {key s : String}
    (h : c.arguments.lookup key = some (.text s)) :
    (c.rendered.lookup key).bind Text.Quoted.decode = some s := by
  rw [c.lookup_rendered, h, Option.map_some, Option.bind_some, Argument.render,
    Text.Quoted.decode_encode]

/-- The function and the keys of a call are plain texts. -/
structure Call.IsPlain (c : Call) : Prop where
  function : Text.IsPlain c.function
  keys : ∀ a ∈ c.arguments, Text.IsPlain a.1

theorem Argument.uncut_render (a : Argument) : Text.Uncut 0 a.render.toList := by
  cases a with
  | number n => exact Text.uncut_of_isPlain (Text.isPlain_int n)
  | decimal x => exact Text.uncut_of_isPlain (Text.isPlain_fixed x)
  | switch b =>
      have hplain : Text.IsPlain (render (.switch b)) := by cases b <;> decide
      exact Text.uncut_of_isPlain hplain
  | text s =>
      rw [render, toList_encode]
      exact Text.uncut_literal _
  | texts xs =>
      rw [render, toList_quotedList]
      refine (Text.uncut_intercalate fun t ht => ?_).brackets
      obtain ⟨x, -, rfl⟩ := List.mem_map.1 ht
      exact Text.uncut_literal _
  | column name =>
      rw [render, inputPath, String.toList_append, toList_encode]
      have hplain : Text.IsPlain "this." := by decide
      exact (Text.uncut_of_isPlain hplain).append (Text.uncut_literal _)

/-- The text of an argument of a call. -/
def Call.piece (a : String × Argument) : List Char := a.1.toList ++ ':' :: a.2.render.toList

theorem readArgument_piece {a : String × Argument} (h : Text.IsPlain a.1) :
    readArgument (Call.piece a) = some (a.1, a.2.render) := by
  have hcolon : ':' ∉ a.1.toList := fun hc => Text.ne_of_isPlain (h _ hc) (by decide) rfl
  rw [readArgument, Call.piece, Text.splitFirst_append hcolon]
  simp

theorem Call.toList_render (c : Call) :
    c.render.toList =
      c.function.toList ++ '(' :: ([','].intercalate (c.arguments.map Call.piece) ++ [')']) := by
  have hpiece : Call.piece = fun a : String × Argument => a.1.toList ++ ':' :: a.2.render.toList :=
    rfl
  simp [render, Function.comp_def, hpiece]

theorem readCall_render {c : Call} (h : c.IsPlain) :
    readCall c.render = some (c.function, c.rendered) := by
  -- Plain names hold none of the marks, so the first parenthesis is the one that opens the call.
  have hopen : '(' ∉ c.function.toList := fun hc =>
    Text.ne_of_isPlain (h.function _ hc) (by decide) rfl
  let pieces := c.arguments.map Call.piece
  have henclosed : Text.enclosed ')' ([','].intercalate pieces ++ [')']) = some pieces := by
    refine Text.enclosed_intercalate ')' fun t ht => ?_
    obtain ⟨a, ha, rfl⟩ := List.mem_map.1 ht
    have hkey : Text.Uncut 0 a.1.toList := Text.uncut_of_isPlain (h.keys a ha)
    have hcolon : Text.Uncut 0 [':'] := Text.uncut_singleton (by decide)
    exact ⟨by simp [Call.piece], hkey.append (hcolon.append a.2.uncut_render)⟩
  have hread : pieces.mapM readArgument = some c.rendered :=
    mapM_map_eq_some fun a ha => readArgument_piece (h.keys a ha)
  rw [readCall, c.toList_render, Text.splitFirst_append hopen]
  simp only [pieces, Option.bind_eq_bind] at henclosed hread ⊢
  rw [henclosed, Option.bind_some, hread, Option.bind_some, String.ofList_toList]
  rfl

/-! ## Calls of settings -/

namespace Config

variable {config : Config} {column : String} {limit : Option Int} {c : Call}

/-- The keys that arguments have, in the order of the calls. -/
def argumentKeys : List String :=
  ["value", "preserve_domain", "preserve_length", "excluded_domains", "valid_luhn", "abbreviate",
    "max_length", "email_type", "invalid_email_action", "randomize_sign", "min", "max", "precision",
    "generate_full_name", "include_hyphens", "categories", "randomization_range_min",
    "randomization_range_max", "user_provided_regex"]

/-- A call is named for its source, but for random strings. -/
theorem function_of_call? (h : config.call? column limit = some c) :
    c.function =
      if config.source = .generateRandomString then "generate_string" else config.source.name := by
  cases config with
  | passthrough | generateNull | generateDefault | transformJavascript | userDefined =>
      exact nomatch h
  | _ => exact Option.some.inj h ▸ rfl

theorem keys_sublist (h : config.call? column limit = some c) :
    (c.arguments.map (·.1)).Sublist argumentKeys := by
  cases config with
  | passthrough | generateNull | generateDefault | transformJavascript | userDefined =>
      exact nomatch h
  | transformCharacterScramble r =>
      obtain rfl := Option.some.inj h
      cases r with
      | none => exact List.isSublist_iff_sublist.1 rfl
      | some r =>
          -- An empty expression counts as none.
          by_cases hr : r = "" <;> simp [hr, argumentKeys]
  | _ =>
      obtain rfl := Option.some.inj h
      cases limit <;> exact List.isSublist_iff_sublist.1 rfl

theorem isPlain_name (s : Source) : Text.IsPlain s.name := by
  cases s <;> decide

theorem isPlain_of_call? (h : config.call? column limit = some c) : c.IsPlain where
  function := by
    rw [function_of_call? h]
    split_ifs
    · decide
    · exact isPlain_name _
  keys := fun a ha =>
    have hplain : ∀ k ∈ argumentKeys, Text.IsPlain k := by decide
    hplain _ ((keys_sublist h).subset (List.mem_map_of_mem ha))

/-! ## Quoted values -/

/-- What the quoted values among the arguments of a call hold, in which no key stands twice: the
column, and the texts of the settings under their keys. -/
structure Quotes (config : Config) (column : String) (arguments : List (String × String)) :
    Prop where
  keys : (arguments.map (·.1)).Nodup
  value : ∀ v, arguments.lookup "value" = some v → readColumn v = some column
  categories : ∀ s, config = .generateCategorical s →
    (arguments.lookup "categories").bind Text.Quoted.decode = some s
  regex : ∀ r, config = .transformCharacterScramble (some r) → r ≠ "" →
    (arguments.lookup "user_provided_regex").bind Text.Quoted.decode = some r
  excludedDomains : ∀ preserveDomain preserveLength domains emailType action,
    config = .transformEmail preserveDomain preserveLength domains emailType action →
      (arguments.lookup "excluded_domains").bind readTexts = some domains
  emailType : ∀ t : Option EmailType, config = .generateEmail t ∨
    (∃ preserveDomain preserveLength domains action,
      config = .transformEmail preserveDomain preserveLength domains t action) →
      (arguments.lookup "email_type").bind Text.Quoted.decode = some (t.getD .uuidV4).name
  invalidAction : ∀ preserveDomain preserveLength domains emailType action,
    config = .transformEmail preserveDomain preserveLength domains emailType action →
      (arguments.lookup "invalid_email_action").bind Text.Quoted.decode =
        some (action.getD .reject).name

theorem eq_column_of_lookup (h : config.call? column limit = some c) {a : Argument}
    (ha : c.arguments.lookup "value" = some a) : a = .column column := by
  cases config with
  | passthrough | generateNull | generateDefault | transformJavascript | userDefined =>
      exact nomatch h
  | _ =>
      obtain rfl := Option.some.inj h
      first
      | exact (Option.some.inj ha).symm
      | (cases limit <;> exact nomatch ha)

theorem lookup_emailType {t : Option EmailType} (h : config.call? column limit = some c)
    (ht : config = .generateEmail t ∨ ∃ preserveDomain preserveLength domains action,
      config = .transformEmail preserveDomain preserveLength domains t action) :
    c.arguments.lookup "email_type" = some (.text (t.getD .uuidV4).name) := by
  rcases ht with rfl | ⟨_, _, _, _, rfl⟩ <;> obtain rfl := Option.some.inj h <;>
    cases limit <;> rfl

theorem quotes_of_call? (h : config.call? column limit = some c) :
    config.Quotes column c.rendered where
  keys := by
    have hdistinct : argumentKeys.Nodup := by decide
    rw [Call.rendered, List.map_map]
    exact hdistinct.sublist (keys_sublist h)
  value := fun v hv => by
    rw [c.lookup_rendered, Option.map_eq_some_iff] at hv
    obtain ⟨a, ha, rfl⟩ := hv
    rw [eq_column_of_lookup h ha]
    exact readColumn_inputPath column
  categories := by
    rintro s rfl
    obtain rfl := Option.some.inj h
    exact Call.decode_lookup rfl
  regex := by
    rintro r rfl hr
    obtain rfl := Option.some.inj h
    have hkept : (some r).toList.filter (· != "") = [r] := by simp [hr]
    exact Call.decode_lookup (by rw [hkept]; rfl)
  excludedDomains := by
    rintro _ _ domains _ _ rfl
    obtain rfl := Option.some.inj h
    exact readTexts_quotedList domains
  emailType := fun t ht => Call.decode_lookup (lookup_emailType h ht)
  invalidAction := by
    rintro _ _ _ _ action rfl
    obtain rfl := Option.some.inj h
    exact Call.decode_lookup (by cases limit <;> rfl)

/-! ## Settings without their texts -/

/-- The settings without the texts that calls quote.  Of a regular expression it is kept whether
there is one. -/
def withoutTexts : Config → Config
  | transformEmail preserveDomain preserveLength _ emailType action =>
    transformEmail preserveDomain preserveLength [] emailType action
  | generateCategorical _ => generateCategorical ""
  | transformCharacterScramble r =>
    transformCharacterScramble ((r.filter (· ≠ "")).map fun _ => ".")
  | c => c

theorem source_withoutTexts (c : Config) : c.withoutTexts.source = c.source := by
  cases c <;> rfl

/-- The keys whose values hold texts. -/
def textKeys : List String := ["value", "excluded_domains", "categories", "user_provided_regex"]

/-- The arguments without the texts in their values. -/
def withoutTextValues (arguments : List (String × String)) : List (String × String) :=
  arguments.map fun a => if a.1 ∈ textKeys then (a.1, "") else a

/-- Apart from the texts in the values, the texts of the settings and the column make no
difference to a call. -/
theorem withoutTextValues_call? (config : Config) (column column' : String) (limit : Option Int) :
    (config.call? column limit).map (fun c => (c.function, withoutTextValues c.rendered)) =
      (config.withoutTexts.call? column' limit).map
        fun c => (c.function, withoutTextValues c.rendered) := by
  cases config with
  | transformCharacterScramble r =>
      cases r with
      | none => simp [call?, withoutTexts, Call.rendered, withoutTextValues, textKeys]
      | some r =>
          by_cases hr : r = "" <;>
            simp [call?, withoutTexts, Call.rendered, withoutTextValues, textKeys, hr,
              Option.filter]
  | _ => simp [call?, withoutTexts, call?.keepLength, Call.rendered, withoutTextValues, textKeys]

theorem call?_of_withoutTexts {config' : Config} (column' : String)
    (hconfig : config'.withoutTexts = config.withoutTexts)
    (h : config.call? column limit = some c) :
    ∃ c', config'.call? column' limit = some c' ∧ c'.function = c.function ∧
      withoutTextValues c'.rendered = withoutTextValues c.rendered := by
  have hcall := withoutTextValues_call? config' column' column limit
  rw [hconfig, ← withoutTextValues_call? config column column limit, h, Option.map_some,
    Option.map_eq_some_iff] at hcall
  obtain ⟨c', hc', heq⟩ := hcall
  exact ⟨c', hc', Prod.mk.inj heq⟩

end Config

/-! ## Calls of mappings -/

/-- The transformer without the texts that calls quote. -/
def Transformer.withoutTexts (t : Transformer) : Transformer :=
  { t with config := t.config.map Config.withoutTexts }

theorem Transformer.ownConfig_of_withoutTexts {t t' : Transformer} {column : String}
    {config : Config} (column' : String) (ht : t'.withoutTexts = t.withoutTexts)
    (h : t.ownConfig column true = .ok config) :
    ∃ config', t'.ownConfig column' true = .ok config' ∧
      config'.withoutTexts = config.withoutTexts := by
  obtain ⟨hsource, hconfig⟩ := Transformer.mk.inj ht
  cases hown : t.config with
  | none =>
      have hown' : t'.config = none := by simpa [hown] using hconfig
      simp only [ownConfig, hown, hown', hsource, if_true] at h ⊢
      cases hempty : Config.empty? t.source with
      | none => exact nomatch hempty ▸ h
      | some c =>
          rw [hempty] at h
          obtain rfl := Except.ok.inj h
          exact ⟨c, rfl, rfl⟩
  | some c =>
      obtain ⟨c', hown', hc'⟩ : ∃ c', t'.config = some c' ∧ c'.withoutTexts = c.withoutTexts := by
        simpa [hown] using hconfig
      have hsame : c'.source = c.source := by
        rw [← Config.source_withoutTexts, hc', Config.source_withoutTexts]
      simp only [ownConfig, hown] at h
      split_ifs at h with hc
      obtain rfl := Except.ok.inj h
      refine ⟨c', ?_, hc'⟩
      simp only [ownConfig, hown', hsame, hc, hsource, if_true]

namespace Mapping

variable {m : Mapping} {t : Transformer} {info : Option Column} {e : Expression}

/-- Unless the column is set to null or its default, its expression is a call. -/
theorem expression_eq_ok_iff (ht : m.transformer = some t) (hnull : t.source ≠ .generateNull)
    (hdefault : t.source ≠ .generateDefault) :
    m.expression info = .ok e ↔
      t.source.hasExpression = true ∧ ∃ config c, t.ownConfig m.column true = .ok config ∧
        config.call? m.column (info.bind Column.lengthBound?) = some c ∧ e = .call c := by
  simp only [expression, ht]
  cases t.source.hasExpression with
  | false => exact ⟨(nomatch ·), fun h => nomatch h.1⟩
  | true =>
      simp only [Bool.not_true, Bool.false_eq_true, if_false, true_and, bind_eq_ok_iff]
      refine exists_congr fun config => ?_
      cases config.call? m.column (info.bind Column.lengthBound?) with
      | none => exact ⟨fun h => (nomatch h.2), fun ⟨_, _, h, _⟩ => nomatch h⟩
      | some c => simp [pure, Except.pure, eq_comm]

/-- The reader gets back from a rendered call the function and the arguments in their order; the
quoted values decode to the column and to the texts of the settings.  With other texts and another
column the call has the same function and the same arguments apart from the quoted texts. -/
theorem read_back_exactly (ht : m.transformer = some t) (hnull : t.source ≠ .generateNull)
    (hdefault : t.source ≠ .generateDefault) (h : m.expression info = .ok e) :
    ∃ config c, t.ownConfig m.column true = .ok config ∧
      config.call? m.column (info.bind Column.lengthBound?) = some c ∧ e = .call c ∧
      readCall e.render = some (c.function, c.rendered) ∧
      config.Quotes m.column c.rendered ∧
      ∀ (m' : Mapping) (t' : Transformer), m'.transformer = some t' →
        t'.withoutTexts = t.withoutTexts →
        ∃ e' arguments, m'.expression info = .ok e' ∧
          readCall e'.render = some (c.function, arguments) ∧
          Config.withoutTextValues arguments = Config.withoutTextValues c.rendered := by
  obtain ⟨hhas, config, c, hconfig, hcall, rfl⟩ := (expression_eq_ok_iff ht hnull hdefault).1 h
  refine ⟨config, c, hconfig, hcall, rfl, readCall_render (Config.isPlain_of_call? hcall),
    Config.quotes_of_call? hcall, fun m' t' ht' htexts => ?_⟩
  have hsource : t'.source = t.source := (Transformer.mk.inj htexts).1
  obtain ⟨config', hconfig', hsame⟩ :=
    Transformer.ownConfig_of_withoutTexts m'.column htexts hconfig
  obtain ⟨c', hcall', hfunction, harguments⟩ :=
    Config.call?_of_withoutTexts m'.column hsame hcall
  refine ⟨.call c', c'.rendered, ?_, ?_, harguments⟩
  · exact (expression_eq_ok_iff ht' (hsource ▸ hnull) (hsource ▸ hdefault)).2
      ⟨hsource ▸ hhas, config', c', hconfig', hcall', rfl⟩
  · rw [← hfunction]
    exact readCall_render (Config.isPlain_of_call? hcall')

/-- An address whose column and whose excluded domains hold quotes, colons, commas and brackets. -/
def address : Mapping :=
  ⟨"public", "staff", "to:\"home\", (old",
    some ⟨.transformEmail, some (.transformEmail true false ["a, b", "c]\"(d", ""] none none)⟩⟩

def addressCall : Call :=
  ⟨"transform_email",
    [("value", .column "to:\"home\", (old"), ("preserve_domain", .switch true),
      ("preserve_length", .switch false), ("excluded_domains", .texts ["a, b", "c]\"(d", ""]),
      ("max_length", .number 40), ("email_type", .text "uuidv4"),
      ("invalid_email_action", .text "reject")]⟩

theorem read_back_exactly_address :
    address.expression (some { maxLength := some 40 }) = .ok (.call addressCall) ∧
      readCall addressCall.render = some ("transform_email", addressCall.rendered) ∧
      (addressCall.rendered.lookup "excluded_domains").bind readTexts =
        some ["a, b", "c]\"(d", ""] := by
  have hexpression : address.expression (some { maxLength := some 40 }) =
      .ok (.call addressCall) := rfl
  obtain ⟨config, c, hconfig, -, hc, hread, hquotes, -⟩ :=
    read_back_exactly rfl (by decide) (by decide) hexpression
  obtain rfl := Expression.call.inj hc
  obtain rfl := Except.ok.inj hconfig
  exact ⟨hexpression, hread, hquotes.excludedDomains _ _ _ _ _ rfl⟩

end Mapping

end TransferPlan
