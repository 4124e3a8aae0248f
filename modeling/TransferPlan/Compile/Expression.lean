import TransferPlan.Schema.Column
import TransferPlan.Transformer.Mapping

/-!
# Expressions

The value that a mutation assigns to a column: null, the column's default, or the call of a
generator or transformer with named arguments.  The arguments are numbers, switches, quoted text,
lists of quoted text and column values, so that a call can be read back from its text.
-/

namespace TransferPlan

/-- Why a transformer cannot be compiled. -/
inductive TransformerError where
  | absent (column : String)
  | noExpression (source : Source) (column : String)
  | missingConfig (source : Source) (column : String)
  | mismatchedConfig (source : Source) (column kind : String)
  /-- A definition is needed and there is no place to look it up. -/
  | noLookup (column : String)
  /-- A definition leads to another definition. -/
  | nestedDefinition (column : String)
  /-- The settings name no definition. -/
  | noDefinitionConfig
deriving DecidableEq, Repr

def TransformerError.message : TransformerError → String
  | .absent column => "Column " ++ column ++ " has no transformer to compile."
  | .noExpression source column =>
    "Transformer " ++ source.name ++ " on column " ++ column ++ " does not compile to a mutation."
  | .missingConfig source column =>
    "Transformer " ++ source.name ++ " on column " ++ column ++ " is missing its configuration."
  | .mismatchedConfig source column kind =>
    "Transformer " ++ source.name ++ " on column " ++ column ++ " has a mismatched " ++ kind ++
      " configuration."
  | .noLookup column =>
    "Column " ++ column ++
      " uses a user defined transformer but no transformer lookup is configured."
  | .nestedDefinition column =>
    "User defined transformer on column " ++ column ++
      " resolved to another user defined transformer."
  | .noDefinitionConfig => "User defined transformer is missing its user_defined configuration."

/-! ## Paths -/

/-- The path of a column in the row that is being written. -/
def outputPath (column : String) : String := "root." ++ Text.Quoted.encode column

/-- The path of a column in the row that was read. -/
def inputPath (column : String) : String := "this." ++ Text.Quoted.encode column

/-- A list of quoted texts. -/
def quotedList (xs : List String) : String :=
  "[" ++ ",".intercalate (xs.map Text.Quoted.encode) ++ "]"

/-! ## Calls -/

/-- The value of a named argument.  Its whole number comes from settings or from a catalogue row,
where none has more than `Text.maxDigits` digits, so that it can always be written. -/
inductive Argument where
  | number (n : Int)
  | decimal (x : Binary64)
  | switch (b : Bool)
  | text (s : String)
  | texts (xs : List String)
  | column (name : String)
deriving DecidableEq, Repr

def Argument.render : Argument → String
  | .number n => toString n
  | .decimal x => x.fixed
  | .switch b => if b then "true" else "false"
  | .text s => Text.Quoted.encode s
  | .texts xs => quotedList xs
  | .column name => inputPath name

/-- A function with named arguments. -/
structure Call where
  function : String
  arguments : List (String × Argument)
deriving DecidableEq, Repr

def Call.render (c : Call) : String :=
  c.function ++ "(" ++ ",".intercalate (c.arguments.map fun a => a.1 ++ ":" ++ a.2.render) ++ ")"

/-- What a column is assigned. -/
inductive Expression where
  | null
  | default
  | call (c : Call)
deriving DecidableEq, Repr

def Expression.render : Expression → String
  | .null => "null"
  | .default => "\"DEFAULT\""
  | .call c => c.render

/-! ## The call of a transformer -/

/-- The bounds of a generated length, kept within a positive limit. -/
def clampLengths (low high : Int) (limit : Option Int) : Int × Int :=
  match limit with
  | none => (low, high)
  | some n => if n ≤ 0 then (low, high) else (min low (min high n), min high n)

namespace Config

/-- The argument for a limit on the length, if there is one. -/
def lengthArgument (limit : Option Int) : List (String × Argument) :=
  limit.toList.map fun n => ("max_length", .number n)

/-- The call that settings stand for, for a column with a limit on its length.  Settings that copy,
script or refer to a definition have none, nor have null and default. -/
def call? (column : String) (limit : Option Int) : Config → Option Call
  | passthrough | generateNull | generateDefault | transformJavascript _ | userDefined _ => none
  | generateBool => some ⟨"generate_bool", []⟩
  | generateInt64PhoneNumber => some ⟨"generate_int64_phone_number", []⟩
  | generateSha256hash => some ⟨"generate_sha256hash", []⟩
  | generateSsn => some ⟨"generate_ssn", []⟩
  | generateUnixtimestamp => some ⟨"generate_unixtimestamp", []⟩
  | generateUtctimestamp => some ⟨"generate_utctimestamp", []⟩
  | generateZipcode => some ⟨"generate_zipcode", []⟩
  | generateCity => some ⟨"generate_city", lengthArgument limit⟩
  | generateFirstName => some ⟨"generate_first_name", lengthArgument limit⟩
  | generateFullAddress => some ⟨"generate_full_address", lengthArgument limit⟩
  | generateFullName => some ⟨"generate_full_name", lengthArgument limit⟩
  | generateLastName => some ⟨"generate_last_name", lengthArgument limit⟩
  | generateStreetAddress => some ⟨"generate_street_address", lengthArgument limit⟩
  | generateUsername => some ⟨"generate_username", lengthArgument limit⟩
  | transformE164PhoneNumber b => some (keepLength "transform_e164_phone_number" b limit)
  | transformFirstName b => some (keepLength "transform_first_name" b limit)
  | transformFullName b => some (keepLength "transform_full_name" b limit)
  | transformInt64PhoneNumber b => some (keepLength "transform_int64_phone_number" b none)
  | transformLastName b => some (keepLength "transform_last_name" b limit)
  | transformPhoneNumber b => some (keepLength "transform_phone_number" b limit)
  | transformString b => some (keepLength "transform_string" b limit)
  | generateEmail emailType =>
    some ⟨"generate_email", lengthArgument limit ++ [emailTypeArgument emailType]⟩
  | transformEmail preserveDomain preserveLength excludedDomains emailType invalidAction =>
    some ⟨"transform_email",
      [("value", .column column), ("preserve_domain", .switch preserveDomain),
        ("preserve_length", .switch preserveLength),
        ("excluded_domains", .texts excludedDomains)] ++ lengthArgument limit ++
      [emailTypeArgument emailType,
        ("invalid_email_action", .text (invalidAction.getD .reject).name)]⟩
  | generateCardNumber validLuhn =>
    some ⟨"generate_card_number", [("valid_luhn", .switch validLuhn)]⟩
  | generateE164PhoneNumber min max => some (range "generate_e164_phone_number" (min, max))
  | generateFloat64 randomizeSign min max precision =>
    some ⟨"generate_float64",
      [("randomize_sign", .switch randomizeSign), ("min", .decimal min), ("max", .decimal max),
        ("precision", .number precision)]⟩
  | generateGender abbreviate =>
    some ⟨"generate_gender", ("abbreviate", .switch abbreviate) :: lengthArgument limit⟩
  | generateInt64 randomizeSign min max =>
    some ⟨"generate_int64",
      [("randomize_sign", .switch randomizeSign), ("min", .number min), ("max", .number max)]⟩
  | generateState fullName => some ⟨"generate_state", [("generate_full_name", .switch fullName)]⟩
  | generateCountry fullName =>
    some ⟨"generate_country", [("generate_full_name", .switch fullName)]⟩
  | generateStringPhoneNumber min max => some (range "generate_string_phone_number" (min, max))
  | generateRandomString min max => some (range "generate_string" (clampLengths min max limit))
  | generateUuid includeHyphens =>
    some ⟨"generate_uuid", [("include_hyphens", .switch includeHyphens)]⟩
  | generateCategorical categories =>
    some ⟨"generate_categorical", [("categories", .text categories)]⟩
  | transformFloat64 min max =>
    some ⟨"transform_float64",
      [("value", .column column), ("randomization_range_min", .decimal min),
        ("randomization_range_max", .decimal max)]⟩
  | transformInt64 min max =>
    some ⟨"transform_int64",
      [("value", .column column), ("randomization_range_min", .number min),
        ("randomization_range_max", .number max)]⟩
  | transformCharacterScramble regex =>
    some ⟨"transform_character_scramble",
      ("value", .column column) ::
        (regex.toList.filter (· != "")).map fun r => ("user_provided_regex", .text r)⟩
where
  keepLength (function : String) (preserveLength : Bool) (limit : Option Int) : Call :=
    ⟨function, [("value", .column column), ("preserve_length", .switch preserveLength)] ++
      lengthArgument limit⟩
  range (function : String) (bounds : Int × Int) : Call :=
    ⟨function, [("min", .number bounds.1), ("max", .number bounds.2)]⟩
  emailTypeArgument (t : Option EmailType) : String × Argument :=
    ("email_type", .text (t.getD .uuidV4).name)

end Config

/-! ## The expression of a mapping -/

/-- The settings of a transformer, when they belong to its source.  A source that takes no
settings may do without where `optional` says so. -/
def Transformer.ownConfig (t : Transformer) (column : String) (optional : Bool) :
    Except TransformerError Config :=
  match t.config with
  | some c =>
    if c.source = t.source then .ok c else .error (.mismatchedConfig t.source column c.kindName)
  | none =>
    match if optional then Config.empty? t.source else none with
    | some c => .ok c
    | none => .error (.missingConfig t.source column)

/-- The expression for the column of a mapping. -/
def Mapping.expression (m : Mapping) (info : Option Column) : Except TransformerError Expression :=
  match m.transformer with
  | none => .error (.absent m.column)
  | some t =>
    match t.source with
    | .generateNull => .ok .null
    | .generateDefault => .ok .default
    | source =>
      if !source.hasExpression then .error (.noExpression source m.column)
      else do
        let config ← t.ownConfig m.column true
        match config.call? m.column (info.bind Column.lengthBound?) with
        | some c => return .call c
        | none => throw (.noExpression source m.column)

end TransferPlan
