import TransferPlan.Reading.Value
import TransferPlan.Transformer.Source

/-!
# Transformer settings

Every source but the unspecified one has settings of its own kind, many of them empty.  Settings
are read from a record that names their kind and knows no other fields.
-/

namespace TransferPlan

/-! ## Named choices -/

/-- How generated e-mail addresses look. -/
inductive EmailType where
  | uuidV4
  | fullName
  | any
deriving DecidableEq, Repr

namespace EmailType

def name : EmailType → String
  | .uuidV4 => "uuidv4"
  | .fullName => "fullname"
  | .any => "any"

def ofName? (s : String) : Option EmailType := [uuidV4, fullName, any].find? (·.name == s)

end EmailType

/-- What is done with a value that is no e-mail address. -/
inductive InvalidEmailAction where
  | reject
  | null
  | passthrough
  | generate
deriving DecidableEq, Repr

namespace InvalidEmailAction

def name : InvalidEmailAction → String
  | .reject => "reject"
  | .null => "null"
  | .passthrough => "passthrough"
  | .generate => "generate"

def ofName? (s : String) : Option InvalidEmailAction :=
  [reject, null, passthrough, generate].find? (·.name == s)

end InvalidEmailAction

/-! ## Settings -/

/-- The settings of a transformer, one constructor for each kind. -/
inductive Config where
  | passthrough
  | generateNull
  | generateDefault
  | generateEmail (emailType : Option EmailType)
  | transformEmail (preserveDomain preserveLength : Bool) (excludedDomains : List String)
      (emailType : Option EmailType) (invalidAction : Option InvalidEmailAction)
  | generateBool
  | generateCardNumber (validLuhn : Bool)
  | generateCity
  | generateE164PhoneNumber (min max : Int)
  | generateFirstName
  | generateFloat64 (randomizeSign : Bool) (min max : Binary64) (precision : Int)
  | generateFullAddress
  | generateFullName
  | generateGender (abbreviate : Bool)
  | generateInt64PhoneNumber
  | generateInt64 (randomizeSign : Bool) (min max : Int)
  | generateLastName
  | generateSha256hash
  | generateSsn
  | generateState (fullName : Bool)
  | generateStreetAddress
  | generateStringPhoneNumber (min max : Int)
  | generateRandomString (min max : Int)
  | generateUnixtimestamp
  | generateUsername
  | generateUtctimestamp
  | generateUuid (includeHyphens : Bool)
  | generateZipcode
  | generateCategorical (categories : String)
  | generateCountry (fullName : Bool)
  | transformE164PhoneNumber (preserveLength : Bool)
  | transformFirstName (preserveLength : Bool)
  | transformFloat64 (rangeMin rangeMax : Binary64)
  | transformFullName (preserveLength : Bool)
  | transformInt64PhoneNumber (preserveLength : Bool)
  | transformInt64 (rangeMin rangeMax : Int)
  | transformLastName (preserveLength : Bool)
  | transformPhoneNumber (preserveLength : Bool)
  | transformString (preserveLength : Bool)
  | transformCharacterScramble (regex : Option String)
  | transformJavascript (code : String)
  | userDefined (id : String)
deriving DecidableEq, Repr

namespace Config

/-- The source that the settings belong to. -/
def source : Config → Source
  | passthrough => .passthrough
  | generateNull => .generateNull
  | generateDefault => .generateDefault
  | generateEmail .. => .generateEmail
  | transformEmail .. => .transformEmail
  | generateBool => .generateBool
  | generateCardNumber .. => .generateCardNumber
  | generateCity => .generateCity
  | generateE164PhoneNumber .. => .generateE164PhoneNumber
  | generateFirstName => .generateFirstName
  | generateFloat64 .. => .generateFloat64
  | generateFullAddress => .generateFullAddress
  | generateFullName => .generateFullName
  | generateGender .. => .generateGender
  | generateInt64PhoneNumber => .generateInt64PhoneNumber
  | generateInt64 .. => .generateInt64
  | generateLastName => .generateLastName
  | generateSha256hash => .generateSha256hash
  | generateSsn => .generateSsn
  | generateState .. => .generateState
  | generateStreetAddress => .generateStreetAddress
  | generateStringPhoneNumber .. => .generateStringPhoneNumber
  | generateRandomString .. => .generateRandomString
  | generateUnixtimestamp => .generateUnixtimestamp
  | generateUsername => .generateUsername
  | generateUtctimestamp => .generateUtctimestamp
  | generateUuid .. => .generateUuid
  | generateZipcode => .generateZipcode
  | generateCategorical .. => .generateCategorical
  | generateCountry .. => .generateCountry
  | transformE164PhoneNumber .. => .transformE164PhoneNumber
  | transformFirstName .. => .transformFirstName
  | transformFloat64 .. => .transformFloat64
  | transformFullName .. => .transformFullName
  | transformInt64PhoneNumber .. => .transformInt64PhoneNumber
  | transformInt64 .. => .transformInt64
  | transformLastName .. => .transformLastName
  | transformPhoneNumber .. => .transformPhoneNumber
  | transformString .. => .transformString
  | transformCharacterScramble .. => .transformCharacterScramble
  | transformJavascript .. => .transformJavascript
  | userDefined .. => .userDefined

/-- The name of the kind of the settings. -/
def kindName (c : Config) : String := (c.source.kindName?).getD ""

/-- The settings of a source that takes none. -/
def empty? : Source → Option Config
  | .passthrough => some passthrough
  | .generateNull => some generateNull
  | .generateDefault => some generateDefault
  | .generateBool => some generateBool
  | .generateCity => some generateCity
  | .generateFirstName => some generateFirstName
  | .generateFullAddress => some generateFullAddress
  | .generateFullName => some generateFullName
  | .generateInt64PhoneNumber => some generateInt64PhoneNumber
  | .generateLastName => some generateLastName
  | .generateSha256hash => some generateSha256hash
  | .generateSsn => some generateSsn
  | .generateStreetAddress => some generateStreetAddress
  | .generateUnixtimestamp => some generateUnixtimestamp
  | .generateUsername => some generateUsername
  | .generateUtctimestamp => some generateUtctimestamp
  | .generateZipcode => some generateZipcode
  | _ => none

/-! ## Reading -/

open RecordReader in
/-- A switch that is off unless set. -/
def switch (name : String) : RecordReader Bool := optional name false Reading.bool

open RecordReader in
/-- The kind of generated e-mail addresses. -/
def emailTypeField : RecordReader (Option EmailType) :=
  optional "email_type" none (Reading.nullable (Reading.oneOf EmailType.ofName?))

/-- The fields of the settings of a source, its kind aside. -/
def fields? (s : Source) : Option (RecordReader Config) :=
  let whole (name : String) := RecordReader.required name Reading.int
  let decimal (name : String) := RecordReader.required name Reading.float
  let keepLength := switch "preserve_length"
  match s with
  | .unspecified => none
  | .generateEmail => some (generateEmail <$> emailTypeField)
  | .transformEmail =>
    some (transformEmail <$> switch "preserve_domain" <*> keepLength
      <*> RecordReader.optional "excluded_domains" [] (Reading.list Reading.string)
      <*> emailTypeField
      <*> RecordReader.optional "invalid_email_action" none
        (Reading.nullable (Reading.oneOf InvalidEmailAction.ofName?)))
  | .generateCardNumber => some (generateCardNumber <$> switch "valid_luhn")
  | .generateE164PhoneNumber => some (generateE164PhoneNumber <$> whole "min" <*> whole "max")
  | .generateFloat64 =>
    some (generateFloat64 <$> switch "randomize_sign" <*> decimal "min" <*> decimal "max"
      <*> whole "precision")
  | .generateGender => some (generateGender <$> switch "abbreviate")
  | .generateInt64 =>
    some (generateInt64 <$> switch "randomize_sign" <*> whole "min" <*> whole "max")
  | .generateState => some (generateState <$> switch "generate_full_name")
  | .generateStringPhoneNumber =>
    some (generateStringPhoneNumber <$> whole "min" <*> whole "max")
  | .generateRandomString => some (generateRandomString <$> whole "min" <*> whole "max")
  | .generateUuid =>
    some (generateUuid <$> RecordReader.optional "include_hyphens" true Reading.bool)
  | .generateCategorical =>
    some (generateCategorical <$> RecordReader.required "categories" Reading.string)
  | .generateCountry => some (generateCountry <$> switch "generate_full_name")
  | .transformE164PhoneNumber => some (transformE164PhoneNumber <$> keepLength)
  | .transformFirstName => some (transformFirstName <$> keepLength)
  | .transformFloat64 =>
    some (transformFloat64 <$> decimal "randomization_range_min"
      <*> decimal "randomization_range_max")
  | .transformFullName => some (transformFullName <$> keepLength)
  | .transformInt64PhoneNumber => some (transformInt64PhoneNumber <$> keepLength)
  | .transformInt64 =>
    some (transformInt64 <$> whole "randomization_range_min" <*> whole "randomization_range_max")
  | .transformLastName => some (transformLastName <$> keepLength)
  | .transformPhoneNumber => some (transformPhoneNumber <$> keepLength)
  | .transformString => some (transformString <$> keepLength)
  | .transformCharacterScramble =>
    some (transformCharacterScramble <$>
      RecordReader.optional "user_provided_regex" none (Reading.nullable Reading.string))
  | .transformJavascript =>
    some (transformJavascript <$> RecordReader.optional "code" "" Reading.string)
  | .userDefined => some (userDefined <$> RecordReader.required "id" Reading.string)
  | s => (empty? s).map pure

/-- The field that names the kind. -/
def kindField : RecordReader Unit := RecordReader.optional "kind" () fun _ => .value ()

/-- Reads settings: a record whose kind says which fields it has, and no others. -/
def ofJson : Json → Reading Config
  | .object fields =>
    match Keyed.value? "kind" fields with
    | none => Reading.fail .unionTagNotFound
    | some (.string kind) =>
      match (Source.ofKindName? kind).bind fields? with
      | some reader =>
        ((fun (_ : Unit) (c : Config) => c) <$> kindField <*> reader).closed fields
          |>.under (.field kind)
      | none => Reading.fail .unionTagInvalid
    | some _ => Reading.fail .unionTagInvalid
  | _ => Reading.fail .modelAttributesType

/-! ## Writing -/

/-- Every setting with its name, defaults included, without the kind. -/
def settings : Config → List (String × Json)
  | generateEmail emailType => [("email_type", nameOrNull (emailType.map (·.name)))]
  | transformEmail preserveDomain preserveLength excludedDomains emailType invalidAction =>
    [("preserve_domain", .bool preserveDomain), ("preserve_length", .bool preserveLength),
      ("excluded_domains", .array (excludedDomains.map .string)),
      ("email_type", nameOrNull (emailType.map (·.name))),
      ("invalid_email_action", nameOrNull (invalidAction.map (·.name)))]
  | generateCardNumber validLuhn => [("valid_luhn", .bool validLuhn)]
  | generateE164PhoneNumber min max | generateStringPhoneNumber min max
  | generateRandomString min max => [("min", .int min), ("max", .int max)]
  | generateFloat64 randomizeSign min max precision =>
    [("randomize_sign", .bool randomizeSign), ("min", .float min), ("max", .float max),
      ("precision", .int precision)]
  | generateGender abbreviate => [("abbreviate", .bool abbreviate)]
  | generateInt64 randomizeSign min max =>
    [("randomize_sign", .bool randomizeSign), ("min", .int min), ("max", .int max)]
  | generateState fullName | generateCountry fullName => [("generate_full_name", .bool fullName)]
  | generateUuid includeHyphens => [("include_hyphens", .bool includeHyphens)]
  | generateCategorical categories => [("categories", .string categories)]
  | transformE164PhoneNumber preserveLength | transformFirstName preserveLength
  | transformFullName preserveLength | transformInt64PhoneNumber preserveLength
  | transformLastName preserveLength | transformPhoneNumber preserveLength
  | transformString preserveLength => [("preserve_length", .bool preserveLength)]
  | transformFloat64 min max =>
    [("randomization_range_min", .float min), ("randomization_range_max", .float max)]
  | transformInt64 min max =>
    [("randomization_range_min", .int min), ("randomization_range_max", .int max)]
  | transformCharacterScramble regex => [("user_provided_regex", nameOrNull regex)]
  | transformJavascript code => [("code", .string code)]
  | userDefined id => [("id", .string id)]
  | _ => []
where
  nameOrNull : Option String → Json
    | some s => .string s
    | none => .null

end Config

end TransferPlan
