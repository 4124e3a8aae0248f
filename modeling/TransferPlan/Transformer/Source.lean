/-!
# Transformer sources

What is to be done with the values of a column: copy them, generate new ones, transform the ones
that are there, or whatever a definition kept elsewhere says.
-/

namespace TransferPlan

/-- The ways to obtain the values of a column. -/
inductive Source where
  | unspecified
  | passthrough
  | generateNull
  | generateDefault
  | generateEmail
  | transformEmail
  | generateBool
  | generateCardNumber
  | generateCity
  | generateE164PhoneNumber
  | generateFirstName
  | generateFloat64
  | generateFullAddress
  | generateFullName
  | generateGender
  | generateInt64PhoneNumber
  | generateInt64
  | generateLastName
  | generateSha256hash
  | generateSsn
  | generateState
  | generateStreetAddress
  | generateStringPhoneNumber
  | generateRandomString
  | generateUnixtimestamp
  | generateUsername
  | generateUtctimestamp
  | generateUuid
  | generateZipcode
  | generateCategorical
  | generateCountry
  | transformE164PhoneNumber
  | transformFirstName
  | transformFloat64
  | transformFullName
  | transformInt64PhoneNumber
  | transformInt64
  | transformLastName
  | transformPhoneNumber
  | transformString
  | transformCharacterScramble
  | transformJavascript
  | userDefined
deriving DecidableEq, Repr, Inhabited

namespace Source

/-- The name under which a source is configured. -/
def name : Source → String
  | .unspecified => "unspecified"
  | .passthrough => "passthrough"
  | .generateNull => "generate_null"
  | .generateDefault => "generate_default"
  | .generateEmail => "generate_email"
  | .transformEmail => "transform_email"
  | .generateBool => "generate_bool"
  | .generateCardNumber => "generate_card_number"
  | .generateCity => "generate_city"
  | .generateE164PhoneNumber => "generate_e164_phone_number"
  | .generateFirstName => "generate_first_name"
  | .generateFloat64 => "generate_float64"
  | .generateFullAddress => "generate_full_address"
  | .generateFullName => "generate_full_name"
  | .generateGender => "generate_gender"
  | .generateInt64PhoneNumber => "generate_int64_phone_number"
  | .generateInt64 => "generate_int64"
  | .generateLastName => "generate_last_name"
  | .generateSha256hash => "generate_sha256hash"
  | .generateSsn => "generate_ssn"
  | .generateState => "generate_state"
  | .generateStreetAddress => "generate_street_address"
  | .generateStringPhoneNumber => "generate_string_phone_number"
  | .generateRandomString => "generate_random_string"
  | .generateUnixtimestamp => "generate_unixtimestamp"
  | .generateUsername => "generate_username"
  | .generateUtctimestamp => "generate_utctimestamp"
  | .generateUuid => "generate_uuid"
  | .generateZipcode => "generate_zipcode"
  | .generateCategorical => "generate_categorical"
  | .generateCountry => "generate_country"
  | .transformE164PhoneNumber => "transform_e164_phone_number"
  | .transformFirstName => "transform_first_name"
  | .transformFloat64 => "transform_float64"
  | .transformFullName => "transform_full_name"
  | .transformInt64PhoneNumber => "transform_int64_phone_number"
  | .transformInt64 => "transform_int64"
  | .transformLastName => "transform_last_name"
  | .transformPhoneNumber => "transform_phone_number"
  | .transformString => "transform_string"
  | .transformCharacterScramble => "transform_character_scramble"
  | .transformJavascript => "transform_javascript"
  | .userDefined => "user_defined"

/-- All sources. -/
def all : List Source :=
  [.unspecified, .passthrough, .generateNull, .generateDefault, .generateEmail, .transformEmail,
    .generateBool, .generateCardNumber, .generateCity, .generateE164PhoneNumber,
    .generateFirstName, .generateFloat64, .generateFullAddress, .generateFullName,
    .generateGender, .generateInt64PhoneNumber, .generateInt64, .generateLastName,
    .generateSha256hash, .generateSsn, .generateState, .generateStreetAddress,
    .generateStringPhoneNumber, .generateRandomString, .generateUnixtimestamp, .generateUsername,
    .generateUtctimestamp, .generateUuid, .generateZipcode, .generateCategorical,
    .generateCountry, .transformE164PhoneNumber, .transformFirstName, .transformFloat64,
    .transformFullName, .transformInt64PhoneNumber, .transformInt64, .transformLastName,
    .transformPhoneNumber, .transformString, .transformCharacterScramble, .transformJavascript,
    .userDefined]

def ofName? (s : String) : Option Source := all.find? (·.name == s)

/-- Whether the values are copied as they are. -/
def isCopy (s : Source) : Bool := s == .passthrough || s == .unspecified

/-- Whether a column with this source gets an expression of its own. -/
def hasExpression (s : Source) : Bool :=
  !s.isCopy && s != .userDefined && s != .transformJavascript

/-- The name of the settings that belong to a source; no settings belong to an unspecified one. -/
def kindName? : Source → Option String
  | .unspecified => none
  | .generateNull => some "null"
  | s => some s.name

/-- The source whose settings have the given name. -/
def ofKindName? (s : String) : Option Source := all.find? (·.kindName? == some s)

end Source

end TransferPlan
