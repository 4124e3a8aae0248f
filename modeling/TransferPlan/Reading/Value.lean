import TransferPlan.Json.Writer
import TransferPlan.Keyed
import TransferPlan.Reading.Basic

/-!
# Reading JSON values

Readings of the plain types.  Numbers and switches may also be given as text; text is only ever
taken from text.  Records list the fields that they know, so that a closed record can report the
others.
-/

namespace TransferPlan.Reading

variable {α : Type}

/-! ## Plain types -/

def string : Json → Reading String
  | .string s => .value s
  | _ => fail .stringType

/-- Text that is not empty. -/
def nonEmptyString (j : Json) : Reading String :=
  (string j).andThen fun s => if s = "" then fail .stringTooShort else .value s

/-- Text that is one of some words. -/
def word (words : List String) (j : Json) : Reading String :=
  (string j).andThen fun s => if words.contains s then .value s else fail .stringPatternMismatch

/-- The magnitude that a number of the binary format must stay below to be taken as an integer. -/
def integerLimit : Nat := 0x8000000000000000

/-- Whether an integer is one of 64 bits. -/
def isWord (n : Int) : Bool := -(integerLimit : Int) ≤ n && n < integerLimit

/-- An integer, given as a number without a fraction, as a switch or as text. -/
def int : Json → Reading Int
  | .int n => .value n
  | .bool b => .value (if b then 1 else 0)
  | .float x =>
    match x.truncate? with
    | none => fail .finiteNumber
    | some n =>
      if !x.isWhole then fail .intFromFloat
      else if n.natAbs < integerLimit then .value n
      else fail .intParsingSize
  | .string s =>
    match Text.readNumeral s with
    | .number n => .value n
    | .tooLong => fail .intParsingSize
    | .malformed => fail .intParsing
  | _ => fail .intType

/-- An integer within bounds. -/
def intBetween (low high : Int) (j : Json) : Reading Int :=
  (int j).andThen fun n =>
    if n < low then fail .greaterThanEqual
    else if high < n then fail .lessThanEqual
    else .value n

/-- A number of the binary format, given as a number, as a switch or as text. -/
def float : Json → Reading Binary64
  | .float x => .value x
  | .int n =>
    match Binary64.ofInt? n with
    | some x => .value x
    | none => fail .floatType
  | .bool b => .value (Binary64.ofRatio false (if b then 1 else 0) 1)
  | .string s =>
    match Binary64.configNumber? s with
    | some x => .value x
    | none => fail .floatParsing
  | _ => fail .floatType

/-- The words for a switch that is on. -/
def onWords : List String := ["true", "t", "yes", "y", "on", "1"]

/-- The words for a switch that is off. -/
def offWords : List String := ["false", "f", "no", "n", "off", "0"]

/-- A switch given as zero or one. -/
def boolOfInt (n : Int) : Reading Bool :=
  if n = 0 then .value false else if n = 1 then .value true else fail .boolParsing

/-- A switch, given as such, as zero or one, or as a word in any ASCII letter case.  Other integers
of 64 bits are bad values for a switch; other numbers are no switch at all. -/
def bool : Json → Reading Bool
  | .bool b => .value b
  | .int n => if isWord n then boolOfInt n else fail .boolType
  | .float x =>
    match x.truncate? with
    | some n => if x.isWhole && n.natAbs < integerLimit then boolOfInt n else fail .boolType
    | none => fail .boolType
  | .string s =>
    let w := s.toLower
    if onWords.contains w then .value true
    else if offWords.contains w then .value false
    else fail .boolParsing
  | _ => fail .boolType

/-- One of some named values. -/
def oneOf (ofName? : String → Option α) : Json → Reading α
  | .string s =>
    match ofName? s with
    | some a => .value a
    | none => fail .enum
  | _ => fail .enum

/-! ## Composed types -/

/-- A value that may be null. -/
def nullable (read : Json → Reading α) : Json → Reading (Option α)
  | .null => .value none
  | j => some <$> read j

/-- A list. -/
def list (read : Json → Reading α) : Json → Reading (List α)
  | .array xs => items (xs.map read)
  | _ => fail .listType

/-- The fields of an object, whatever their values. -/
def anyFields : Json → Reading (List (String × Json))
  | .object fields => .value fields
  | _ => fail .dictType

/-- The values of the fields of an object. -/
def fieldValues (read : Json → Reading α) : List (String × Json) → Reading (List (String × α))
  | [] => .value []
  | (k, j) :: rest =>
    both ((under (.field k) (read j)).andThen fun a => .value ((k, a) :: ·)) (fieldValues read rest)

/-- An object whose fields all have values of one type. -/
def dict (read : Json → Reading α) : Json → Reading (List (String × α))
  | .object fields => fieldValues read fields
  | _ => fail .dictType

/-! ## The order of reports -/

/-- A path as JSON. -/
def pathJson (path : List PathStep) : Json :=
  .array (path.map fun
    | .field name => .string name
    | .index n => .int n)

/-- What a fault is sorted by: the text of its path, then the name of its kind. -/
def faultKey (f : Fault) : String × String := ((pathJson f.path).write, f.kind.name)

/-- The faults in the order in which they are reported. -/
def sortFaults (fs : List Fault) : List Fault :=
  fs.mergeSort fun f g =>
    let (p, q) := (faultKey f, faultKey g)
    if p.1 = q.1 then p.2 ≤ q.2 else p.1 ≤ q.1

end TransferPlan.Reading

namespace TransferPlan

/-! ## Records -/

/-- A reading of the fields of an object, with the names of the fields that it knows. -/
structure RecordReader (α : Type) where
  names : List String
  read : List (String × Json) → Reading α

namespace RecordReader

variable {α : Type}

instance : Applicative RecordReader where
  pure a := ⟨[], fun _ => pure a⟩
  seq f x := ⟨f.names ++ (x ()).names, fun fields => f.read fields <*> (x ()).read fields⟩

/-- A field that must be there. -/
def required (name : String) (read : Json → Reading α) : RecordReader α :=
  ⟨[name], fun fields =>
    (match Keyed.value? name fields with
      | some j => read j
      | none => Reading.fail .missing).under (.field name)⟩

/-- A field with a default. -/
def optional (name : String) (default : α) (read : Json → Reading α) : RecordReader α :=
  ⟨[name], fun fields =>
    match Keyed.value? name fields with
    | some j => (read j).under (.field name)
    | none => .value default⟩

/-- The record of an object, its other fields ignored. -/
def ofJson (r : RecordReader α) : Json → Reading α
  | .object fields => r.read fields
  | _ => Reading.fail .modelType

/-- The record of some fields, where every field that is not known is reported. -/
def closed (r : RecordReader α) (fields : List (String × Json)) : Reading α :=
  let unknown := fields.filter fun f => !r.names.contains f.1
  let faults : List Fault := unknown.map fun f => ⟨[.field f.1], .extraForbidden⟩
  Reading.both ((r.read fields).andThen fun a => .value fun _ => a)
    (if faults.isEmpty then .value () else .faulty faults)

end RecordReader

end TransferPlan
