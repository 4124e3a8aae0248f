/-!
# Readings

Reading a value from outside gives the value, or lists everything that is wrong with it.  Each
fault has a kind and the path to the place where it was found.

Readings stand for a library that validates records.  The theorems are about what is done with a
value that has been read, and a lookup in the definition service is given its validation.
-/

namespace TransferPlan

/-- A step from a value to a part of it. -/
inductive PathStep where
  | field (name : String)
  | index (n : Nat)
deriving DecidableEq, Repr

/-- The ways in which a value can fail to be what is asked for. -/
inductive FaultKind where
  | missing
  | stringType
  | stringTooShort
  | stringPatternMismatch
  | intType
  | intParsing
  | intParsingSize
  | intFromFloat
  | finiteNumber
  | floatType
  | floatParsing
  | boolType
  | boolParsing
  | listType
  | dictType
  | modelType
  | modelAttributesType
  | enum
  | extraForbidden
  | unionTagNotFound
  | unionTagInvalid
  | greaterThanEqual
  | lessThanEqual
deriving DecidableEq, Repr

/-- The name under which a kind of fault is reported. -/
def FaultKind.name : FaultKind → String
  | .missing => "missing"
  | .stringType => "string_type"
  | .stringTooShort => "string_too_short"
  | .stringPatternMismatch => "string_pattern_mismatch"
  | .intType => "int_type"
  | .intParsing => "int_parsing"
  | .intParsingSize => "int_parsing_size"
  | .intFromFloat => "int_from_float"
  | .finiteNumber => "finite_number"
  | .floatType => "float_type"
  | .floatParsing => "float_parsing"
  | .boolType => "bool_type"
  | .boolParsing => "bool_parsing"
  | .listType => "list_type"
  | .dictType => "dict_type"
  | .modelType => "model_type"
  | .modelAttributesType => "model_attributes_type"
  | .enum => "enum"
  | .extraForbidden => "extra_forbidden"
  | .unionTagNotFound => "union_tag_not_found"
  | .unionTagInvalid => "union_tag_invalid"
  | .greaterThanEqual => "greater_than_equal"
  | .lessThanEqual => "less_than_equal"

/-- Something wrong at the end of a path. -/
structure Fault where
  path : List PathStep
  kind : FaultKind
deriving DecidableEq, Repr

/-- A value, or what is wrong with it. -/
inductive Reading (α : Type) where
  | value (a : α)
  | faulty (faults : List Fault)
deriving Repr

namespace Reading

variable {α β : Type}

/-- A single fault at the value itself. -/
def fail (kind : FaultKind) : Reading α := .faulty [⟨[], kind⟩]

/-- Two readings side by side: the faults of both are reported. -/
def both (f : Reading (α → β)) (x : Reading α) : Reading β :=
  match f, x with
  | .value f, .value a => .value (f a)
  | .value _, .faulty q => .faulty q
  | .faulty p, .value _ => .faulty p
  | .faulty p, .faulty q => .faulty (p ++ q)

instance : Applicative Reading where
  pure := .value
  seq f x := both f (x ())

/-- A further test of a value that was read. -/
def andThen (x : Reading α) (f : α → Reading β) : Reading β :=
  match x with
  | .value a => f a
  | .faulty p => .faulty p

/-- The reading of a part, reported under the step that leads to it. -/
def under (step : PathStep) : Reading α → Reading α
  | .value a => .value a
  | .faulty fs => .faulty (fs.map fun f => { f with path := step :: f.path })

/-- The readings of the items of a list, each under its index from `n` on. -/
def itemsFrom (n : Nat) : List (Reading α) → Reading (List α)
  | [] => .value []
  | r :: rest =>
    both ((under (.index n) r).andThen fun a => .value (a :: ·)) (itemsFrom (n + 1) rest)

/-- The readings of all items of a list. -/
def items (rs : List (Reading α)) : Reading (List α) := itemsFrom 0 rs

def toExcept : Reading α → Except (List Fault) α
  | .value a => .ok a
  | .faulty fs => .error fs

end Reading

end TransferPlan
