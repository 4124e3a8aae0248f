import TransferPlan.Json.Basic

/-!
# Reading JSON

A reader for one JSON value.  Every step takes characters from the front of the text and gives
what it read with the rest.  A number is an integer exactly when it has neither a point nor an
exponent; of two fields of an object with one name the last value counts, at the first place.
-/

namespace TransferPlan.Json

/-- The characters after leading white space. -/
def skipSpace (cs : List Char) : List Char :=
  cs.dropWhile fun c => c == ' ' || c == '\n' || c == '\r' || c == '\t'

/-- The rest of the characters after a word. -/
def afterWord? : List Char → List Char → Option (List Char)
  | [], cs => some cs
  | w :: ws, c :: cs => if w = c then afterWord? ws cs else none
  | _ :: _, [] => none

/-- The exponent of a number with its letter in front: whether it is there, its value, the rest. -/
def readExponent (cs : List Char) : Option (Option Int × List Char) :=
  match cs with
  | [] => some (none, [])
  | c :: rest =>
    if c = 'e' || c = 'E' then
      let (negative, ds) := Text.splitSign rest
      match Binary64.takeDigits 0 0 ds with
      | (_, 0, _) => none
      | (n, _ + 1, rest) =>
        some (some (Text.signed negative (min n Binary64.exponentLimit)), rest)
    else some (none, cs)

/-- A number. -/
def readNumber (cs : List Char) : Option (Json × List Char) := do
  let (negative, cs) := match cs with
    | '-' :: rest => (true, rest)
    | cs => (false, cs)
  let (whole, count, rest) := Binary64.takeDigits 0 0 cs
  if count = 0 || (cs.head? == some '0' && 1 < count) then none
  else
    let (value, places, rest) ← match rest with
      | '.' :: after =>
        match Binary64.takeDigits whole 0 after with
        | (_, 0, _) => none
        | (value, places, rest) => some (value, some places, rest)
      | _ => some (whole, none, rest)
    let (exponent, rest) ← readExponent rest
    match places, exponent with
    | none, none => return (.int (Text.signed negative whole), rest)
    | _, _ =>
      let e := exponent.getD 0 - (places.getD 0 : Nat)
      return (.float (Binary64.ofDecimal negative value e), rest)

/-- A string and the rest. -/
def readString (cs : List Char) : Option (String × List Char) :=
  (Text.Quoted.read cs).map fun r => (String.ofList r.1, r.2)

/-- The fields with a value under a name: in its place if the name is there, else in front.  The
fields are held backwards while an object is read. -/
def setField (k : String) (v : Json) (fields : List (String × Json)) : List (String × Json) :=
  if fields.any (·.1 == k) then fields.map fun f => if f.1 == k then (k, v) else f
  else (k, v) :: fields

mutual

/-- A value after any white space.  The first argument bounds the steps. -/
def readValue : Nat → List Char → Option (Json × List Char)
  | 0, _ => none
  | fuel + 1, cs =>
    match skipSpace cs with
    | [] => none
    | '"' :: rest => (readString ('"' :: rest)).map fun r => (.string r.1, r.2)
    | '[' :: rest =>
      match skipSpace rest with
      | ']' :: rest => some (.array [], rest)
      | rest => readItems fuel [] rest
    | '\x7b' :: rest =>
      match skipSpace rest with
      | '\x7d' :: rest => some (.object [], rest)
      | rest => readFields fuel [] rest
    | 't' :: rest => (afterWord? ['r', 'u', 'e'] rest).map (.bool true, ·)
    | 'f' :: rest => (afterWord? ['a', 'l', 's', 'e'] rest).map (.bool false, ·)
    | 'n' :: rest => (afterWord? ['u', 'l', 'l'] rest).map (.null, ·)
    | cs => readNumber cs

/-- The items up to the closing bracket; those read so far are held backwards. -/
def readItems : Nat → List Json → List Char → Option (Json × List Char)
  | 0, _, _ => none
  | fuel + 1, items, cs =>
    match readValue fuel cs with
    | none => none
    | some (v, rest) =>
      match skipSpace rest with
      | ',' :: rest => readItems fuel (v :: items) rest
      | ']' :: rest => some (.array (v :: items).reverse, rest)
      | _ => none

/-- The fields up to the closing brace; those read so far are held backwards. -/
def readFields : Nat → List (String × Json) → List Char → Option (Json × List Char)
  | 0, _, _ => none
  | fuel + 1, fields, cs =>
    match readString (skipSpace cs) with
    | none => none
    | some (k, rest) =>
      match skipSpace rest with
      | ':' :: rest =>
        match readValue fuel rest with
        | none => none
        | some (v, rest) =>
          match skipSpace rest with
          | ',' :: rest => readFields fuel (setField k v fields) rest
          | '\x7d' :: rest => some (.object (setField k v fields).reverse, rest)
          | _ => none
      | _ => none

end

/-- The value that a text writes. -/
def read? (s : String) : Option Json :=
  let cs := s.toList
  match readValue (cs.length + 1) cs with
  | some (v, rest) => if (skipSpace rest).isEmpty then some v else none
  | none => none

end TransferPlan.Json
