import TransferPlan.Text.Blank

/-!
# Whole numbers in text

A whole number is an optional sign and decimal digits, with single underscores allowed between
two digits.  Catalogue cells may use the digits of any script.  Configurations use those of ASCII:
a number in strict form is taken as it stands, and any other text is first brought closer to that
form by dropping blanks, a plus sign, leading zeros, a fraction of zeros and underscores.
-/

namespace TransferPlan.Text

/-! ## Digits -/

/-- The zeros of the scripts that have decimal digits.  The ten digits of a script follow each
other. -/
def decimalZeros : List Nat :=
  [0x30, 0x660, 0x6F0, 0x7C0, 0x966, 0x9E6, 0xA66, 0xAE6, 0xB66, 0xBE6, 0xC66, 0xCE6, 0xD66,
    0xDE6, 0xE50, 0xED0, 0xF20, 0x1040, 0x1090, 0x17E0, 0x1810, 0x1946, 0x19D0, 0x1A80, 0x1A90,
    0x1B50, 0x1BB0, 0x1C40, 0x1C50, 0xA620, 0xA8D0, 0xA900, 0xA9D0, 0xA9F0, 0xAA50, 0xABF0,
    0xFF10, 0x104A0, 0x10D30, 0x11066, 0x110F0, 0x11136, 0x111D0, 0x112F0, 0x11450, 0x114D0,
    0x11650, 0x116C0, 0x11730, 0x118E0, 0x11950, 0x11C50, 0x11D50, 0x11DA0, 0x16A60, 0x16AC0,
    0x16B50, 0x1D7CE, 0x1D7D8, 0x1D7E2, 0x1D7EC, 0x1D7F6, 0x1E140, 0x1E2F0, 0x1E950, 0x1FBF0]

/-- The value of a decimal digit of any script. -/
def decimalDigit? (c : Char) : Option Nat :=
  decimalZeros.findSome? fun z =>
    if z ≤ c.toNat && c.toNat < z + 10 then some (c.toNat - z) else none

/-- The value of an ASCII digit. -/
def asciiDigit? (c : Char) : Option Nat :=
  if '0' ≤ c && c ≤ '9' then some (c.toNat - '0'.toNat) else none

/-! ## Numbers -/

/-- The value and the number of the digits that make up the whole list, single underscores
between them left out.  The first argument tells whether a digit stands just before, the next two
hold the value and the number of the digits so far. -/
def readDigits (digit? : Char → Option Nat) : Bool → Nat → Nat → List Char → Option (Nat × Nat)
  | afterDigit, value, count, [] => if afterDigit then some (value, count) else none
  | afterDigit, value, count, c :: rest =>
    match digit? c with
    | some d => readDigits digit? true (value * 10 + d) (count + 1) rest
    | none => if c = '_' && afterDigit then readDigits digit? false value count rest else none

/-- Whether a leading minus sign stands there, and the characters after a leading sign. -/
def splitSign : List Char → Bool × List Char
  | '-' :: rest => (true, rest)
  | '+' :: rest => (false, rest)
  | cs => (false, cs)

/-- The integer of a sign and a magnitude. -/
def signed (negative : Bool) (n : Nat) : Int := if negative then -(n : Int) else n

/-- The most digits that a whole number may have. -/
def maxDigits : Nat := 4300

/-- The whole number that a catalogue text writes, white space around it aside. -/
def wholeNumber? (s : String) : Option Int :=
  let (negative, cs) := splitSign (trimList isWhiteSpace s.toList)
  match readDigits decimalDigit? false 0 0 cs with
  | some (n, count) => if count ≤ maxDigits then some (signed negative n) else none
  | none => none

/-! ## Numbers in configurations -/

/-- What a text in a configuration says about a whole number. -/
inductive Numeral where
  | number (n : Int)
  | tooLong
  | malformed
deriving DecidableEq, Repr

/-- The characters after a minus sign in front, and whether there is one. -/
def splitMinus : List Char → Bool × List Char
  | '-' :: rest => (true, rest)
  | cs => (false, cs)

/-- Reads the strict form: perhaps a minus, then digits of which the first is no zero, or a single
zero.  Digits in front of other characters can still be too many. -/
def readStrict (cs : List Char) : Numeral :=
  let (negative, ds) := splitMinus cs
  match ds with
  | [] => .malformed
  | ['0'] => .number 0
  | '0' :: _ => .malformed
  | ds =>
    let run := ds.takeWhile Char.isDigit
    if maxDigits < run.length then .tooLong
    else match readDigits asciiDigit? false 0 0 run with
      | some (n, _) => if run.length = ds.length then .number (signed negative n) else .malformed
      | none => .malformed

/-- The characters without leading zeros, where underscores after the first zero count as zeros.
What the zeros lead up to must be a digit or a minus sign; in front of a point or of nothing the
last of them stays. -/
def dropZeros? (cs : List Char) : Option (List Char) :=
  match cs with
  | [] => none
  | '0' :: _ =>
    let isZero (c : Char) : Bool := c == '0' || c == '_'
    let last := ((cs.takeWhile isZero).getLast?).getD '0'
    match cs.dropWhile isZero with
    | [] => some [last]
    | '.' :: rest => some (last :: '.' :: rest)
    | c :: rest => if c.isDigit || c == '-' then some (c :: rest) else none
  | c :: _ => if c.isDigit then some cs else none

/-- The part before the first point when only zeros follow it, at least one. -/
def dropFraction (cs : List Char) : List Char :=
  match splitFirst '.' cs with
  | (whole, some (c :: fraction)) => if (c :: fraction).all (· == '0') then whole else cs
  | _ => cs

/-- Whether underscores stand neither at the end nor next to each other. -/
def areUnderscoresSingle : List Char → Bool
  | [] => true
  | ['_'] => false
  | '_' :: '_' :: _ => false
  | _ :: rest => areUnderscoresSingle rest

/-- The characters without their underscores, when these stand neither at an end nor next to each
other. -/
def dropUnderscores? (cs : List Char) : Option (List Char) :=
  if cs.head? != some '_' && areUnderscoresSingle cs then some (cs.filter (· != '_')) else none

/-- The characters closer to the strict form. -/
def loosen? (cs : List Char) : Option (List Char) :=
  let (negative, ds) := splitSign cs
  (dropZeros? ds).map fun ds =>
    let ds := dropFraction ds
    (if negative then ['-'] else []) ++ (dropUnderscores? ds).getD ds

/-- Reads the whole number that a configuration text writes.  Only a number in strict form can be
too long; any other text that has too many digits is malformed. -/
def readNumeral (s : String) : Numeral :=
  match readStrict s.toList with
  | .malformed =>
    match (loosen? (trimList isWhiteSpace s.toList)).map readStrict with
    | some (.number n) => .number n
    | _ => .malformed
  | r => r

end TransferPlan.Text
