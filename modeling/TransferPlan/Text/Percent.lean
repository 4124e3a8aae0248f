import TransferPlan.Text.Blank
import TransferPlan.Text.Quoted

/-!
# Percent-encoding

A text becomes one segment of a URL by writing each byte of its UTF-8 form either as an
unreserved character or as a percent sign and two hexadecimal digits.  Reading a query decodes the
same triplets; a byte sequence that is not UTF-8 gives the replacement character.
-/

namespace TransferPlan.Text.Percent

/-! ## Encoding -/

/-- The upper-case hexadecimal digit of a number below sixteen. -/
def upperHexDigit (n : Nat) : Char :=
  if n < 10 then Char.ofNat ('0'.toNat + n) else Char.ofNat ('A'.toNat + (n - 10))

/-- The characters that stand for themselves. -/
def isUnreserved (c : Char) : Bool :=
  ('A' ≤ c && c ≤ 'Z') || ('a' ≤ c && c ≤ 'z') || ('0' ≤ c && c ≤ '9') ||
    c == '_' || c == '.' || c == '-' || c == '~'

/-- The form of one byte. -/
def encodeByte (b : UInt8) : List Char :=
  let c := Char.ofNat b.toNat
  if isUnreserved c then [c] else ['%', upperHexDigit (b.toNat / 16), upperHexDigit (b.toNat % 16)]

/-- A text as one URL segment.  The characters of a text are Unicode scalar values, all of which
have a UTF-8 form; half of a surrogate pair is no character. -/
def encode (s : String) : String :=
  String.ofList ((s.toList.flatMap String.utf8EncodeChar).flatMap encodeByte)

/-! ## UTF-8 -/

/-- What the first byte of a character demands: how many bytes follow, and the bounds of the next
one. -/
def lead? (b : Nat) : Option (Nat × Nat × Nat) :=
  if b < 0x80 then some (0, 0x80, 0xBF)
  else if b < 0xC2 then none
  else if b < 0xE0 then some (1, 0x80, 0xBF)
  else if b = 0xE0 then some (2, 0xA0, 0xBF)
  else if b = 0xED then some (2, 0x80, 0x9F)
  else if b < 0xF0 then some (2, 0x80, 0xBF)
  else if b = 0xF0 then some (3, 0x90, 0xBF)
  else if b < 0xF4 then some (3, 0x80, 0xBF)
  else if b = 0xF4 then some (3, 0x80, 0x8F)
  else none

/-- The character that stands for bytes that are no character. -/
def replacement : Char := Char.ofNat 0xFFFD

/-- Decodes bytes.  The state is the value so far of a character begun, the number of bytes it
still needs and the bounds of the next one; nothing is begun when that number is zero. -/
def decodeUtf8 : Nat → Nat → Nat → Nat → List UInt8 → List Char
  | _, 0, _, _, [] => []
  | _, _ + 1, _, _, [] => [replacement]
  | value, owed, low, high, b :: rest =>
    let n := b.toNat
    let start : List Char → List Char := fun before =>
      match lead? n with
      | none => before ++ replacement :: decodeUtf8 0 0 0 0 rest
      | some (0, _, _) => before ++ Char.ofNat n :: decodeUtf8 0 0 0 0 rest
      | some (k + 1, low, high) =>
        before ++ decodeUtf8 (n % Nat.pow 2 (5 - k)) (k + 1) low high rest
    match owed with
    | 0 => start []
    | k + 1 =>
      if low ≤ n && n ≤ high then
        let value := value * 64 + n % 64
        if k = 0 then Char.ofNat value :: decodeUtf8 0 0 0 0 rest
        else decodeUtf8 value k 0x80 0xBF rest
      else start [replacement]

/-! ## Decoding -/

/-- The bytes of ASCII characters with the percent triplets replaced. -/
def triplets : List Char → List UInt8
  | '%' :: a :: b :: rest =>
    match Quoted.hexValue? a, Quoted.hexValue? b with
    | some x, some y => UInt8.ofNat (x * 16 + y) :: triplets rest
    | _, _ => UInt8.ofNat '%'.toNat :: triplets (a :: b :: rest)
  | c :: rest => UInt8.ofNat c.toNat :: triplets rest
  | [] => []

/-- Decodes the triplets of each run of ASCII characters; the first argument is the run so far,
backwards. -/
def decodeRuns : List Char → List Char → List Char
  | run, [] => decodeUtf8 0 0 0 0 (triplets run.reverse)
  | run, c :: rest =>
    if c.toNat < 128 then decodeRuns (c :: run) rest
    else decodeUtf8 0 0 0 0 (triplets run.reverse) ++ c :: decodeRuns [] rest

/-- The text of a URL part. -/
def decode (s : String) : String := String.ofList (decodeRuns [] s.toList)

/-- The text of a part of a query, where a plus sign stands for a space. -/
def decodeQuery (s : String) : String :=
  decode (String.ofList (s.toList.map fun c => if c = '+' then ' ' else c))

end TransferPlan.Text.Percent
