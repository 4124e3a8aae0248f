import TransferPlan.Binary64.Basic
import TransferPlan.Text.Numeral

/-!
# Decimal text of binary numbers

Two ways to write a number.  `fixed` has six places, rounded from the exact value, a half to the
even neighbour.  `shortest` has the fewest digits that read back as the number, the nearest of
those, and stays positional from 10⁻⁴ up to 10¹⁶.
-/

namespace TransferPlan.Binary64

/-! ## Six places -/

/-- The decimal digits of a natural number. -/
def digits (n : Nat) : List Char := Nat.toDigits 10 n

/-- The digits with zeros in front up to the given width. -/
def padLeft (width : Nat) (cs : List Char) : List Char :=
  List.replicate (width - cs.length) '0' ++ cs

def signText (negative : Bool) : List Char := if negative then ['-'] else []

/-- The number with six decimal places. -/
def fixed : Binary64 → String
  | .nan => "nan"
  | .infinite negative => if negative then "-inf" else "inf"
  | .finite negative m e =>
    let (n, f) := decimalRatio m e
    let scaled := if f ≤ 6 then n * Nat.pow 10 (6 - f) else roundQuotient n (Nat.pow 10 (f - 6))
    String.ofList (signText negative ++ digits (scaled / 1000000) ++
      '.' :: padLeft 6 (digits (scaled % 1000000)))

/-! ## The fewest digits -/

/-- The number `d · 10 ^ s` if it reads back as `x`. -/
def readsBack (x : Binary64) (d : Nat) (s : Int) : Bool := ofDecimal false d s == x

/-- The point of the grid `10 ^ s` next to `n / 10 ^ f` that reads back as `x`.  Of the two
neighbours the nearer one goes first. -/
def gridPoint? (x : Binary64) (n : Nat) (f : Int) (s : Int) : Option Nat :=
  let shift := s + f
  let (num, den) :=
    if shift < 0 then (n * Nat.pow 10 (-shift).toNat, 1) else (n, Nat.pow 10 shift.toNat)
  let near := roundQuotient num den
  let other := if num / den = near then near + 1 else near - 1
  if readsBack x near s then some near
  else if readsBack x other s then some other
  else none

/-- The decimal `d · 10 ^ s` with the fewest digits that reads back as the positive number `x`,
whose exact value is `n / 10 ^ f`.  Grids are tried from the coarsest one, seventeen at most. -/
def fewest (x : Binary64) (n f : Nat) : Nat × Int :=
  let width : Int := (digits n).length - (f : Int)
  ((List.range 17).findSome? fun (k : Nat) =>
    let s := width - ((k : Int) + 1)
    (gridPoint? x n f s).map fun d => (d, s)).getD (n, -(f : Int))

/-- Text with the fewest digits: a point and at least one digit after it between 10⁻⁴ and 10¹⁶,
else one digit before the point and an exponent of at least two digits. -/
def shortest : Binary64 → String
  | .nan => "nan"
  | .infinite negative => if negative then "-inf" else "inf"
  | .finite negative m e =>
    if m = 0 then String.ofList (signText negative ++ ['0', '.', '0'])
    else
      let (n, f) := decimalRatio m e
      let (d, s) := fewest (.finite false m e) n f
      let all := digits d
      let point : Int := all.length + s
      let ds := (all.reverse.dropWhile (· == '0')).reverse
      let body :=
        if -4 < point && point ≤ 16 then
          if point ≤ 0 then '0' :: '.' :: (List.replicate (-point).toNat '0' ++ ds)
          else
            let whole := ds.take point.toNat
            let zeros := List.replicate (point.toNat - ds.length) '0'
            let fraction := ds.drop point.toNat
            whole ++ zeros ++ '.' :: (if fraction.isEmpty then ['0'] else fraction)
        else
          let exponent := point - 1
          let fraction := ds.drop 1
          ds.take 1 ++ (if fraction.isEmpty then [] else '.' :: fraction) ++
            'e' :: (if exponent < 0 then '-' else '+') :: padLeft 2 (digits exponent.natAbs)
      String.ofList (signText negative ++ body)

/-! ## Reading -/

/-- Splits the digits off the front: their value, their number and what follows. -/
def takeDigits : Nat → Nat → List Char → Nat × Nat × List Char
  | value, count, c :: rest =>
    match Text.asciiDigit? c with
    | some d => takeDigits (value * 10 + d) (count + 1) rest
    | none => (value, count, c :: rest)
  | value, count, [] => (value, count, [])

/-- Exponents of this size and more make no difference any more. -/
def exponentLimit : Nat := 100000000000000000000

/-- The exponent that ends a number; none counts as zero. -/
def readExponent? : List Char → Option Int
  | [] => some 0
  | c :: rest =>
    if c = 'e' || c = 'E' then
      let (negative, cs) := Text.splitSign rest
      match takeDigits 0 0 cs with
      | (n, _ + 1, []) => some (Text.signed negative (min n exponentLimit))
      | _ => none
    else none

/-- The number that decimal notation writes: digits with a point anywhere, and an exponent. -/
def readDecimal? (negative : Bool) (cs : List Char) : Option Binary64 :=
  let (whole, wholeCount, rest) := takeDigits 0 0 cs
  let (value, fractionCount, rest) :=
    match rest with
    | '.' :: after =>
      let (value, count, rest) := takeDigits whole 0 after
      (value, count, rest)
    | _ => (whole, 0, rest)
  if wholeCount + fractionCount = 0 then none
  else (readExponent? rest).map fun e => ofDecimal negative value (e - fractionCount)

/-- The number that a text writes without white space or underscores: decimal notation, an
infinity or no number, in any letter case. -/
def read? (cs : List Char) : Option Binary64 :=
  let (negative, body) := Text.splitSign cs
  let name := body.map Char.toLower
  if name = ['i', 'n', 'f'] || name = ['i', 'n', 'f', 'i', 'n', 'i', 't', 'y'] then
    some (.infinite negative)
  else if name = ['n', 'a', 'n'] then some .nan
  else readDecimal? negative body

/-- The number that a configuration text writes, white space around it aside.  Single underscores
may stand anywhere inside, but only in a text without white space around it. -/
def configNumber? (s : String) : Option Binary64 :=
  (read? (Text.trimList Text.isWhiteSpace s.toList)).or
    ((Text.dropUnderscores? s.toList).bind read?)

end TransferPlan.Binary64
