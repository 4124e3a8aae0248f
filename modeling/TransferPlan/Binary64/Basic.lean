/-!
# Binary floating-point numbers

The numbers of the 64-bit binary format, with a sign, an exact significand and an exponent, so
that everything about them can be computed and stated in integers.  A ratio of naturals is rounded
to the nearest number of the format, and a half goes to the even neighbour.
-/

namespace TransferPlan

/-- A number of the format: `significand · 2 ^ exponent` with a sign, an infinity, or no number. -/
inductive Binary64 where
  | finite (negative : Bool) (significand : Nat) (exponent : Int)
  | infinite (negative : Bool)
  | nan
deriving DecidableEq, Repr, Inhabited

namespace Binary64

/-- The exponent of the smallest positive number. -/
def minExponent : Int := -1074

/-- The largest exponent. -/
def maxExponent : Int := 971

/-- Significands stay below the 53rd power of two. -/
def significandLimit : Nat := 0x20000000000000

/-- Zero with a sign. -/
def zero (negative : Bool) : Binary64 := .finite negative 0 minExponent

/-- The natural number nearest to `num / den`; a half goes to the even one. -/
def roundQuotient (num den : Nat) : Nat :=
  let q := num / den
  let twice := 2 * (num % den)
  if twice < den then q else if den < twice then q + 1 else q + q % 2

/-- `num / den` scaled by `2 ^ -e`, rounded. -/
def scaleRound (num den : Nat) (e : Int) : Nat :=
  if e < 0 then roundQuotient (num * Nat.pow 2 (-e).toNat) den
  else roundQuotient num (den * Nat.pow 2 e.toNat)

/-- The number nearest to `num / den`, for a positive `den`. -/
def ofRatio (negative : Bool) (num den : Nat) : Binary64 :=
  if num = 0 then zero negative
  else
    let guess : Int := (num.log2 : Int) - (den.log2 : Int) - 53
    let fits := scaleRound num den guess < significandLimit
    let e := max minExponent (if fits then guess else guess + 1)
    let m := scaleRound num den e
    let (m, e) := if m < significandLimit then (m, e) else (significandLimit / 2, e + 1)
    if maxExponent < e then .infinite negative else .finite negative m e

/-- The number nearest to `digits · 10 ^ exponent`.  Exponents far outside the format are decided
by the size of the number alone. -/
def ofDecimal (negative : Bool) (digits : Nat) (exponent : Int) : Binary64 :=
  if digits = 0 then zero negative
  else
    let size : Int := (digits.log2 : Int) * 3 / 10 + exponent
    if 400 < size then .infinite negative
    else if size + (digits.log2 : Int) / 30 + 1 < -400 then zero negative
    else if exponent < 0 then ofRatio negative digits (Nat.pow 10 (-exponent).toNat)
    else ofRatio negative (digits * Nat.pow 10 exponent.toNat) 1

/-- The number nearest to an integer, unless the integer is too large for the format. -/
def ofInt? (n : Int) : Option Binary64 :=
  match ofRatio (n < 0) n.natAbs 1 with
  | .infinite _ => none
  | x => some x

/-- The integer nearest to the number on the side of zero. -/
def truncate? : Binary64 → Option Int
  | .finite negative m e =>
    let n := if e < 0 then m / Nat.pow 2 (-e).toNat else m * Nat.pow 2 e.toNat
    some (if negative then -(n : Int) else n)
  | _ => none

/-- Whether the number is an integer. -/
def isWhole : Binary64 → Bool
  | .finite _ m e => if e < 0 then m % Nat.pow 2 (-e).toNat == 0 else true
  | _ => false

/-- Whether the number is a zero of either sign. -/
def isZero : Binary64 → Bool
  | .finite _ m _ => m == 0
  | _ => false

/-- The magnitude of a finite number as `n / 10 ^ f`: a finite binary number is also a finite
decimal one. -/
def decimalRatio (m : Nat) (e : Int) : Nat × Nat :=
  if e < 0 then (m * Nat.pow 5 (-e).toNat, (-e).toNat) else (m * Nat.pow 2 e.toNat, 0)

end Binary64

end TransferPlan
