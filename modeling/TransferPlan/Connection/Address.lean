import TransferPlan.Text.Numeral
import TransferPlan.Text.Quoted

/-!
# Addresses in brackets

A host in brackets is an IPv6 address: eight groups of up to four hexadecimal digits, one run of
zero groups left out where two colons meet, and the last two groups perhaps written as an IPv4
address.
-/

namespace TransferPlan.Address

/-- The pieces of a list between the occurrences of a character. -/
def pieces (c : Char) (cs : List Char) : List (List Char) := Text.cut [c] 0 cs []

/-- Whether the characters write a number up to 255 without leading zeros. -/
def isOctet (cs : List Char) : Bool :=
  !cs.isEmpty && cs.length ≤ 3 && cs.all (fun c => (Text.asciiDigit? c).isSome) &&
    (cs == ['0'] || cs.head? != some '0') &&
    (cs.foldl (fun n c => n * 10 + (Text.asciiDigit? c).getD 0) 0) ≤ 255

/-- Whether the characters write an IPv4 address. -/
def isV4 (cs : List Char) : Bool :=
  let octets := pieces '.' cs
  octets.length == 4 && octets.all isOctet

/-- Whether the characters are up to four hexadecimal digits. -/
def isGroup (cs : List Char) : Bool :=
  cs.length ≤ 4 && cs.all fun c => (Text.Quoted.hexValue? c).isSome

/-- The groups with an IPv4 address at the end counted as two groups of zero. -/
def expandV4 (groups : List (List Char)) : Option (List (List Char)) :=
  let last := groups.getLast?.getD []
  if last.contains '.' then
    if isV4 last then some (groups.dropLast ++ [['0'], ['0']]) else none
  else some groups

/-- Whether the groups make up an address. -/
def areGroups (groups : List (List Char)) : Bool :=
  let inner := (groups.drop 1).dropLast
  let gaps := inner.countP (·.isEmpty)
  let first := groups.headD []
  let last := groups.getLast?.getD []
  if 9 < groups.length then false
  else if gaps = 0 then
    groups.length == 8 && !first.isEmpty && !last.isEmpty && groups.all isGroup
  else if gaps = 1 then
    let gap := 1 + inner.findIdx (·.isEmpty)
    let before := if first.isEmpty then gap - 1 else gap
    let after := groups.length - gap - (if last.isEmpty then 2 else 1)
    (!first.isEmpty || before == 0) && (!last.isEmpty || after == 0) && before + after < 8 &&
      groups.all isGroup
  else false

/-- Whether the characters write an IPv6 address, perhaps with a zone after a percent sign. -/
def isV6 (cs : List Char) : Bool :=
  let (address, zone) := Text.splitFirst '%' cs
  let zoneIsGood := match zone with
    | none => true
    | some z => !z.isEmpty && !z.contains '%'
  let groups := pieces ':' address
  zoneIsGood && 3 ≤ groups.length &&
    match expandV4 groups with
    | some groups => areGroups groups
    | none => false

/-- Whether the characters after a leading v name a future kind of address. -/
def isFuture (cs : List Char) : Bool :=
  match Text.splitFirst '.' (cs.drop 1) with
  | (version, some rest) =>
    !version.isEmpty && version.all (fun c => (Text.Quoted.hexValue? c).isSome) && !rest.isEmpty
  | _ => false

end TransferPlan.Address
