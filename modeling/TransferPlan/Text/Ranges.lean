/-!
# Ranges of characters

A property of characters is given by the ranges of code points that have it.
-/

namespace TransferPlan.Text

/-- Code points given by the first and the last of each range. -/
abbrev Ranges := List (Nat × Nat)

/-- Whether a character lies in one of the ranges. -/
def Ranges.has (t : Ranges) (c : Char) : Bool :=
  t.any fun r => r.1 ≤ c.toNat && c.toNat ≤ r.2

end TransferPlan.Text
