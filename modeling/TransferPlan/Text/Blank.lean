/-!
# Blank characters, trimmed text and lists of names

Text that comes from a database catalogue is trimmed of blanks before it is used, and a list of
names is one text with a delimiter between the names.  Two classes of blanks are in use: the wide
one for catalogue text, and the narrower white space of the Unicode standard for numbers in
configurations.
-/

namespace TransferPlan.Text

/-! ## Character classes -/

/-- The characters with the White_Space property. -/
def isWhiteSpace (c : Char) : Bool :=
  let n := c.toNat
  (9 ≤ n && n ≤ 13) || n == 0x20 || n == 0x85 || n == 0xA0 || n == 0x1680 ||
    (0x2000 ≤ n && n ≤ 0x200A) || n == 0x2028 || n == 0x2029 || n == 0x202F || n == 0x205F ||
    n == 0x3000

/-- White space and the four information separators U+001C to U+001F. -/
def isBlank (c : Char) : Bool :=
  isWhiteSpace c || (0x1C ≤ c.toNat && c.toNat ≤ 0x1F)

/-! ## Trimming -/

/-- The characters without those at either end that pass the test. -/
def trimList (p : Char → Bool) (cs : List Char) : List Char :=
  ((cs.dropWhile p).reverse.dropWhile p).reverse

/-- The text without blanks at either end. -/
def trim (s : String) : String := String.ofList (trimList isBlank s.toList)

/-- The trimmed text, unless nothing is left of it. -/
def trim? (s : String) : Option String :=
  let t := trim s
  if t = "" then none else some t

/-! ## Splitting at a delimiter -/

/-- Cuts at every occurrence of `sep`, from the left and without overlap.  The first argument
counts the characters of a delimiter still to be passed over, the last one holds the current piece
backwards. -/
def cut (sep : List Char) : Nat → List Char → List Char → List (List Char)
  | _, [], piece => [piece.reverse]
  | skip + 1, _ :: rest, piece => cut sep skip rest piece
  | 0, c :: rest, piece =>
    if sep.isPrefixOf (c :: rest) then piece.reverse :: cut sep (sep.length - 1) rest []
    else cut sep 0 rest (c :: piece)

/-- The pieces of a text between the occurrences of a delimiter that is not empty. -/
def splitAt (sep s : String) : List String :=
  (cut sep.toList 0 s.toList []).map String.ofList

/-- The names in a delimited list: trimmed, blank ones left out. -/
def names (sep s : String) : List String := (splitAt sep s).filterMap trim?

/-- The names in a delimited list that may be missing.  Only an empty text can be cut at an empty
delimiter. -/
def names? (sep : String) (s : Option String) : Option (List String) :=
  match s with
  | none => some []
  | some s => if s = "" then some [] else if sep = "" then none else some (names sep s)

/-- The part before the first `c`, and the part after it when there is one. -/
def splitFirst (c : Char) (cs : List Char) : List Char × Option (List Char) :=
  match cs.dropWhile (· != c) with
  | [] => (cs, none)
  | _ :: rest => (cs.takeWhile (· != c), some rest)

/-- The part after the last `c`, and the part before it when there is one. -/
def splitLast (c : Char) (cs : List Char) : Option (List Char) × List Char :=
  match splitFirst c cs.reverse with
  | (r, none) => (none, r.reverse)
  | (r, some l) => (some l.reverse, r.reverse)

/-- Whether the first list stands somewhere in the second. -/
def isInside (needle : List Char) : List Char → Bool
  | [] => needle.isEmpty
  | c :: rest => needle.isPrefixOf (c :: rest) || isInside needle rest

/-- Whether the first text stands somewhere in the second. -/
def occursIn (needle s : String) : Bool := isInside needle.toList s.toList

end TransferPlan.Text
