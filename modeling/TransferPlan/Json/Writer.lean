import TransferPlan.Json.Basic

/-!
# Writing JSON

The compact form of a value in ASCII: every other character is written as one escape, or as two
for a pair of surrogate halves.
-/

namespace TransferPlan.Json

/-- The form of a character in a string. -/
def escapeChar (c : Char) : List Char :=
  let n := c.toNat
  if n < 127 then Text.Quoted.escape c
  else if n < 0x10000 then '\\' :: 'u' :: Text.Quoted.hex4 n
  else
    let m := n - 0x10000
    '\\' :: 'u' :: Text.Quoted.hex4 (0xD800 + m / 1024) ++
      '\\' :: 'u' :: Text.Quoted.hex4 (0xDC00 + m % 1024)

/-- A string. -/
def writeString (s : String) : String :=
  String.ofList ('"' :: (s.toList.flatMap escapeChar ++ ['"']))

mutual

/-- The text of a value. -/
def write : Json → String
  | .null => "null"
  | .bool b => if b then "true" else "false"
  | .int n => toString n
  | .float x => x.shortest
  | .string s => writeString s
  | .array items => "[" ++ ",".intercalate (writeItems items) ++ "]"
  | .object fields => "\x7b" ++ ",".intercalate (writeFields fields) ++ "\x7d"

def writeItems : List Json → List String
  | [] => []
  | v :: rest => write v :: writeItems rest

def writeFields : List (String × Json) → List String
  | [] => []
  | (k, v) :: rest => (writeString k ++ ":" ++ write v) :: writeFields rest

end

end TransferPlan.Json
