import TransferPlan.Keyed

/-!
# Passes

A table is written in one or two passes: an insert pass, and for a table with deferred columns an
update pass that fills them in.  A pass needs columns of other passes to be written before it, and
a list of passes is a valid order when each one finds what it needs written by earlier ones.
-/

namespace TransferPlan

/-- An insert pass adds the rows of a table, an update pass fills in columns of its rows. -/
inductive PassKind where
  | insert
  | update
deriving DecidableEq, Repr

def PassKind.name : PassKind → String
  | .insert => "insert"
  | .update => "update"

/-- Columns of a table that must have been written. -/
structure Need where
  table : String
  columns : List String
deriving DecidableEq, Repr

/-- One run over a table. -/
structure Pass where
  table : String
  kind : PassKind
  primaryKeys : List String
  reads : List String
  writes : List String
  needs : List Need
  isSplit : Bool := false
  filter : Option String := none
deriving DecidableEq, Repr

namespace Pass

/-- The columns written so far in each table. -/
abbrev Written := Keyed (List String)

/-- Whether the columns needed are among those written.  A table that no pass has written yet
meets no need. -/
def Written.meets (w : Written) (n : Need) : Bool :=
  match w.get? n.table with
  | some columns => n.columns.all columns.contains
  | none => false

/-- The columns written after one more pass. -/
def Written.after (w : Written) (p : Pass) : Written := w.alter p.table [] (· ++ p.writes)

/-- Whether every pass finds its needs met by the columns written and by the passes before it. -/
def isValidAfter (w : Written) : List Pass → Bool
  | [] => true
  | p :: rest => p.needs.all w.meets && isValidAfter (w.after p) rest

/-- Whether every pass finds its needs met by the passes before it. -/
def isValidOrder (passes : List Pass) : Bool := isValidAfter .empty passes

end Pass

end TransferPlan
