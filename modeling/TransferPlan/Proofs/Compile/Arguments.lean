import TransferPlan.Compile.Stage
import TransferPlan.Proofs.Text.Quoted

/-!
# Reading insert arguments back

The statement that binds columns by position lists their paths in brackets.  A reader that knows
string literals gets the columns back, in order and whatever characters they hold
(`readArguments_insertArguments`).
-/

namespace TransferPlan

/-- The column of the path at the start of the characters, and what follows it. -/
def readInputPath : List Char → Option (String × List Char)
  | 't' :: 'h' :: 'i' :: 's' :: '.' :: rest =>
    (Text.Quoted.read rest).map fun r => (String.ofList r.1, r.2)
  | _ => none

theorem length_of_readInputPath {cs rest : List Char} {column : String}
    (h : readInputPath cs = some (column, rest)) : rest.length < cs.length := by
  unfold readInputPath at h
  split at h
  · obtain ⟨r, hread, heq⟩ := Option.map_eq_some_iff.1 h
    obtain ⟨-, rfl⟩ := Prod.mk.inj heq
    have := Text.Quoted.length_of_read hread
    simp only [List.length_cons]
    omega
  · exact nomatch h

/-- The columns of a list of paths that ends with its closing bracket. -/
def readPaths (cs : List Char) : Option (List String) :=
  match _h : readInputPath cs with
  | some (column, [']']) => some [column]
  | some (column, ',' :: ' ' :: rest) => (readPaths rest).map (column :: ·)
  | _ => none
termination_by cs.length
decreasing_by
  have := length_of_readInputPath _h
  simp only [List.length_cons] at this
  omega

theorem readPaths_of_close {cs : List Char} {column : String}
    (h : readInputPath cs = some (column, [']'])) : readPaths cs = some [column] := by
  rw [readPaths]
  split <;> simp_all

theorem readPaths_of_comma {cs rest : List Char} {column : String}
    (h : readInputPath cs = some (column, ',' :: ' ' :: rest)) :
    readPaths cs = (readPaths rest).map (column :: ·) := by
  rw [readPaths]
  split <;> simp_all

/-- The columns that a statement binds, in order. -/
def readArguments (s : String) : Option (List String) :=
  match s.toList with
  | [] => some []
  | 'r' :: 'o' :: 'o' :: 't' :: ' ' :: '=' :: ' ' :: '[' :: rest => readPaths rest
  | _ => none

theorem readInputPath_inputPath (column : String) (rest : List Char) :
    readInputPath ((inputPath column).toList ++ rest) = some (column, rest) := by
  have hpath : (inputPath column).toList =
      't' :: 'h' :: 'i' :: 's' :: '.' :: Text.Quoted.encodeList column.toList := by
    simp [inputPath, Text.Quoted.encode]
  rw [hpath]
  simp [readInputPath, Text.Quoted.read_encodeList]

theorem readPaths_intercalate (column : String) (columns : List String) :
    readPaths ((", ".intercalate ((column :: columns).map inputPath)).toList ++ [']']) =
      some (column :: columns) := by
  induction columns generalizing column with
  | nil =>
      rw [List.map_singleton, String.intercalate_singleton]
      exact readPaths_of_close (readInputPath_inputPath _ _)
  | cons next columns ih =>
      have hcons : (", ".intercalate ((column :: next :: columns).map inputPath)).toList ++ [']'] =
          (inputPath column).toList ++ (',' :: ' ' ::
            ((", ".intercalate ((next :: columns).map inputPath)).toList ++ [']'])) := by
        simp [String.intercalate_cons_cons]
      rw [hcons, readPaths_of_comma (readInputPath_inputPath _ _), ih]
      rfl

theorem readArguments_insertArguments (columns : List String) :
    readArguments (insertArguments columns) = some columns := by
  cases columns with
  | nil => rfl
  | cons column columns =>
      have hlist : (insertArguments (column :: columns)).toList =
          'r' :: 'o' :: 'o' :: 't' :: ' ' :: '=' :: ' ' :: '[' ::
            ((", ".intercalate ((column :: columns).map inputPath)).toList ++ [']']) := by
        simp [insertArguments]
      rw [readArguments, hlist]
      exact readPaths_intercalate column columns

end TransferPlan
