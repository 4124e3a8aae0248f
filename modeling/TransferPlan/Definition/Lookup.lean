import TransferPlan.Transformer.Mapping

/-!
# Looking up definitions

A transformer may refer to a definition kept elsewhere.  A lookup answers for an id, and since its
answers may change from one time to the next, it is given the ids that were asked for before.
-/

namespace TransferPlan

/-- Why a definition could not be had. -/
inductive LookupError where
  /-- The reference has an empty id. -/
  | noId
  /-- Nothing is kept under the id. -/
  | notFetched (id : String)
  /-- What is kept under the id is no definition. -/
  | invalid (faults : List Fault)
  /-- The request found no answer. -/
  | requestFailed (path reason : String)
  /-- The answer has another status than success. -/
  | badStatus (method path : String) (status : Int) (detail : String)
  /-- The body of the answer is not JSON. -/
  | notJson (path : String)
  /-- The body of the answer holds no transformer. -/
  | noTransformer (id : String)
  /-- The transformer in the answer is no definition. -/
  | invalidDefinition (id : String) (faults : List Fault)
deriving DecidableEq, Repr

namespace LookupError

def message : LookupError → String
  | noId => "User defined transformer is missing an id."
  | notFetched id => "Transformer " ++ id ++ " could not be fetched"
  | invalid _ => ""
  | requestFailed path reason =>
    "Transformer service request to " ++ path ++ " failed: " ++ reason
  | badStatus method path status detail =>
    "Transformer service call " ++ method ++ " " ++ path ++ " failed with " ++ toString status ++
      ": " ++ detail
  | notJson path => "Transformer service returned a non-JSON body for " ++ path ++ "."
  | noTransformer id =>
    "Transformer service response for " ++ id ++ " did not include a transformer."
  | invalidDefinition id _ =>
    "Transformer service returned an invalid definition for " ++ id ++ ": <validation>"

end LookupError

/-- The answer for an id, after some ids have been asked for. -/
abbrev Lookup := List String → String → Except LookupError Definition

/-- Definitions kept ahead of time: the answers for each id in turn, the last one again and
again.  Null is no answer. -/
def Lookup.ofAnswers (answers : Keyed (List Json)) : Lookup := fun asked id =>
  let given := (answers.get? id).getD []
  match given[min (asked.count id) (given.length - 1)]? with
  | none | some .null => .error (.notFetched id)
  | some (.object fields) =>
    let fields := Keyed.put "id" (.string id) fields
    (Definition.ofJson (.object fields)).toExcept.mapError .invalid
  | some j => (Definition.ofJson j).toExcept.mapError .invalid

/-- Replaces a transformer that refers to a definition by the one that it stands for.  Gives the
ids asked for in all, whether or not the answer is good. -/
def Lookup.resolve (lookup : Lookup) (t : Transformer) (asked : List String) :
    Except LookupError Transformer × List String :=
  match t.config with
  | some (.userDefined id) =>
    if id = "" then (.error .noId, asked)
    else ((lookup asked id).map (·.transformer), asked ++ [id])
  | _ => (.ok t, asked)

end TransferPlan
