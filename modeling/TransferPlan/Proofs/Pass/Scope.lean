import TransferPlan.Proofs.Pass.Plan

/-!
# What an order reads

Besides the foreign keys and the columns of a job, an order depends on the primary keys and the
filters of the job's own tables only (`order_congr`).
-/

namespace TransferPlan

namespace Job

variable {j : Job} {primaryKeys : Keyed (List String)} {filters : Keyed String}

/-- The job with other primary keys and filters. -/
def withKeys (j : Job) (primaryKeys : Keyed (List String)) (filters : Keyed String) : Job :=
  { j with primaryKeys, filters }

theorem passesOf_withKeys {cs : Components} {t : String} {all : List String}
    (hkey : (primaryKeys.get? t).getD [] = (j.primaryKeys.get? t).getD [])
    (hfilter : filters.get? t = j.filters.get? t) :
    (j.withKeys primaryKeys filters).passesOf cs t all = j.passesOf cs t all := by
  unfold passesOf
  simp only [withKeys, hkey, hfilter]
  rfl

theorem order_congr
    (hkey : ∀ t ∈ j.tables, (primaryKeys.get? t).getD [] = (j.primaryKeys.get? t).getD [])
    (hfilter : ∀ t ∈ j.tables, filters.get? t = j.filters.get? t) :
    (j.withKeys primaryKeys filters).order = j.order := by
  have hpasses : ∀ cs, (j.withKeys primaryKeys filters).passes cs = j.passes cs := fun cs =>
    congrArg (Except.map List.flatten) <| mapM_congr fun e he =>
      passesOf_withKeys (hkey e.1 (mem_tables he)) (hfilter e.1 (mem_tables he))
  unfold order
  simp only [hpasses]
  rfl

end Job

end TransferPlan
