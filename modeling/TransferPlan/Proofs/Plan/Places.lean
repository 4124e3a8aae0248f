import TransferPlan.Proofs.Plan.Permutation

/-!
# Where the mappings stand

Neither the check of the schema nor the order of the passes looks at the transformers: mappings of
the same columns in the same order have the same check and the same order (`order_of_place_eq`).
-/

namespace TransferPlan

/-- The table and the column of a mapping. -/
def Mapping.place (m : Mapping) : String × String := (m.tableKey, m.column)

namespace Drift

variable {live : LiveSchema} {mappings mappings' : List Mapping}

theorem mappedColumns_of_place_eq
    (h : mappings'.map Mapping.place = mappings.map Mapping.place) :
    mappedColumns mappings' = mappedColumns mappings := by
  have hplaces : ∀ l : List Mapping, mappedColumns l = (l.map Mapping.place).foldl
      (fun m x => m.alter x.1 [] fun columns =>
        if columns.contains x.2 then columns else columns ++ [x.2]) .empty := fun l => by
    rw [List.foldl_map]
    rfl
  rw [hplaces, hplaces, h]

theorem unknownColumns_of_place_eq
    (h : mappings'.map Mapping.place = mappings.map Mapping.place) :
    unknownColumns live mappings' = unknownColumns live mappings := by
  have hplaces : ∀ l : List Mapping, unknownColumns live l =
      (l.map Mapping.place).filterMap fun x =>
        if (liveColumns live x.1).contains x.2 then none else some (x.1 ++ "." ++ x.2) :=
    fun l => List.filterMap_map.symm ▸ rfl
  rw [hplaces, hplaces, h]

theorem validate_of_place_eq (live : LiveSchema)
    (h : mappings'.map Mapping.place = mappings.map Mapping.place) :
    validate live mappings' = validate live mappings := by
  have hmapped := mappedColumns_of_place_eq h
  have hunmapped : unmappedColumns live mappings' = unmappedColumns live mappings := by
    rw [unmappedColumns, unmappedColumns, hmapped]
  have hhalt : shouldHalt live mappings' = shouldHalt live mappings := by
    rw [shouldHalt, shouldHalt, hunmapped, hmapped]
  rw [validate, validate, unknownColumns_of_place_eq h, hhalt, hunmapped]

end Drift

namespace Context

variable {c : Context} {mappings : List Mapping}

theorem job_of_place_eq (h : mappings.map Mapping.place = c.mappings.map Mapping.place) :
    (c.remapped mappings).job = c.job := by
  have hplaces : ∀ (l : List Mapping) (t : String), (l.filter (·.tableKey == t)).isEmpty =
      ((l.map Mapping.place).filter (·.1 == t)).isEmpty := fun l t => by
    rw [List.filter_map, List.isEmpty_map]
    rfl
  have hempty : ∀ t, ((c.remapped mappings).mappingsOf t).isEmpty = (c.mappingsOf t).isEmpty :=
    fun t => by rw [mappingsOf, mappingsOf, hplaces, hplaces, ← h]; rfl
  simp only [job, hempty]
  rfl

theorem order_of_place_eq (h : mappings.map Mapping.place = c.mappings.map Mapping.place) :
    (c.remapped mappings).order = c.order := by
  have hvalid := Drift.validate_of_place_eq c.schema h
  rw [order, order, job_of_place_eq h, ← hvalid]
  rfl

end Context

end TransferPlan
