import TransferPlan.Proofs.Compile.Content

/-!
# Columns that need a cache

A pass fails for want of a cache only if one of its columns takes its values from the cache and
there is none (`failsOnly_stages`); resolving references never fails in this way.
-/

namespace TransferPlan

/-- The error has the property if it is about a missing cache. -/
def CompileError.IfBridge (P : BridgeError → Prop) (e : CompileError) : Prop :=
  ∀ b, e = .bridge b → P b

/-- There is no cache, and the error names a reference to one of the mappings. -/
def BridgeError.Lacks (mappings : List Mapping) (references : ColumnReferences)
    (cache : Option CacheConfig) (b : BridgeError) : Prop :=
  cache = none ∧ ∃ m ∈ mappings, ∃ r ∈ m.bridges references, b = ⟨m.tableKey, m.column, r⟩

open Compile

/-! ## Resolving references -/

section

variable {P : BridgeError → Prop}

theorem failsOnly_asking (lookup : Lookup) (t : Transformer) :
    FailsOnly (CompileError.IfBridge P) (Resolver.asking lookup t) := by
  refine (failsOnly_of_run_eq_ok fun s => ⟨s, s, rfl⟩).bind fun session _ _ _ => ?_
  rcases lookup.resolve t session.asked with ⟨answer, asked⟩
  refine (failsOnly_of_run_eq_ok fun s => ⟨_, _, rfl⟩).bind fun _ _ _ _ => ?_
  cases answer with
  | ok t => exact failsOnly_pure t
  | error e => exact failsOnly_throw nofun

theorem failsOnly_remembering (lookup : Lookup) (t : Transformer) :
    FailsOnly (CompileError.IfBridge P) (Resolver.remembering lookup t) := by
  unfold Resolver.remembering
  split
  · refine (failsOnly_of_run_eq_ok fun s => ⟨s, s, rfl⟩).bind fun session _ _ _ => ?_
    split
    · exact failsOnly_pure _
    · refine (failsOnly_asking lookup t).bind fun found _ _ _ => ?_
      exact (failsOnly_of_run_eq_ok fun s => ⟨_, _, rfl⟩).bind fun _ _ _ _ => failsOnly_pure _
  · exact failsOnly_throw nofun

theorem failsOnly_resolve (lookup : Option Lookup) (m : Mapping) :
    FailsOnly (CompileError.IfBridge P) (m.resolve (lookup.map Resolver.remembering)) := by
  unfold Mapping.resolve
  split
  · exact failsOnly_pure m
  · next t _ =>
      split_ifs
      · exact failsOnly_pure m
      · cases lookup with
        | none => exact failsOnly_throw nofun
        | some lookup =>
            refine (failsOnly_remembering lookup t).bind fun found _ _ _ => ?_
            dsimp only
            split_ifs
            · exact failsOnly_throw nofun
            · exact failsOnly_pure _

end

/-! ## The stages of a pass -/

section

variable {mappings resolved : List Mapping} {columns : Keyed Column}
  {references : ColumnReferences} {pass : Pass} {id : RunId} {cache : Option CacheConfig}
  {b : BridgeError}

theorem lacks_of_branches_eq_error (h : branches resolved references id cache = .error b) :
    b.Lacks resolved references cache := by
  rcases bind_eq_error_iff.1 h with h | ⟨bss, -, h⟩
  · obtain ⟨m, hm, h⟩ := exists_of_mapM_eq_error h
    rw [branches_eq] at h
    obtain ⟨r, hr, h⟩ := exists_of_mapM_eq_error h
    cases cache with
    | none => exact ⟨rfl, m, hm, r, hr, (Except.error.inj h).symm⟩
    | some config => exact nomatch h
  · exact nomatch h

theorem lacks_of_stagesOf_eq_error
    (h : stagesOf resolved columns references id cache = .error (.bridge b)) :
    b.Lacks resolved references cache := by
  rcases bind_eq_error_iff.1 h with h | ⟨_, -, h⟩
  · exact absurd h (mapError_ne_error nofun)
  rcases bind_eq_error_iff.1 h with h | ⟨_, -, h⟩
  · exact absurd h (mapError_ne_error nofun)
  rcases bind_eq_error_iff.1 h with h | ⟨_, -, h⟩
  · obtain ⟨b', hbranches, hb⟩ := mapError_eq_error_iff.1 h
    obtain rfl := CompileError.bridge.inj hb
    exact lacks_of_branches_eq_error hbranches
  · exact nomatch h

/-- What mappings lack does not depend on their transformers. -/
theorem BridgeError.Lacks.of_bare (h : b.Lacks resolved references cache)
    (hbare : resolved.map Mapping.bare = mappings.map Mapping.bare) :
    b.Lacks mappings references cache := by
  obtain ⟨hcache, m', hm', r, hr, rfl⟩ := h
  have hmem : m'.bare ∈ mappings.map Mapping.bare := hbare ▸ List.mem_map_of_mem hm'
  obtain ⟨m, hm, hmm⟩ := List.mem_map.1 hmem
  have hr' : r ∈ m.bare.bridges references := hmm ▸ hr
  refine ⟨hcache, m, hm, r, hr', ?_⟩
  change BridgeError.mk m'.bare.tableKey m'.bare.column r = ⟨m.bare.tableKey, m.bare.column, r⟩
  rw [hmm]

theorem failsOnly_stages (lookup : Option Lookup) :
    FailsOnly (CompileError.IfBridge
        (BridgeError.Lacks (selectMappings mappings pass.writes) references cache))
      (stages mappings columns references pass id cache (lookup.map Resolver.remembering)) := by
  refine (FailsOnly.mapM fun m _ => failsOnly_resolve lookup m).bind fun resolved s s' hrun => ?_
  split
  · exact failsOnly_pure _
  · next e he =>
      refine failsOnly_throw ?_
      rintro b rfl
      exact (lacks_of_stagesOf_eq_error he).of_bare (bare_of_run hrun)

end

end TransferPlan
