import TransferPlan.Proofs.Compile.Run
import TransferPlan.Proofs.Compile.Treatment

/-!
# The stages of resolved mappings

If the stages of resolved mappings are compiled, no treatment fails and the stages hold the shares
of the mappings (`stagesOf_eq_ok`).  The resolved mappings have the columns that are written and
mapped, and each comes from the last mapping of its column (`resolved_of_run`).
-/

namespace TransferPlan

/-! ## The stages of resolved mappings -/

section

variable {m : Mapping} {columns : Keyed Column} {references : ColumnReferences} {id : RunId}
  {cache : Option CacheConfig}

/-- What is not bridged by its name is not bridged by its own references, for no two of the mappings
have the same name. -/
theorem plain_eq {resolved : List Mapping} (hnd : (resolved.map (·.column)).Nodup) :
    (resolved.filter fun m => !(bridgedColumns resolved references).contains m.column) =
      resolved.filter fun m => !m.isBridged references := by
  refine List.filter_congr fun m hm => congrArg Bool.not ?_
  rw [Bool.eq_iff_iff, List.contains_iff_mem, bridgedColumns, List.mem_eraseDups]
  constructor
  · intro hc
    obtain ⟨m', hm', hcol⟩ := List.mem_map.1 hc
    obtain ⟨hm', hb⟩ := List.mem_filter.1 hm'
    exact List.inj_on_of_nodup_map hnd hm' hm hcol ▸ hb
  · exact fun hb => List.mem_map_of_mem (List.mem_filter.2 ⟨hm, hb⟩)

/-- A list of texts that are not empty makes an empty text only if it is empty. -/
theorem intercalate_eq_empty_iff {l : List String} (h : ∀ x ∈ l, x ≠ "") (sep : String) :
    sep.intercalate l = "" ↔ l = [] := by
  match l with
  | [] => simp
  | [x] => simpa using h x List.mem_cons_self
  | x :: y :: l => simp [String.intercalate_cons_cons, h x List.mem_cons_self]

theorem line_ne_empty (a : String × Expression) : Content.line a ≠ "" := by
  simp [Content.line, outputPath]

theorem block_eq_empty_iff {scripts : List Script} : Script.block scripts = "" ↔ scripts = [] := by
  cases scripts <;> simp [Script.block]

variable {resolved : List Mapping}

theorem mutation_eq_ok {text : String}
    (h : mutation (resolved.filter fun m => !m.isBridged references) columns = .ok text) :
    (∀ m ∈ resolved, m.treatment references = .assigned →
      ∃ e, m.expression (columns.get? m.column) = .ok e) ∧
    text = "\n".intercalate
      ((resolved.flatMap fun m => (m.assignment? columns references).toList).map Content.line) := by
  obtain ⟨lines, hlines, rfl⟩ := map_eq_ok_iff.1 h
  have hpick : ∀ m : Mapping, (m.isMutated && !m.isBridged references) = true ↔
      m.treatment references = .assigned := by
    intro m
    rw [treatment_eq_assigned_iff, Bool.and_eq_true, Bool.not_eq_true', and_comm]
  rw [mutationLines, List.filter_filter] at hlines
  obtain ⟨hall, rfl⟩ := eq_filterMap_of_mapM hlines
  constructor
  · intro m hm ht
    obtain ⟨l, hl⟩ := hall m (List.mem_filter.2 ⟨hm, (hpick m).2 ht⟩)
    obtain ⟨e, he, -⟩ := map_eq_ok_iff.1 hl
    exact ⟨e, he⟩
  · rw [← List.filterMap_eq_flatMap_toList, List.map_filterMap, List.filterMap_filter]
    refine congrArg _ (List.filterMap_congr fun m _ => ?_)
    by_cases ht : m.treatment references = .assigned
    · rw [if_pos ((hpick m).2 ht), Mapping.assignment?, if_pos ht, Mapping.mutationLine]
      cases m.expression (columns.get? m.column) <;> rfl
    · rw [if_neg (mt (hpick m).1 ht), Mapping.assignment?, if_neg ht]
      rfl

theorem scriptBlock_eq_ok {text : String}
    (h : scriptBlock (resolved.filter fun m => !m.isBridged references) = .ok text) :
    (∀ m ∈ resolved, m.treatment references = .scripted → ∃ o, m.script = .ok o) ∧
    text = Script.block (resolved.flatMap fun m => (m.script? references).toList) := by
  obtain ⟨held, hheld, rfl⟩ := map_eq_ok_iff.1 h
  obtain ⟨options, hoptions, rfl⟩ := map_eq_ok_iff.1 hheld
  obtain ⟨hall, rfl⟩ := eq_filterMap_of_mapM hoptions
  constructor
  · intro m hm ht
    exact hall m (List.mem_filter.2 ⟨hm, by simp [(treatment_eq_scripted_iff.1 ht).1]⟩)
  · rw [← List.filterMap_eq_flatMap_toList, List.filterMap_filterMap, List.filterMap_filter]
    refine congrArg _ (List.filterMap_congr fun m _ => ?_)
    by_cases ht : m.treatment references = .scripted
    · rw [Mapping.script?, if_pos ht, (treatment_eq_scripted_iff.1 ht).1]
      rfl
    · rw [Mapping.script?, if_neg ht]
      cases hb : m.isBridged references with
      | true => rfl
      | false =>
          rw [script_of_ne fun hs => ht (treatment_eq_scripted_iff.2 ⟨hb, hs⟩)]
          rfl

theorem branches_eq_ok_of_mapping {bs : List Branch}
    (h : m.branches references id cache = .ok bs) :
    (m.treatment references = .cached → ∃ config, cache = some config) ∧
      bs = (m.cacheBranches references id cache).map (·.2) := by
  rw [branches_eq] at h
  obtain ⟨hall, rfl⟩ := eq_filterMap_of_mapM h
  cases cache with
  | some config =>
      refine ⟨fun _ => ⟨config, rfl⟩, ?_⟩
      simp [Mapping.cacheBranches, branchOf, Except.toOption]
  | none =>
      have hnil : m.bridges references = [] := by
        refine List.eq_nil_iff_forall_not_mem.2 fun r hr => ?_
        obtain ⟨b, hb⟩ := hall r hr
        cases hb
      refine ⟨fun ht => ?_, by simp [Mapping.cacheBranches, hnil]⟩
      exact absurd hnil (isBridged_eq_true_iff.1 (treatment_eq_cached_iff.1 ht))

theorem branches_eq_ok {bs : List Branch} (h : branches resolved references id cache = .ok bs) :
    (∀ m ∈ resolved, m.treatment references = .cached → ∃ config, cache = some config) ∧
      bs = (resolved.flatMap fun m => m.cacheBranches references id cache).map (·.2) := by
  obtain ⟨bss, hbss, hbs⟩ := bind_eq_ok_iff.1 h
  obtain rfl := Except.ok.inj hbs
  obtain ⟨hall, rfl⟩ := eq_filterMap_of_mapM hbss
  constructor
  · intro m hm
    obtain ⟨bs, hbs⟩ := hall m hm
    exact (branches_eq_ok_of_mapping hbs).1
  · have hvalue : resolved.filterMap (fun m => (m.branches references id cache).toOption) =
        resolved.map fun m => (m.cacheBranches references id cache).map (·.2) := by
      rw [← List.filterMap_eq_map]
      refine List.filterMap_congr fun m hm => ?_
      obtain ⟨bs, hbs⟩ := hall m hm
      rw [hbs, (branches_eq_ok_of_mapping hbs).2]
      rfl
    rw [hvalue, List.map_flatMap, List.flatMap_def]

/-- If the stages of resolved mappings are compiled, no treatment fails, and the stages hold the
shares of the mappings. -/
theorem stagesOf_eq_ok {out : List Stage} (hnd : (resolved.map (·.column)).Nodup)
    (h : stagesOf resolved columns references id cache = .ok out) :
    (∀ m ∈ resolved, m.Compiles columns references cache) ∧
      out = (Content.ofMappings columns references id cache resolved).stages := by
  simp only [stagesOf, plain_eq hnd] at h
  obtain ⟨text, htext, h⟩ := bind_eq_ok_iff.1 h
  obtain ⟨block, hblock, h⟩ := bind_eq_ok_iff.1 h
  obtain ⟨bs, hbs, h⟩ := bind_eq_ok_iff.1 h
  obtain ⟨hassigned, rfl⟩ := mutation_eq_ok (mapError_eq_ok_iff.1 htext)
  obtain ⟨hscripted, rfl⟩ := scriptBlock_eq_ok (mapError_eq_ok_iff.1 hblock)
  obtain ⟨hcached, rfl⟩ := branches_eq_ok (mapError_eq_ok_iff.1 hbs)
  refine ⟨fun m hm => ⟨hassigned m hm, hscripted m hm, hcached m hm⟩, ?_⟩
  have htext : ∀ l : List (String × Expression),
      "\n".intercalate (l.map Content.line) = "" ↔ l = [] := fun l => by
    rw [intercalate_eq_empty_iff, List.map_eq_nil_iff]
    intro x hx
    obtain ⟨a, -, rfl⟩ := List.mem_map.1 hx
    exact line_ne_empty a
  simp only [← Except.ok.inj h, Content.stages, Content.ofMappings, htext, block_eq_empty_iff,
    List.isEmpty_iff, List.map_map]
  rfl

theorem inOrder_ofMappings {written : List String} (hnd : written.Nodup)
    (h : (resolved.map (·.column)).Sublist written) :
    (Content.ofMappings columns references id cache resolved).InOrder written where
  assignments := (map_flatMap_sublist (fun _ _ _ => fst_of_mem_assignment?)
    fun _ _ => Option.length_toList_le).trans h
  scripts := (map_flatMap_sublist (fun _ _ _ => column_of_mem_script?)
    fun _ _ => Option.length_toList_le).trans h
  branches := pairwise_flatMap_key (fun _ _ _ => fst_of_mem_cacheBranches) (fun _ => Nat.le_refl _)
    (((pairwise_idxOf_lt hnd).sublist h).imp Nat.le_of_lt)

theorem mem_columns_ofMappings {c : String}
    (h : c ∈ (Content.ofMappings columns references id cache resolved).columns) :
    c ∈ resolved.map (·.column) := by
  simp only [Content.columns, List.mem_append] at h
  rcases h with (h | h) | h <;> obtain ⟨x, hx, rfl⟩ := List.mem_map.1 h
  · exact mem_map_of_mem_flatMap (fun _ _ _ => fst_of_mem_assignment?) hx
  · exact mem_map_of_mem_flatMap (fun _ _ _ => column_of_mem_script?) hx
  · exact mem_map_of_mem_flatMap (fun _ _ _ => fst_of_mem_cacheBranches) hx

end

/-! ## Resolved mappings -/

/-- The last mapping of its column. -/
def Mapping.IsLastOf (m : Mapping) (mappings : List Mapping) : Prop :=
  ∃ front back, mappings = front ++ m :: back ∧ ∀ x ∈ back, x.column ≠ m.column

/-- The mapping with its reference to a definition, if it has one, replaced by a transformer that
refers to none. -/
inductive Mapping.ResolvesTo (resolver : Option Resolver) (m : Mapping) : Mapping → Prop
  | same (h : ∀ t, m.transformer = some t → t.source ≠ .userDefined) : ResolvesTo resolver m m
  | replaced {t found : Transformer} {resolve : Resolver} {s s' : Session}
      (transformer : m.transformer = some t) (source : t.source = .userDefined)
      (given : resolver = some resolve) (answer : (resolve t).run.run s = (.ok found, s'))
      (final : found.source ≠ .userDefined) :
      ResolvesTo resolver m { m with transformer := some found }

section

variable {m m' : Mapping} {mappings : List Mapping} {written : List String}
  {resolver : Option Resolver} {s s' : Session}

theorem map_column_selectMappings :
    (selectMappings mappings written).map (·.column) =
      written.filter fun c => mappings.any (·.column == c) := by
  rw [selectMappings, List.map_filterMap, ← List.filterMap_eq_filter]
  refine List.filterMap_congr fun c _ => ?_
  cases hf : mappings.reverse.find? (·.column == c) with
  | none =>
      have hno : mappings.any (·.column == c) = false := by simpa using hf
      rw [Option.guard, hno]
      rfl
  | some m =>
      have hm : m ∈ mappings := by simpa using List.mem_of_find?_eq_some hf
      have hc : m.column = c := by simpa using List.find?_some hf
      have hany : mappings.any (·.column == c) = true := List.any_eq_true.2 ⟨m, hm, by simp [hc]⟩
      rw [Option.guard, hany, Option.map_some, hc]
      rfl

theorem isLastOf_of_mem_selectMappings (h : m ∈ selectMappings mappings written) :
    m.IsLastOf mappings := by
  obtain ⟨c, -, hf⟩ := List.mem_filterMap.1 h
  obtain ⟨hc, front, back, hrev, hfront⟩ := List.find?_eq_some_iff_append.1 hf
  obtain rfl := eq_of_beq hc
  refine ⟨back.reverse, front.reverse, ?_, fun x hx => ?_⟩
  · rw [← List.reverse_reverse mappings, hrev]
    simp
  · simpa using hfront x (List.mem_reverse.1 hx)

theorem resolvesTo_of_run (h : (m.resolve resolver).run.run s = (.ok m', s')) :
    m.ResolvesTo resolver m' := by
  unfold Mapping.resolve at h
  split at h
  · next hm =>
      obtain ⟨rfl, -⟩ := Compile.run_pure_eq_ok_iff.1 h
      exact .same fun t ht => nomatch hm.symm.trans ht
  · next t ht =>
      split_ifs at h with hs
      · obtain ⟨rfl, -⟩ := Compile.run_pure_eq_ok_iff.1 h
        exact .same fun t' ht' => Option.some.inj (ht.symm.trans ht') ▸ hs
      · rw [not_not] at hs
        split at h
        · exact absurd h Compile.run_throw_ne_ok
        · next resolve hr =>
            obtain ⟨found, s₁, hfound, h⟩ := Compile.run_bind_eq_ok_iff.1 h
            split_ifs at h with hf
            · exact absurd h Compile.run_throw_ne_ok
            · obtain ⟨rfl, -⟩ := Compile.run_pure_eq_ok_iff.1 h
              exact .replaced ht hs rfl hfound hf

theorem Mapping.ResolvesTo.column (h : m.ResolvesTo resolver m') : m'.column = m.column := by
  cases h <;> rfl

/-- The resolved mappings have the columns of the selected ones, and each comes from the last
mapping of its column. -/
theorem resolved_of_run {resolved : List Mapping}
    (h : ((selectMappings mappings written).mapM (Mapping.resolve resolver)).run.run s =
      (.ok resolved, s')) :
    resolved.map (·.column) = (selectMappings mappings written).map (·.column) ∧
      ∀ m' ∈ resolved, ∃ m : Mapping, m.IsLastOf mappings ∧ m.ResolvesTo resolver m' := by
  have hall : List.Forall₂ (fun m m' => m.ResolvesTo resolver m')
      (selectMappings mappings written) resolved :=
    (Compile.forall₂_of_run_mapM h).imp fun _ _ ⟨_, _, hr⟩ => resolvesTo_of_run hr
  constructor
  · have hcolumn := hall.imp fun _ _ hr => hr.column
    rw [← List.forall₂_eq_eq_eq, List.forall₂_map_left_iff, List.forall₂_map_right_iff]
    exact hcolumn.flip
  · intro m' hm'
    obtain ⟨m, hm, hr⟩ := exists_of_mem_right hall hm'
    exact ⟨m, isLastOf_of_mem_selectMappings hm, hr⟩

end

end TransferPlan
