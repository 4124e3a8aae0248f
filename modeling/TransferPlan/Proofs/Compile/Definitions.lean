import TransferPlan.Proofs.Compile.References

/-!
# Definitions in place of references

A compilation that asks for definitions, and remembers them by their ids, goes on as if each
mapping had carried its definition directly, or stops at a definition that it cannot have
(`Follows`).  It asks for each id at most once (`Resolution.exists_asksOnce`), and what it compiles
under an id is the one answer that it was given (`Resolution.exists_answers`).
-/

namespace TransferPlan

/-! ## Compilations that resolve references -/

/-- How the reference of a mapping is not resolved, with the error and the session after it. -/
inductive Stopped (lookup : Lookup) (m : Mapping) (s : Session) : CompileError → Session → Prop
  | unconfigured (refers : m.Refers) (missing : m.definitionId? = none) :
    Stopped lookup m s (.transformer .noDefinitionConfig) s
  | noId (given : m.definitionId? = some "") : Stopped lookup m s (.lookup .noId) s
  | refused {id : String} {e : LookupError} (given : m.definitionId? = some id)
    (new : s.known.get? id = none) (answer : lookup s.asked id = .error e) :
    Stopped lookup m s (.lookup e) { s with asked := s.asked ++ [id] }
  | nested {id : String} {d : Definition} (given : m.definitionId? = some id)
    (new : s.known.get? id = none) (answer : lookup s.asked id = .ok d)
    (source : d.source = .userDefined) :
    Stopped lookup m s (.transformer (.nestedDefinition m.column))
      { s with asked := s.asked ++ [id], known := s.known.insert id d.transformer }
  | nestedKnown {id : String} {t : Transformer} (given : m.definitionId? = some id)
    (known : s.known.get? id = some t) (source : t.source = .userDefined) :
    Stopped lookup m s (.transformer (.nestedDefinition m.column)) s

/-- What comes of a compilation that uses some mappings in turn, started in the session `s`. -/
inductive Resolution {α : Type} (lookup : Lookup) (used : List Mapping)
    (direct : Answers → Compile α) (s : Session) : Except CompileError α × Session → Prop
  /-- The references are resolved, all of them if there is a result, and the direct form gives the
  same result or error, if it has looked as often whether it was cancelled. -/
  | same {r : Except CompileError α} {s' : Session} (front back : List Mapping)
    (split : used = front ++ back) (all : ∀ a, r = .ok a → back = [])
    (resolved : Resolved lookup (front.filterMap Mapping.definitionId?) s s')
    (agrees : ∀ answers : Answers, answers.Extend s'.known → ∀ t : Session, t.checks = s.checks →
      ∃ t', (direct answers).run.run t = (r, t') ∧ t'.checks = s'.checks) :
    Resolution lookup used direct s (r, s')
  /-- One of the references is not resolved. -/
  | stopped {e : CompileError} {s₁ s' : Session} (front : List Mapping) (m : Mapping)
    (back : List Mapping) (split : used = front ++ m :: back)
    (resolved : Resolved lookup (front.filterMap Mapping.definitionId?) s s₁)
    (reason : Stopped lookup m s₁ e s') : Resolution lookup used direct s (.error e, s')

/-- The compilation uses some mappings in turn and otherwise does what its direct form does. -/
def Follows {α : Type} (lookup : Lookup) (used : List Mapping) (direct : Answers → Compile α)
    (x : Compile α) : Prop :=
  ∀ s, Resolution lookup used direct s (x.run.run s)

section Follows

variable {α β : Type} {lookup : Lookup} {used used' : List Mapping}

/-- A compilation that leaves the session as it is follows itself. -/
theorem follows_of_run_eq {x : Compile α} {r : Except CompileError α}
    (h : ∀ s, x.run.run s = (r, s)) : Follows lookup [] (fun _ => x) x := fun s => by
  rw [h]
  exact .same [] [] rfl (fun _ _ => rfl) (.nil rfl rfl) fun _ _ t ht => ⟨t, h t, ht⟩

section Bind

variable {x : Compile α} {f : α → Compile β} {direct : Answers → Compile α}
  {direct' : α → Answers → Compile β} {s s₁ : Session}

theorem Resolution.bind_error {e : CompileError}
    (h : Resolution lookup used direct s (.error e, s₁)) :
    Resolution lookup (used ++ used') (fun answers => direct answers >>= fun a => direct' a answers)
      s (.error e, s₁) := by
  cases h with
  | same front back split _ resolved agrees =>
      refine .same front (back ++ used') (by rw [split, List.append_assoc]) nofun resolved ?_
      intro answers hans t ht
      obtain ⟨t', hrun, ht'⟩ := agrees answers hans t ht
      exact ⟨t', Compile.run_bind_of_error hrun, ht'⟩
  | stopped front m back split resolved reason =>
      exact .stopped front m (back ++ used') (by simp [split]) resolved reason

theorem Resolution.bind_ok {a : α} {r : Except CompileError β} {s' : Session}
    (h : Resolution lookup used direct s (.ok a, s₁))
    (h' : Resolution lookup used' (direct' a) s₁ (r, s')) :
    Resolution lookup (used ++ used') (fun answers => direct answers >>= fun a => direct' a answers)
      s (r, s') := by
  cases h with
  | same front back split all resolved agrees =>
  -- there is a result, so no mapping of the first part is left
  obtain rfl := all a rfl
  obtain rfl := split.trans (List.append_nil front)
  have hresolved : ∀ {front' : List Mapping} {s₂ : Session},
      Resolved lookup (front'.filterMap Mapping.definitionId?) s₁ s₂ →
        Resolved lookup ((used ++ front').filterMap Mapping.definitionId?) s s₂ := fun h => by
    rw [List.filterMap_append]
    exact resolved.trans h
  cases h' with
  | same front' back' split' all' resolved' agrees' =>
      refine .same (used ++ front') back' (by rw [split', List.append_assoc]) all'
        (hresolved resolved') ?_
      intro answers hans t ht
      obtain ⟨t₁, hrun, ht₁⟩ := agrees answers (resolved'.extend_left hans) t ht
      obtain ⟨t', hrun', ht'⟩ := agrees' answers hans t₁ ht₁
      exact ⟨t', (Compile.run_bind_of_ok hrun).trans hrun', ht'⟩
  | stopped front' m back' split' resolved' reason =>
      exact .stopped (used ++ front') m back' (by rw [split', List.append_assoc])
        (hresolved resolved') reason

theorem Follows.bind (hx : Follows lookup used direct x)
    (hf : ∀ a, Follows lookup used' (direct' a) (f a)) :
    Follows lookup (used ++ used') (fun answers => direct answers >>= fun a => direct' a answers)
      (x >>= f) := by
  intro s
  have hxs := hx s
  rcases hrun : x.run.run s with ⟨e | a, s₁⟩
  · rw [hrun] at hxs
    rw [Compile.run_bind_of_error hrun]
    exact hxs.bind_error
  · rw [hrun] at hxs
    rw [Compile.run_bind_of_ok hrun]
    exact hxs.bind_ok (hf a s₁)

/-- What leaves the session as it is uses no further mapping. -/
theorem Follows.bind_of_run_eq {g : α → Except CompileError β} (hx : Follows lookup used direct x)
    (hf : ∀ a s, (f a).run.run s = (g a, s)) :
    Follows lookup used (fun answers => direct answers >>= f) (x >>= f) := by
  have hall := hx.bind fun a => follows_of_run_eq (hf a)
  rwa [List.append_nil] at hall

end Bind

theorem Follows.mapM {l : List α} {f : α → Compile β} {used : α → List Mapping}
    {direct : α → Answers → Compile β} (h : ∀ a ∈ l, Follows lookup (used a) (direct a) (f a)) :
    Follows lookup (l.flatMap used) (fun answers => l.mapM fun a => direct a answers)
      (l.mapM f) := by
  induction l with
  | nil => exact follows_of_run_eq fun _ => rfl
  | cons a l ih =>
      have hl := ih fun b hb => h b (List.mem_cons_of_mem _ hb)
      simp only [List.flatMap_cons, List.mapM_cons]
      exact (h a List.mem_cons_self).bind fun b => hl.bind_of_run_eq fun _ _ => rfl

end Follows

/-! ## Mappings and passes -/

section

variable {lookup : Lookup} {m : Mapping} {id : String}

theorem Resolution.of_answer {t : Transformer} {s s' : Session} (hid : m.definitionId? = some id)
    (h : Resolved lookup [id] s s') (hk : s'.known.get? id = some t)
    (hs : t.source ≠ .userDefined) (hchecks : s'.checks = s.checks) :
    Resolution lookup [m] (fun answers => (m.direct answers).resolve none) s
      (.ok { m with transformer := some t }, s') := by
  refine .same [m] [] rfl (fun _ _ => rfl) ?_ fun answers hans u hu =>
    ⟨u, ?_, hu.trans hchecks.symm⟩
  · rwa [List.filterMap_cons_some hid]
  · obtain rfl := hans id t hk
    rw [Mapping.resolve_direct hid hs]
    rfl

theorem Resolution.of_known {t : Transformer} {s : Session} (hid : m.definitionId? = some id)
    (hk : s.known.get? id = some t) :
    Resolution lookup [m] (fun answers => (m.direct answers).resolve none) s
      ((m.resolve (some (.remembering lookup))).run.run s) := by
  rw [Mapping.run_resolve hid (run_remembering_of_known hk)]
  by_cases hs : t.source = .userDefined
  · rw [Except.bind, if_pos hs]
    exact .stopped [] m [] rfl (.nil rfl rfl) (.nestedKnown hid hk hs)
  · rw [Except.bind, if_neg hs]
    exact .of_answer hid (.known hk hs (.nil rfl rfl)) hk hs rfl

theorem Resolution.of_unknown {s : Session} (hid : m.definitionId? = some id)
    (hk : s.known.get? id = none) :
    Resolution lookup [m] (fun answers => (m.direct answers).resolve none) s
      ((m.resolve (some (.remembering lookup))).run.run s) := by
  by_cases hempty : id = ""
  · subst hempty
    rw [Mapping.run_resolve hid (run_remembering_empty hk)]
    exact .stopped [] m [] rfl (.nil rfl rfl) (.noId hid)
  · cases ha : lookup s.asked id with
    | error e =>
        rw [Mapping.run_resolve hid (run_remembering_of_error hk hempty ha)]
        exact .stopped [] m [] rfl (.nil rfl rfl) (.refused hid hk ha)
    | ok d =>
        rw [Mapping.run_resolve hid (run_remembering_of_ok hk hempty ha)]
        by_cases hs : d.transformer.source = .userDefined
        · rw [Except.bind, if_pos hs]
          exact .stopped [] m [] rfl (.nil rfl rfl) (.nested hid hk ha hs)
        · rw [Except.bind, if_neg hs]
          exact .of_answer hid (.answered hk ha hs (.nil rfl rfl))
            ((Keyed.get?_insert ..).trans (if_pos rfl)) hs rfl

/-- Resolving one mapping uses that mapping. -/
theorem follows_resolve (m : Mapping) :
    Follows lookup [m] (fun answers => (m.direct answers).resolve none)
      (m.resolve (some (.remembering lookup))) := by
  intro s
  by_cases hrefers : m.Refers
  · cases hid : m.definitionId? with
    | none =>
        rw [Mapping.run_resolve_of_unconfigured hrefers hid]
        exact .stopped [] m [] rfl (.nil rfl rfl) (.unconfigured hrefers hid)
    | some id =>
        cases hk : s.known.get? id with
        | none => exact .of_unknown hid hk
        | some t => exact .of_known hid hk
  · have hid : m.definitionId? = none :=
      Option.eq_none_iff_forall_ne_some.2 fun id h => hrefers (m.refers_of_definitionId? h)
    rw [Mapping.resolve_of_not_refers hrefers]
    refine .same [m] [] rfl (fun _ _ => rfl) ?_ fun answers _ t ht => ⟨t, ?_, ht⟩
    · rw [List.filterMap_cons_none hid]
      exact .nil rfl rfl
    · rw [Mapping.direct_of_not_refers hrefers, Mapping.resolve_of_not_refers hrefers]
      rfl

theorem selectMappings_map {f : Mapping → Mapping} (hf : ∀ m, (f m).column = m.column)
    (mappings : List Mapping) (columns : List String) :
    selectMappings (mappings.map f) columns = (selectMappings mappings columns).map f := by
  rw [selectMappings, selectMappings, List.map_filterMap]
  refine List.filterMap_congr fun c _ => ?_
  rw [← List.map_reverse, List.find?_map]
  simp only [Function.comp_def, hf]

/-- The stages of a pass use the mappings of its columns. -/
theorem follows_stages (mappings : List Mapping) (columns : Keyed Column)
    (references : ColumnReferences) (pass : Pass) (id : RunId) (cache : Option CacheConfig) :
    Follows lookup (selectMappings mappings pass.writes)
      (fun answers =>
        stages (mappings.map (·.direct answers)) columns references pass id cache none)
      (stages mappings columns references pass id cache (some (.remembering lookup))) := by
  have hselected : Follows lookup ((selectMappings mappings pass.writes).flatMap fun m => [m])
      (fun answers => (selectMappings mappings pass.writes).mapM fun m =>
        (m.direct answers).resolve none)
      ((selectMappings mappings pass.writes).mapM (Mapping.resolve (some (.remembering lookup)))) :=
    .mapM fun m _ => follows_resolve m
  rw [List.flatMap_singleton'] at hselected
  simp only [stages, selectMappings_map (Mapping.column_direct _), List.mapM_map]
  refine hselected.bind_of_run_eq
    (g := fun selected => stagesOf selected columns references id cache) fun selected s => ?_
  cases stagesOf selected columns references id cache <;> rfl

end

/-! ## What is asked for and compiled -/

/-- The mapping refers to an id that is not empty, and the lookup has one answer for it, whatever
was asked for before, which leads to no other definition. -/
def Mapping.AnsweredBy (m : Mapping) (lookup : Lookup) (answers : Answers) : Prop :=
  ∃ id, m.definitionId? = some id ∧ id ≠ "" ∧ (answers id).source ≠ .userDefined ∧
    ∀ asked, ∃ d, lookup asked id = .ok d ∧ d.transformer = answers id

/-- No id is asked for twice, the ids come in the order of their first uses, and an answer that
leads to another definition is an error. -/
structure AsksOnce {α : Type} (lookup : Lookup) (ids : List String) (s : Session)
    (r : Except CompileError α) (asked : List String) : Prop where
  nodup : asked.Nodup
  firsts : asked <+: firstUses s.known ids
  nested : ∀ front id back d, asked = front ++ id :: back → lookup (s.asked ++ front) id = .ok d →
    d.source = .userDefined → ∃ column, r = .error (.transformer (.nestedDefinition column))

section Asked

variable {α : Type} {lookup : Lookup} {answers : Answers} {m : Mapping} {used : List Mapping}
  {direct : Answers → Compile α} {r : Except CompileError α} {e : CompileError}
  {s s₁ s' : Session}

theorem Mapping.AnsweredBy.not_stopped (h : m.AnsweredBy lookup answers)
    (hs : answers.Extend s.known) : ¬ Stopped lookup m s e s' := by
  obtain ⟨id, hid, hempty, hfinal, hanswer⟩ := h
  intro hstop
  cases hstop with
  | unconfigured _ missing => exact nomatch missing.symm.trans hid
  | noId given => exact hempty (Option.some.inj (hid.symm.trans given))
  | refused given _ answer =>
      obtain rfl := Option.some.inj (hid.symm.trans given)
      obtain ⟨d, hd, -⟩ := hanswer s.asked
      exact nomatch answer.symm.trans hd
  | nested given _ answer source =>
      obtain rfl := Option.some.inj (hid.symm.trans given)
      obtain ⟨d, hd, hdt⟩ := hanswer s.asked
      obtain rfl := Except.ok.inj (answer.symm.trans hd)
      exact hfinal (hdt ▸ source)
  | nestedKnown given known source =>
      obtain rfl := Option.some.inj (hid.symm.trans given)
      exact hfinal (hs _ _ known ▸ source)

theorem Stopped.refers (h : Stopped lookup m s e s') : m.Refers := by
  cases h with
  | unconfigured refers => exact refers
  | noId given => exact Mapping.refers_of_definitionId? given
  | refused given => exact Mapping.refers_of_definitionId? given
  | nested given => exact Mapping.refers_of_definitionId? given
  | nestedKnown given => exact Mapping.refers_of_definitionId? given

/-- A reference that is not resolved asks for nothing, or for its own id, and then an answer leads
to another definition. -/
theorem Stopped.asked (h : Stopped lookup m s e s') :
    s'.asked = s.asked ∨ ∃ id, m.definitionId? = some id ∧ s.known.get? id = none ∧
      s'.asked = s.asked ++ [id] ∧
      ∀ d, lookup s.asked id = .ok d → ∃ column, e = .transformer (.nestedDefinition column) := by
  cases h with
  | unconfigured => exact .inl rfl
  | noId => exact .inl rfl
  | refused given new answer =>
      exact .inr ⟨_, given, new, rfl, fun d hd => nomatch answer.symm.trans hd⟩
  | nested given new => exact .inr ⟨_, given, new, rfl, fun _ _ => ⟨_, rfl⟩⟩
  | nestedKnown => exact .inl rfl

/-- What is asked for while references are resolved. -/
theorem Resolved.asksOnce {ids rest : List String} (h : Resolved lookup ids s s')
    (r : Except CompileError α) : AsksOnce lookup (ids ++ rest) s r (firstUses s.known ids) where
  nodup := nodup_firstUses _ _
  firsts := firstUses_prefix (List.prefix_append _ _)
  nested := by
    intro front id back d hl hd hs
    obtain ⟨d', hd', -, hs'⟩ := h.answered_of_asked front id back hl
    obtain rfl := Except.ok.inj (hd.symm.trans hd')
    exact absurd hs hs'

/-- What is asked for when one more reference is not resolved. -/
theorem Resolved.asksOnce_concat {ids rest : List String} {id : String}
    (h : Resolved lookup ids s s₁) (hnew : s₁.known.get? id = none) (r : Except CompileError α)
    (hnested : ∀ d, lookup s₁.asked id = .ok d →
      ∃ column, r = .error (.transformer (.nestedDefinition column))) :
    AsksOnce lookup (ids ++ id :: rest) s r (firstUses s.known ids ++ [id]) := by
  have hfirst : firstUses s.known (ids ++ [id]) = firstUses s.known ids ++ [id] := by
    refine firstUses_concat (fun hmem => ?_) ?_
    · obtain ⟨t, ht, -⟩ := h.exists_known id hmem
      exact nomatch hnew.symm.trans ht
    · refine Option.eq_none_iff_forall_ne_some.2 fun t ht => ?_
      exact nomatch hnew.symm.trans (h.get?_known ht)
  constructor
  · rw [← hfirst]
    exact nodup_firstUses _ _
  · rw [← hfirst]
    exact firstUses_prefix ⟨rest, by simp⟩
  · intro front id' back d hl hd hs
    -- the id is the last one, or its answer was taken
    rcases List.eq_nil_or_concat' back with rfl | ⟨back, x, rfl⟩
    · obtain ⟨rfl, hid⟩ := List.append_inj' hl rfl
      obtain rfl := (List.cons.inj hid).1
      exact hnested d (h.asked ▸ hd)
    · rw [← List.cons_append, ← List.append_assoc] at hl
      have hasks : AsksOnce lookup (ids ++ []) s r (firstUses s.known ids) := h.asksOnce r
      exact hasks.nested front id' back d (List.append_inj' hl rfl).1 hd hs

/-- What is asked for is asked for once. -/
theorem Resolution.exists_asksOnce (h : Resolution lookup used direct s (r, s')) :
    ∃ asked, s'.asked = s.asked ++ asked ∧
      AsksOnce lookup (used.filterMap Mapping.definitionId?) s r asked := by
  cases h with
  | same front back split all resolved agrees =>
      refine ⟨_, resolved.asked, ?_⟩
      rw [split, List.filterMap_append]
      exact resolved.asksOnce r
  | stopped front m back split resolved reason =>
      rw [split, List.filterMap_append]
      rcases reason.asked with hasked | ⟨id, hid, hnew, hasked, hnested⟩
      · exact ⟨_, hasked.trans resolved.asked, resolved.asksOnce _⟩
      · refine ⟨_, by rw [hasked, resolved.asked, List.append_assoc], ?_⟩
        rw [List.filterMap_cons_some hid]
        exact resolved.asksOnce_concat hnew _ fun d hd =>
          (hnested d hd).imp fun _ he => congrArg _ he

/-- If the lookup has one answer for each id, the answers may stand in place of the references. -/
theorem Resolution.agrees (h : Resolution lookup used direct s (r, s'))
    (hans : ∀ m ∈ used, m.Refers → m.AnsweredBy lookup answers) (hs : answers.Extend s.known) :
    r = ((direct answers).run.run s).1 := by
  have hextend : ∀ {front : List Mapping} {s₁ : Session}, (∀ m ∈ front, m ∈ used) →
      Resolved lookup (front.filterMap Mapping.definitionId?) s s₁ → answers.Extend s₁.known := by
    refine fun hfront hresolved => hresolved.extend (fun id hid asked => ?_) hs
    obtain ⟨m, hm, hmid⟩ := List.mem_filterMap.1 hid
    obtain ⟨id', hid', -, -, hanswer⟩ := hans m (hfront m hm) (Mapping.refers_of_definitionId? hmid)
    obtain rfl := Option.some.inj (hmid.symm.trans hid')
    exact hanswer asked
  cases h with
  | same front back split _ resolved agrees =>
      subst split
      obtain ⟨t, hrun, -⟩ :=
        agrees answers (hextend (fun m => List.mem_append_left _) resolved) s rfl
      rw [hrun]
  | stopped front m back split resolved reason =>
      subst split
      have hm : m ∈ front ++ m :: back := List.mem_append_right _ List.mem_cons_self
      exact absurd reason ((hans m hm reason.refers).not_stopped
        (hextend (fun m => List.mem_append_left _) resolved))

/-- If there is a result, each id was answered once, and the answers in place of the references
give the same result. -/
theorem Resolution.exists_answers {a : α} (h : Resolution lookup used direct s (.ok a, s')) :
    s'.asked = s.asked ++ firstUses s.known (used.filterMap Mapping.definitionId?) ∧
      ∃ answers : Answers, answers.Extend s.known ∧
        (∀ front id back, firstUses s.known (used.filterMap Mapping.definitionId?) =
          front ++ id :: back →
            ∃ d, lookup (s.asked ++ front) id = .ok d ∧ d.transformer = answers id) ∧
        (∀ id ∈ used.filterMap Mapping.definitionId?, (answers id).source ≠ .userDefined) ∧
        ((direct answers).run.run s).1 = .ok a := by
  cases h with
  | same front back split all resolved agrees =>
      obtain rfl := all a rfl
      obtain rfl := split.trans (List.append_nil front)
      have hans := Answers.extend_ofKnown s'.known
      obtain ⟨t, hrun, -⟩ := agrees _ hans s rfl
      refine ⟨resolved.asked, _, resolved.extend_left hans, fun front id back hl => ?_,
        fun id hid => ?_, by rw [hrun]⟩
      · obtain ⟨d, hd, hknown, -⟩ := resolved.answered_of_asked front id back hl
        exact ⟨d, hd, (hans _ _ hknown).symm⟩
      · obtain ⟨t, ht, hfinal⟩ := resolved.exists_known id hid
        rwa [hans id t ht]

end Asked

end TransferPlan
