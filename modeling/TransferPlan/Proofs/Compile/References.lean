import TransferPlan.Proofs.Compile.Run
import TransferPlan.Proofs.Keyed

/-!
# References to definitions

A mapping may refer to a definition by its id.  What is known by the id is taken; for an id that is
not known the lookup is asked, and its answer is remembered.  Which ids are asked for is determined
by the references alone (`Resolved.asked`).
-/

namespace TransferPlan

/-! ## References -/

/-- The transformer of the mapping refers to a definition. -/
def Mapping.Refers (m : Mapping) : Prop :=
  ∃ t, m.transformer = some t ∧ t.source = .userDefined

/-- The id of the definition that a mapping refers to. -/
def Mapping.definitionId? (m : Mapping) : Option String :=
  match m.transformer with
  | some ⟨.userDefined, some (.userDefined id)⟩ => some id
  | _ => none

/-- A transformer for each id. -/
abbrev Answers := String → Transformer

/-- The mapping with the answer in place of its reference. -/
def Mapping.direct (answers : Answers) (m : Mapping) : Mapping :=
  match m.definitionId? with
  | some id => { m with transformer := some (answers id) }
  | none => m

/-- What is known by an id is the answer. -/
def Answers.Extend (answers : Answers) (known : Keyed Transformer) : Prop :=
  ∀ id t, known.get? id = some t → answers id = t

/-- What is known, as answers. -/
def Answers.ofKnown (known : Keyed Transformer) : Answers := fun id => (known.get? id).getD {}

theorem Answers.extend_ofKnown (known : Keyed Transformer) :
    (Answers.ofKnown known).Extend known := fun id t ht => by
  rw [ofKnown, ht, Option.getD_some]

/-- The transformer that refers to an id. -/
def Transformer.reference (id : String) : Transformer := ⟨.userDefined, some (.userDefined id)⟩

section

variable {m : Mapping} {id : String}

theorem Mapping.definitionId?_eq_some_iff :
    m.definitionId? = some id ↔ m.transformer = some (.reference id) := by
  unfold definitionId?
  split
  · next h => simp [h, Transformer.reference]
  · next h => exact iff_of_false nofun (h id)

theorem Mapping.refers_of_definitionId? (h : m.definitionId? = some id) : m.Refers :=
  ⟨_, definitionId?_eq_some_iff.1 h, rfl⟩

theorem Mapping.resolve_of_not_refers (h : ¬ m.Refers) (resolver : Option Resolver) :
    m.resolve resolver = pure m := by
  unfold resolve
  split
  · rfl
  · next t ht => exact if_pos fun hs => h ⟨t, ht, hs⟩

theorem Mapping.direct_of_not_refers (h : ¬ m.Refers) (answers : Answers) :
    m.direct answers = m := by
  unfold direct
  split
  · next hid => exact absurd (refers_of_definitionId? hid) h
  · rfl

/-- A mapping with an answer other than a reference is compiled as it is. -/
theorem Mapping.resolve_direct {answers : Answers} (hid : m.definitionId? = some id)
    (h : (answers id).source ≠ .userDefined) :
    (m.direct answers).resolve none = pure { m with transformer := some (answers id) } := by
  rw [direct, hid]
  refine resolve_of_not_refers ?_ none
  rintro ⟨t, ht, hs⟩
  exact h (Option.some.inj ht ▸ hs)

theorem Mapping.column_direct (answers : Answers) (m : Mapping) :
    (m.direct answers).column = m.column := by
  unfold direct
  split <;> rfl

theorem Mapping.tableKey_direct (answers : Answers) (m : Mapping) :
    (m.direct answers).tableKey = m.tableKey := by
  unfold direct
  split <;> rfl

end

/-! ## First uses -/

/-- The ids of a list that are not known, each once, in the order of their first uses. -/
def firstUses (known : Keyed Transformer) (ids : List String) : List String :=
  (ids.filter fun id => (known.get? id).isNone).eraseDups

section FirstUses

variable {known : Keyed Transformer} {id : String} {ids front back : List String}

theorem firstUses_cons_of_known {t : Transformer} (h : known.get? id = some t) :
    firstUses known (id :: ids) = firstUses known ids := by
  simp [firstUses, h]

theorem firstUses_cons_of_new {t : Transformer} (h : known.get? id = none) :
    firstUses known (id :: ids) = id :: firstUses (known.insert id t) ids := by
  rw [firstUses, firstUses, List.filter_cons_of_pos (by simp [h]), List.eraseDups_cons,
    List.filter_filter]
  refine congrArg (fun l => id :: l.eraseDups) (List.filter_congr fun id' _ => ?_)
  rw [Keyed.get?_insert]
  by_cases hid : id = id'
  · simp [hid]
  · simp [hid, Ne.symm hid]

theorem firstUses_prefix (h : front <+: ids) : firstUses known front <+: firstUses known ids := by
  obtain ⟨back, rfl⟩ := h
  rw [firstUses, firstUses, List.filter_append, List.eraseDups_append]
  exact List.prefix_append _ _

theorem firstUses_concat (hmem : id ∉ ids) (h : known.get? id = none) :
    firstUses known (ids ++ [id]) = firstUses known ids ++ [id] := by
  rw [firstUses, firstUses, List.filter_append, List.filter_cons_of_pos (by simp [h]),
    List.filter_nil, eraseDups_concat, if_neg]
  exact fun hid => hmem (List.mem_filter.1 hid).1

theorem nodup_firstUses (known : Keyed Transformer) (ids : List String) :
    (firstUses known ids).Nodup :=
  nodup_eraseDups _

end FirstUses

/-! ## Asking once -/

section Remembering

variable {lookup : Lookup} {m : Mapping} {id : String} {s : Session}

theorem run_remembering_of_known {t : Transformer} (h : s.known.get? id = some t) :
    (Resolver.remembering lookup (.reference id)).run.run s = (.ok t, s) := by
  refine (Compile.run_bind_of_ok (x := get) rfl).trans ?_
  rw [h]
  rfl

/-- For an id that is not known the lookup is asked. -/
theorem run_remembering_of_new (h : s.known.get? id = none) :
    (Resolver.remembering lookup (.reference id)).run.run s = (do
      let found ← Resolver.asking lookup (.reference id)
      modify fun session => { session with known := session.known.insert id found }
      return found : Compile Transformer).run.run s := by
  refine (Compile.run_bind_of_ok (x := get) rfl).trans ?_
  rw [h]

theorem run_remembering_empty (h : s.known.get? "" = none) :
    (Resolver.remembering lookup (.reference "")).run.run s = (.error (.lookup .noId), s) :=
  (run_remembering_of_new h).trans (Compile.run_bind_of_error rfl)

theorem run_asking_eq_resolve (lookup : Lookup) (t : Transformer) (s : Session) :
    (Resolver.asking lookup t).run.run s =
      ((lookup.resolve t s.asked).1.mapError .lookup,
        { s with asked := (lookup.resolve t s.asked).2 }) := by
  refine (Compile.run_bind_of_ok (x := get) rfl).trans ?_
  obtain ⟨answer, asked⟩ := lookup.resolve t s.asked
  cases answer <;> rfl

theorem run_asking (hid : id ≠ "") :
    (Resolver.asking lookup (.reference id)).run.run s =
      (((lookup s.asked id).map (·.transformer)).mapError .lookup,
        { s with asked := s.asked ++ [id] }) := by
  rw [run_asking_eq_resolve]
  simp only [Transformer.reference, Lookup.resolve, if_neg hid]

theorem run_remembering_of_error {e : LookupError} (h : s.known.get? id = none) (hid : id ≠ "")
    (ha : lookup s.asked id = .error e) :
    (Resolver.remembering lookup (.reference id)).run.run s =
      (.error (.lookup e), { s with asked := s.asked ++ [id] }) := by
  have hasked : (Resolver.asking lookup (.reference id)).run.run s =
      (.error (.lookup e), { s with asked := s.asked ++ [id] }) := by
    rw [run_asking hid, ha]
    rfl
  exact (run_remembering_of_new h).trans (Compile.run_bind_of_error hasked)

theorem run_remembering_of_ok {d : Definition} (h : s.known.get? id = none) (hid : id ≠ "")
    (ha : lookup s.asked id = .ok d) :
    (Resolver.remembering lookup (.reference id)).run.run s = (.ok d.transformer,
      { s with asked := s.asked ++ [id], known := s.known.insert id d.transformer }) := by
  have hasked : (Resolver.asking lookup (.reference id)).run.run s =
      (.ok d.transformer, { s with asked := s.asked ++ [id] }) := by
    rw [run_asking hid, ha]
    rfl
  exact (run_remembering_of_new h).trans (Compile.run_bind_of_ok hasked)

/-- The reference is looked up among what is known, and then asked for. -/
theorem Mapping.run_resolve (hid : m.definitionId? = some id) {r : Except CompileError Transformer}
    {s' : Session}
    (h : (Resolver.remembering lookup (.reference id)).run.run s = (r, s')) :
    (m.resolve (some (.remembering lookup))).run.run s =
      (r.bind fun found => if found.source = .userDefined
        then .error (.transformer (.nestedDefinition m.column))
        else .ok { m with transformer := some found }, s') := by
  unfold resolve
  rw [definitionId?_eq_some_iff.1 hid]
  cases r with
  | error e => exact Compile.run_bind_of_error h
  | ok found =>
      refine (Compile.run_bind_of_ok h).trans ?_
      by_cases hf : found.source = .userDefined
      · simp only [Except.bind, hf, if_true]
        rfl
      · simp only [Except.bind, hf, if_false]
        rfl

theorem Mapping.run_resolve_of_unconfigured (h : m.Refers) (hid : m.definitionId? = none) :
    (m.resolve (some (.remembering lookup))).run.run s =
      (.error (.transformer .noDefinitionConfig), s) := by
  obtain ⟨⟨source, config⟩, ht, rfl⟩ := h
  unfold resolve
  rw [ht]
  unfold Resolver.remembering
  rcases config with _ | config
  · rfl
  · cases config with
    | userDefined id => exact nomatch hid.symm.trans (definitionId?_eq_some_iff.2 ht)
    | _ => rfl

end Remembering

/-! ## Resolving references -/

/-- How a session changes while references to some ids are resolved in turn: what is known is not
asked for, and each answer is remembered. -/
inductive Resolved (lookup : Lookup) : List String → Session → Session → Prop
  | nil {s s' : Session} (asked : s'.asked = s.asked) (known : s'.known = s.known) :
    Resolved lookup [] s s'
  | known {id : String} {ids : List String} {t : Transformer} {s s' : Session}
    (known : s.known.get? id = some t) (final : t.source ≠ .userDefined)
    (rest : Resolved lookup ids s s') : Resolved lookup (id :: ids) s s'
  | answered {id : String} {ids : List String} {d : Definition} {s s' : Session}
    (new : s.known.get? id = none) (answer : lookup s.asked id = .ok d)
    (final : d.source ≠ .userDefined)
    (rest : Resolved lookup ids
      { s with asked := s.asked ++ [id], known := s.known.insert id d.transformer } s') :
    Resolved lookup (id :: ids) s s'

namespace Resolved

variable {lookup : Lookup} {ids ids' : List String} {s s₁ s' : Session}

/-- How often a compilation looked whether it was cancelled does not matter. -/
theorem congr_left (h : Resolved lookup ids s s') (hasked : s₁.asked = s.asked)
    (hknown : s₁.known = s.known) : Resolved lookup ids s₁ s' := by
  induction h generalizing s₁ with
  | nil ha hk => exact .nil (ha.trans hasked.symm) (hk.trans hknown.symm)
  | known hk hf _ ih => exact .known (hknown ▸ hk) hf (ih hasked hknown)
  | answered hn ha hf _ ih =>
      exact .answered (hknown ▸ hn) (hasked ▸ ha) hf (ih (by rw [hasked]) (by rw [hknown]))

theorem trans (h : Resolved lookup ids s s₁) (h' : Resolved lookup ids' s₁ s') :
    Resolved lookup (ids ++ ids') s s' := by
  induction h with
  | nil ha hk => exact h'.congr_left ha.symm hk.symm
  | known hk hf _ ih => exact .known hk hf (ih h')
  | answered hn ha hf _ ih => exact .answered hn ha hf (ih h')

/-- What is known stays known. -/
theorem get?_known (h : Resolved lookup ids s s') {id : String} {t : Transformer}
    (hk : s.known.get? id = some t) : s'.known.get? id = some t := by
  induction h with
  | nil _ hknown => rwa [hknown]
  | known _ _ _ ih => exact ih hk
  | answered hn _ _ _ ih =>
      refine ih ?_
      rw [Keyed.get?_insert, if_neg, hk]
      rintro rfl
      exact nomatch hn.symm.trans hk

/-- All ids are known in the end, and none leads to another definition. -/
theorem exists_known (h : Resolved lookup ids s s') :
    ∀ id ∈ ids, ∃ t, s'.known.get? id = some t ∧ t.source ≠ .userDefined := by
  induction h with
  | nil => simp
  | known hk hf hrest ih => exact List.forall_mem_cons.2 ⟨⟨_, hrest.get?_known hk, hf⟩, ih⟩
  | @answered id _ d _ _ _ _ hf hrest ih =>
      refine List.forall_mem_cons.2 ⟨⟨d.transformer, hrest.get?_known ?_, hf⟩, ih⟩
      rw [Keyed.get?_insert, if_pos rfl]

/-- The ids that are not known are asked for at their first uses. -/
theorem asked (h : Resolved lookup ids s s') : s'.asked = s.asked ++ firstUses s.known ids := by
  induction h with
  | nil ha _ => rw [ha, firstUses, List.filter_nil, List.eraseDups_nil, List.append_nil]
  | known hk _ _ ih => rw [ih, firstUses_cons_of_known hk]
  | answered hn _ _ _ ih => rw [ih, firstUses_cons_of_new hn, List.append_assoc]; rfl

/-- What is known by an id that was asked for is the answer that was given. -/
theorem answered_of_asked (h : Resolved lookup ids s s') :
    ∀ front id back, firstUses s.known ids = front ++ id :: back → ∃ d,
      lookup (s.asked ++ front) id = .ok d ∧ s'.known.get? id = some d.transformer ∧
        d.source ≠ .userDefined := by
  induction h with
  | nil => simp [firstUses]
  | known hk _ _ ih => rwa [firstUses_cons_of_known hk]
  | answered hn ha hf hrest ih =>
      intro front id back hl
      rw [firstUses_cons_of_new hn] at hl
      cases front with
      | nil =>
          obtain ⟨rfl, -⟩ := List.cons.inj hl
          refine ⟨_, by rwa [List.append_nil], hrest.get?_known ?_, hf⟩
          rw [Keyed.get?_insert, if_pos rfl]
      | cons id' front =>
          obtain ⟨rfl, hl⟩ := List.cons.inj hl
          simpa using ih front id back hl

/-- If the lookup answers for each id in one way, that is what is known. -/
theorem extend {answers : Answers} (h : Resolved lookup ids s s')
    (hans : ∀ id ∈ ids, ∀ asked, ∃ d, lookup asked id = .ok d ∧ d.transformer = answers id)
    (hs : answers.Extend s.known) : answers.Extend s'.known := by
  induction h with
  | nil _ hk => rwa [hk]
  | known _ _ _ ih => exact ih (fun id hid => hans id (List.mem_cons_of_mem _ hid)) hs
  | answered _ ha _ _ ih =>
      refine ih (fun id hid => hans id (List.mem_cons_of_mem _ hid)) fun id t hk => ?_
      obtain ⟨d, hd, hdt⟩ := hans _ List.mem_cons_self _
      obtain rfl := Except.ok.inj (ha.symm.trans hd)
      rw [Keyed.get?_insert] at hk
      split_ifs at hk with hid
      · exact hid ▸ hdt.symm.trans (Option.some.inj hk)
      · exact hs id t hk

theorem extend_left {answers : Answers} (h : Resolved lookup ids s s')
    (hs : answers.Extend s'.known) : answers.Extend s.known :=
  fun id t hk => hs id t (h.get?_known hk)

end Resolved

end TransferPlan
