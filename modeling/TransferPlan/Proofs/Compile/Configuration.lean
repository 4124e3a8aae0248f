import TransferPlan.Proofs.Compile.Calls

/-!
# Settings and their sources

A transformer fits if its source has an expression and its settings belong to the source; settings
in which nothing can be set may be left out.  What fits compiles, and what does not is refused with
an error that names the column.  Only null and the default are compiled without a look at their
settings (`Mapping.expression_fails_as_documented_iff`).
-/

namespace TransferPlan

/-! ## Own settings -/

/-- The source has settings in which nothing can be set. -/
def Source.TakesNoSettings (s : Source) : Prop := ∃ c : Config, c.source = s ∧ c.settings = []

theorem Config.empty?_eq_some_iff {s : Source} {c : Config} :
    empty? s = some c ↔ c.source = s ∧ c.settings = [] := by
  constructor
  · intro h
    cases s <;> first | exact Option.some.inj h ▸ ⟨rfl, rfl⟩ | exact nomatch h
  · rintro ⟨rfl, h⟩
    cases c <;> first | rfl | exact nomatch h

/-- Settings of a source that has an expression give a call, but for null and the default. -/
theorem Config.exists_call? {config : Config} (h : config.source.hasExpression = true)
    (hnull : config.source ≠ .generateNull) (hdefault : config.source ≠ .generateDefault)
    (column : String) (limit : Option Int) : ∃ c, config.call? column limit = some c := by
  cases config with
  | passthrough | transformJavascript | userDefined => exact nomatch h
  | generateNull => exact absurd rfl hnull
  | generateDefault => exact absurd rfl hdefault
  | _ => exact ⟨_, rfl⟩

namespace Transformer

variable {t : Transformer} {column : String} {e : TransformerError}

/-- The source has an expression, and the settings are its own or it takes none. -/
structure Fits (t : Transformer) : Prop where
  source : t.source.hasExpression = true
  config : ∀ c, t.config = some c → c.source = t.source
  absent : t.config = none → t.source.TakesNoSettings

/-- Why a transformer is refused. -/
inductive Refused (t : Transformer) (column : String) : TransformerError → Prop
  | noExpression (source : t.source.hasExpression = false) :
    Refused t column (.noExpression t.source column)
  | missing (source : t.source.hasExpression = true) (absent : t.config = none)
    (takes : ¬ t.source.TakesNoSettings) : Refused t column (.missingConfig t.source column)
  | mismatched {c : Config} (source : t.source.hasExpression = true) (config : t.config = some c)
    (other : c.source ≠ t.source) : Refused t column (.mismatchedConfig t.source column c.kindName)

/-- Null or the default with settings of another source. -/
structure Unchecked (t : Transformer) : Prop where
  source : t.source = .generateNull ∨ t.source = .generateDefault
  config : ∃ c, t.config = some c ∧ c.source ≠ t.source

theorem Refused.not_fits (h : t.Refused column e) : ¬ t.Fits := by
  intro hfits
  cases h with
  | noExpression hsource => exact nomatch hsource.symm.trans hfits.source
  | missing _ habsent htakes => exact htakes (hfits.absent habsent)
  | mismatched _ hconfig hother => exact hother (hfits.config _ hconfig)

theorem fits_or_refused (t : Transformer) (column : String) :
    t.Fits ∨ ∃ e, t.Refused column e := by
  cases hsource : t.source.hasExpression with
  | false => exact .inr ⟨_, .noExpression hsource⟩
  | true =>
      cases hconfig : t.config with
      | some c =>
          by_cases hc : c.source = t.source
          · refine .inl ⟨hsource, fun c' hc' => ?_, fun hnone => ?_⟩
            · have hsame : c = c' := Option.some.inj (hconfig.symm.trans hc')
              exact hsame ▸ hc
            · exact nomatch hconfig.symm.trans hnone
          · exact .inr ⟨_, .mismatched hsource hconfig hc⟩
      | none =>
          by_cases htakes : t.source.TakesNoSettings
          · exact .inl ⟨hsource, fun _ hc => (nomatch hconfig.symm.trans hc), fun _ => htakes⟩
          · exact .inr ⟨_, .missing hsource hconfig htakes⟩

theorem Fits.ownConfig (h : t.Fits) (column : String) :
    ∃ c, t.ownConfig column true = .ok c ∧ c.source = t.source := by
  cases hconfig : t.config with
  | some c =>
      have hc : c.source = t.source := h.config c hconfig
      exact ⟨c, by simp only [Transformer.ownConfig, hconfig, hc, if_true], hc⟩
  | none =>
      obtain ⟨c, hc⟩ := h.absent hconfig
      have hempty : Config.empty? t.source = some c := Config.empty?_eq_some_iff.2 hc
      exact ⟨c, by simp only [Transformer.ownConfig, hconfig, hempty, if_true], hc.1⟩

theorem ownConfig_of_mismatched {c : Config} (hconfig : t.config = some c)
    (hother : c.source ≠ t.source) :
    t.ownConfig column true = .error (.mismatchedConfig t.source column c.kindName) := by
  simp only [ownConfig, hconfig, if_neg hother]

theorem ownConfig_of_missing (habsent : t.config = none) (htakes : ¬ t.source.TakesNoSettings) :
    t.ownConfig column true = .error (.missingConfig t.source column) := by
  have hempty : Config.empty? t.source = none := by
    cases h : Config.empty? t.source with
    | none => rfl
    | some c => exact absurd ⟨c, Config.empty?_eq_some_iff.1 h⟩ htakes
  simp only [ownConfig, habsent, hempty, if_true]

end Transformer

/-! ## The expression of a mapping -/

/-- The message of the error says on which column it occurred. -/
def TransformerError.Names (e : TransformerError) (column : String) : Prop :=
  ∃ front back, e.message = front ++ " on column " ++ column ++ back

theorem Transformer.Refused.names {t : Transformer} {column : String} {e : TransformerError}
    (h : t.Refused column e) : e.Names column := by
  refine ⟨"Transformer " ++ t.source.name, ?_⟩
  cases h with
  | noExpression => exact ⟨" does not compile to a mutation.", rfl⟩
  | missing => exact ⟨" is missing its configuration.", rfl⟩
  | @mismatched c =>
      refine ⟨" has a mismatched " ++ c.kindName ++ " configuration.", ?_⟩
      simp only [← String.append_assoc]
      rfl

namespace Mapping

variable {m : Mapping} {t : Transformer} {info : Option Column} {e : TransformerError}

theorem expression_of_constant (ht : m.transformer = some t)
    (h : t.source = .generateNull ∨ t.source = .generateDefault) (info : Option Column) :
    ∃ e, m.expression info = .ok e := by
  rcases h with h | h
  · exact ⟨.null, by simp only [expression, ht, h]⟩
  · exact ⟨.default, by simp only [expression, ht, h]⟩

theorem expression_of_fits (ht : m.transformer = some t) (h : t.Fits) (info : Option Column) :
    ∃ e, m.expression info = .ok e := by
  by_cases hconstant : t.source = .generateNull ∨ t.source = .generateDefault
  · exact expression_of_constant ht hconstant info
  · have hnull : t.source ≠ .generateNull := fun h => hconstant (.inl h)
    have hdefault : t.source ≠ .generateDefault := fun h => hconstant (.inr h)
    obtain ⟨config, hown, hsource⟩ := h.ownConfig m.column
    obtain ⟨c, hc⟩ := Config.exists_call? (hsource ▸ h.source) (hsource ▸ hnull)
      (hsource ▸ hdefault) m.column (info.bind Column.lengthBound?)
    exact ⟨.call c, (expression_eq_ok_iff ht hnull hdefault).2 ⟨h.source, config, c, hown, hc, rfl⟩⟩

theorem expression_of_noExpression (ht : m.transformer = some t)
    (h : t.source.hasExpression = false) :
    m.expression info = .error (.noExpression t.source m.column) := by
  have hnull : t.source ≠ .generateNull := fun hs => by rw [hs] at h; exact nomatch h
  have hdefault : t.source ≠ .generateDefault := fun hs => by rw [hs] at h; exact nomatch h
  simp only [expression, ht, h, Bool.not_false, if_true]

theorem expression_of_ownConfig (ht : m.transformer = some t) (hnull : t.source ≠ .generateNull)
    (hdefault : t.source ≠ .generateDefault) (hsource : t.source.hasExpression = true)
    (h : t.ownConfig m.column true = .error e) : m.expression info = .error e := by
  simp only [expression, ht, hsource, Bool.not_true, Bool.false_eq_true, if_false, h]
  rfl

theorem expression_of_refused (ht : m.transformer = some t) (hchecked : ¬ t.Unchecked)
    (h : t.Refused m.column e) : m.expression info = .error e := by
  cases h with
  | noExpression hsource => exact expression_of_noExpression ht hsource
  | missing hsource habsent htakes =>
      have hnull : t.source ≠ .generateNull := fun hs => htakes (hs ▸ ⟨.generateNull, rfl, rfl⟩)
      have hdefault : t.source ≠ .generateDefault := fun hs =>
        htakes (hs ▸ ⟨.generateDefault, rfl, rfl⟩)
      exact expression_of_ownConfig ht hnull hdefault hsource
        (Transformer.ownConfig_of_missing habsent htakes)
  | mismatched hsource hconfig hother =>
      have hnull : t.source ≠ .generateNull := fun hs =>
        hchecked ⟨.inl hs, _, hconfig, hother⟩
      have hdefault : t.source ≠ .generateDefault := fun hs =>
        hchecked ⟨.inr hs, _, hconfig, hother⟩
      exact expression_of_ownConfig ht hnull hdefault hsource
        (Transformer.ownConfig_of_mismatched hconfig hother)

/-- What is documented of a mapping with a transformer: what fits compiles, and whatever does not
is refused with an error that names the column. -/
structure CompilesAsDocumented (m : Mapping) (t : Transformer) (info : Option Column) : Prop where
  compiles : (∃ e, m.expression info = .ok e) ↔ t.Fits
  refuses : ∀ e, m.expression info = .error e ↔ t.Refused m.column e
  names : ∀ e, m.expression info = .error e → e.Names m.column

/-- A mapping compiles as documented unless it sets its column to null or the default with settings
of another source; these are not looked at. -/
theorem expression_fails_as_documented_iff (ht : m.transformer = some t) (info : Option Column) :
    (m.CompilesAsDocumented t info ↔ ¬ t.Unchecked) ∧
      (t.Unchecked → ∃ e, m.expression info = .ok e) := by
  refine ⟨⟨fun h hunchecked => ?_, fun hchecked => ?_⟩,
    fun h => expression_of_constant ht h.source info⟩
  · obtain ⟨c, hconfig, hother⟩ := hunchecked.config
    have hfits : t.Fits := h.compiles.1 (expression_of_constant ht hunchecked.source info)
    exact hother (hfits.config c hconfig)
  · have hrefuses : ∀ e, m.expression info = .error e ↔ t.Refused m.column e := by
      refine fun e => ⟨fun he => ?_, expression_of_refused ht hchecked⟩
      obtain hfits | ⟨e', hrefused⟩ := t.fits_or_refused m.column
      · obtain ⟨_, hok⟩ := expression_of_fits ht hfits info
        exact nomatch he.symm.trans hok
      · have he' : m.expression info = .error e' := expression_of_refused ht hchecked hrefused
        exact Except.error.inj (he'.symm.trans he) ▸ hrefused
    refine ⟨⟨fun ⟨x, hok⟩ => ?_, fun hfits => expression_of_fits ht hfits info⟩, hrefuses,
      fun e he => ((hrefuses e).1 he).names⟩
    refine (t.fits_or_refused m.column).resolve_right fun ⟨e, hrefused⟩ => ?_
    exact nomatch hok.symm.trans ((hrefuses e).2 hrefused)

/-- A number that is to be generated with the settings of a switch. -/
def switchForNumber : Mapping :=
  ⟨"public", "staff", "age", some ⟨.generateInt64, some .generateBool⟩⟩

theorem expression_fails_as_documented_switchForNumber :
    switchForNumber.expression none =
        .error (.mismatchedConfig .generateInt64 "age" "generate_bool") ∧
      switchForNumber.CompilesAsDocumented ⟨.generateInt64, some .generateBool⟩ none := by
  have hchecked : ¬ Transformer.Unchecked ⟨.generateInt64, some .generateBool⟩ :=
    fun h => h.source.elim nofun nofun
  have hrefused : Transformer.Refused ⟨.generateInt64, some .generateBool⟩ "age"
      (.mismatchedConfig .generateInt64 "age" (Config.kindName .generateBool)) :=
    .mismatched rfl rfl (by decide)
  have hdocumented :
      switchForNumber.CompilesAsDocumented ⟨.generateInt64, some .generateBool⟩ none :=
    (expression_fails_as_documented_iff rfl none).1.2 hchecked
  exact ⟨(hdocumented.refuses _).2 hrefused, hdocumented⟩

/-- Null with the settings of a switch. -/
def switchForNull : Mapping :=
  ⟨"public", "staff", "age", some ⟨.generateNull, some .generateBool⟩⟩

theorem null_ignores_settings :
    switchForNull.expression none = .ok .null ∧
      Transformer.Refused ⟨.generateNull, some .generateBool⟩ "age"
        (.mismatchedConfig .generateNull "age" "generate_bool") ∧
      ¬ switchForNull.CompilesAsDocumented ⟨.generateNull, some .generateBool⟩ none := by
  have hexpression : switchForNull.expression none = .ok .null := rfl
  have hrefused : Transformer.Refused ⟨.generateNull, some .generateBool⟩ "age"
      (.mismatchedConfig .generateNull "age" (Config.kindName .generateBool)) :=
    .mismatched rfl rfl (by decide)
  exact ⟨hexpression, hrefused, fun h => hrefused.not_fits (h.compiles.1 ⟨_, hexpression⟩)⟩

end Mapping

end TransferPlan
