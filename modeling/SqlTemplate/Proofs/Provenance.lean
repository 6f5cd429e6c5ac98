import Mathlib.Data.List.Basic
import SqlTemplate.Proofs.Registration

/-!
# Every dialect at hand is valid

The rules of a dialect come from a built-in dialect, from overrides laid over some
other rules, from a draft, or from the registry after some history of requests:
`Obtained`.  Each of these ways checks the rules, or hands out rules that were
checked before, so that all of them are valid (`Obtained.validate_eq_ok`), and what reading
relies on holds of them (`Dialect.Separated`).

For the registry it is an invariant of catalogues: a request binds valid rules only
(`Catalog.Serves.allValid`), so a history does (`Catalog.Run.allValid`).
-/

namespace SqlTemplate

/-- The ways to come by the rules of a dialect. -/
inductive Obtained : Dialect → Prop
  | preset (p : Preset) : Obtained p.rules
  /-- Overrides can be laid over rules of any origin. -/
  | overridden {base d : Dialect} {o : Overrides} : base.withOverrides o = .ok d → Obtained d
  | ofOverrides {name : String} {o : Overrides} {n : NamedDialect} :
      NamedDialect.ofOverrides name o = .ok n → Obtained n.rules
  | built {draft : Draft} {n : NamedDialect} : draft.build = .ok n → Obtained n.rules
  | found {requests : List Request} {name : String} {n : NamedDialect} :
      (Registry.empty.run requests).2.get? name = some n → Obtained n.rules

/-- No character has two uses, and every entry of the tables is a word. -/
structure Dialect.Separated (d : Dialect) : Prop where
  operator_variable : List.Disjoint d.operatorChars d.variableChars
  operator_quote : List.Disjoint d.operatorChars d.identifierQuotes
  variable_quote : List.Disjoint d.variableChars d.identifierQuotes
  unreserved : ∀ c ∈ d.operatorChars ++ d.variableChars ++ d.identifierQuotes,
    Text.isBlank c = false ∧ Text.isAlphanumeric c = false ∧ c ≠ '_' ∧
      c ∉ Dialect.structuralChars
  words : ∀ w ∈ d.keywords ++ d.typeNames, ∃ first rest, w = first :: rest ∧
    Text.isWordStart first = true ∧ ∀ c ∈ rest, Text.isWordChar c = true

namespace Dialect

theorem isReserved_eq_false_iff {c : Char} :
    isReserved c = false ↔ Text.isBlank c = false ∧ Text.isAlphanumeric c = false ∧ c ≠ '_' ∧
      c ∉ structuralChars := by
  simp [isReserved, and_assoc]

theorem Valid.separated {d : Dialect} (hd : d.Valid) : d.Separated where
  operator_variable := fun c hOperator hVariable => hd.operator_not_variable c hOperator hVariable
  operator_quote := fun c hOperator hQuote => (hd.quote_disjoint c hQuote).1 hOperator
  variable_quote := fun c hVariable hQuote => (hd.quote_disjoint c hQuote).2 hVariable
  unreserved := by
    intro c hc
    rw [List.mem_append, List.mem_append] at hc
    rw [← isReserved_eq_false_iff]
    rcases hc with (hOperator | hVariable) | hQuote
    · exact hd.operator_free c hOperator
    · exact hd.variable_free c hVariable
    · exact hd.quote_free c hQuote
  words := by
    intro w hw
    have hWord : Text.isWord w = true := by
      rcases List.mem_append.1 hw with hKeyword | hType
      · exact hd.keyword_word w hKeyword
      · exact hd.typeName_word w hType
    obtain ⟨first, rest, rfl⟩ : ∃ first rest, w = first :: rest :=
      List.exists_cons_of_ne_nil (by rintro rfl; cases hWord)
    rw [Text.isWord, Bool.and_eq_true, List.all_eq_true] at hWord
    exact ⟨first, rest, rfl, hWord⟩

theorem valid_of_validate {d e : Dialect} (h : d.validate = .ok e) : e.Valid := by
  obtain ⟨hValid, rfl⟩ := validate_eq_ok_iff.1 h
  exact hValid

end Dialect

theorem Draft.valid_of_build {draft : Draft} {n : NamedDialect} (h : draft.build = .ok n) :
    n.rules.Valid := by
  rw [build] at h
  split at h
  · cases h
  · split at h
    · cases h
    · next rules hRules =>
      cases h
      exact Dialect.valid_of_validate hRules

/-! ### The registry -/

namespace Catalog

/-- The catalogue binds valid rules only. -/
def AllValid (m : Catalog) : Prop := ∀ key rules, m key = some rules → rules.Valid

theorem AllValid.rebind {m : Catalog} (hm : m.AllValid) (key : String) {rules? : Option Dialect}
    (h : ∀ rules, rules? = some rules → rules.Valid) : (m.rebind key rules?).AllValid := by
  intro k rules hBound
  rw [Catalog.rebind_apply] at hBound
  split at hBound
  · exact h rules hBound
  · exact hm k rules hBound

/-- A request binds valid rules only. -/
theorem Serves.allValid {m after : Catalog} {request : Request} {answer : Answer}
    (h : m.Serves request answer after) (hm : m.AllValid) : after.AllValid := by
  cases h with
  | registered hAdmits =>
    apply hm.rebind
    intro rules hRules
    cases hRules
    exact hAdmits.valid
  | refused => exact hm
  | unregistered =>
    apply hm.rebind
    intro rules hRules
    cases hRules
  | builtIn => exact hm
  | custom => exact hm
  | missing => exact hm

/-- A history of requests binds valid rules only. -/
theorem Run.allValid {m last : Catalog} {requests : List Request} {answers : List Answer}
    (h : Run m requests answers last) (hm : m.AllValid) : last.AllValid := by
  induction h with
  | nil => exact hm
  | cons hStep _ ih => exact ih (hStep.allValid hm)

/-- What is found under a name is built in or bound. -/
theorem Serves.valid_of_found {m after : Catalog} {name : String} {n : NamedDialect}
    (h : m.Serves (.get name) (.found (some n)) after) (hm : m.AllValid) : n.rules.Valid := by
  cases h with
  | @builtIn p => exact p.rules_valid
  | custom _ hBound => exact hm _ _ hBound

end Catalog

theorem Registry.valid_of_get? {requests : List Request} {name : String} {n : NamedDialect}
    (h : (empty.run requests).2.get? name = some n) : n.rules.Valid := by
  have hValid : (empty.run requests).2.catalog.AllValid := by
    apply (empty.run_run requests).allValid
    intro key rules hBound
    cases hBound
  have hServes := (empty.run requests).2.serves_serve (.get name)
  rw [Registry.serve, h] at hServes
  exact hServes.valid_of_found hValid

/-- **Every dialect at hand is valid.**  Rules that come from a built-in dialect, from
overrides, from a draft with any edit or from the registry after any history pass the
check, so that their character sets are disjoint and hold no character with a fixed
meaning, and their tables hold words. -/
theorem Obtained.validate_eq_ok {d : Dialect} (h : Obtained d) :
    d.validate = .ok d ∧ d.Separated := by
  have hValid : d.Valid := by
    cases h with
    | preset p => exact p.rules_valid
    | overridden hRules => exact Dialect.valid_of_validate hRules
    | ofOverrides hBuilt => exact Draft.valid_of_build hBuilt
    | built hBuilt => exact Draft.valid_of_build hBuilt
    | found hFound => exact Registry.valid_of_get? hFound
  exact ⟨Dialect.validate_eq_ok_iff.2 ⟨hValid, rfl⟩, hValid.separated⟩

/-- Tables of its own over PostgreSQL, where `#` starts comments instead of being an
operator. -/
def Draft.warehouse : Draft where
  name := "Warehouse"
  base := .postgresql
  overrides := (Overrides.empty.setText .keywords "select from").setText .typeNames "int"
  edit := Edit.applyAll
    [.addKeyword "QUALIFY".toList, .removeOperatorChars ['#'], .set .hashComments true]

/-- A draft that is registered, and found under its name in capitals. -/
theorem Obtained.validate_eq_ok_warehouse :
    (Registry.empty.run [.register .warehouse, .unregister "MySQL"]).2.get? "WAREHOUSE" =
        some ⟨"WAREHOUSE", none, Draft.warehouse.rules⟩ ∧
      Draft.warehouse.rules.validate = .ok Draft.warehouse.rules ∧
      Draft.warehouse.rules.Separated := by
  have hFound : (Registry.empty.run [.register .warehouse, .unregister "MySQL"]).2.get? "WAREHOUSE"
      = some ⟨"WAREHOUSE", none, Draft.warehouse.rules⟩ := by
    have hFault : Draft.warehouse.rules.fault? = none := by decide +kernel
    have hBlank : Draft.warehouse.name.toList.all Text.isBlank = false := by decide +kernel
    have hPreset : Preset.ofName? Draft.warehouse.name = none := by decide +kernel
    have hCapitals : Preset.ofName? "WAREHOUSE" = none := by decide +kernel
    have hKey : Registry.key Draft.warehouse.name = "warehouse" := by decide +kernel
    have hKeyCapitals : Registry.key "WAREHOUSE" = "warehouse" := by decide +kernel
    have hOther : Registry.key "MySQL" = "mysql" := by decide +kernel
    simp [Registry.run, Registry.serve, Registry.register, Draft.build, Dialect.validate,
      Registry.unregister, Registry.get?, Registry.find?, Registry.empty, hFault, hBlank, hPreset,
      hCapitals, hKey, hKeyCapitals, hOther]
  exact ⟨hFound, Obtained.validate_eq_ok (.found hFound)⟩

end SqlTemplate
