import Mathlib.Logic.Function.Basic
import SqlTemplate.Dialect.Draft

/-!
# Laying overrides over dialects

A dialect is seen here as a table with one entry for each of the fourteen options, so that what
a record of overrides does is said once for all of them.

* `Dialect.setting` and `Overrides.setting?`: the entry of an option in a dialect, and the one
  that a record sets.
* `Dialect.eq_of_setting`: the entries are all there is to a dialect.
* `Overrides.setting_apply`: the record where it sets an option, and the dialect elsewhere.
* `Overrides.setting?_onTop`: the same for one record on top of another.
* `Overrides.setting_setSwitch` and `Overrides.setting_setText`: one more option that is set
  changes one entry.
* `Draft.build_of_named`: the ways to make a dialect from overrides check the same rules.

The main statement is `Overrides.overlay_laws`.
-/

namespace SqlTemplate

/-- What a dialect holds for one option. -/
inductive Setting where
  | switch (value : Bool)
  | chars (value : List Char)
  | words (table : List Word)
deriving DecidableEq

/-- The entry that the text of an option stands for. -/
def TextOption.setting : TextOption → String → Setting
  | identifierQuotes, value | operatorChars, value | variableChars, value => .chars value.toList
  | keywords, value | typeNames, value => .words (Text.wordTable value.toList)

/-- The entry of an option. -/
def Dialect.setting (d : Dialect) : OptionName → Setting
  | .switch s => .switch (d.on s)
  | .text .identifierQuotes => .chars d.identifierQuotes
  | .text .operatorChars => .chars d.operatorChars
  | .text .variableChars => .chars d.variableChars
  | .text .keywords => .words d.keywords
  | .text .typeNames => .words d.typeNames

/-- The entry of an option that the record sets. -/
def Overrides.setting? (o : Overrides) : OptionName → Option Setting
  | .switch s => (o.switch? s).map .switch
  | .text t => (o.text? t).map t.setting

/-- A dialect is its entries. -/
theorem Dialect.eq_of_setting {d e : Dialect} (h : ∀ name, d.setting name = e.setting name) :
    d = e := by
  have hSwitch : ∀ s, d.on s = e.on s := fun s => Setting.switch.inj (h (.switch s))
  have hQuotes := Setting.chars.inj (h (.text .identifierQuotes))
  have hOperators := Setting.chars.inj (h (.text .operatorChars))
  have hVariables := Setting.chars.inj (h (.text .variableChars))
  have hKeywords := Setting.words.inj (h (.text .keywords))
  have hTypes := Setting.words.inj (h (.text .typeNames))
  obtain ⟨keywords, typeNames, on, quotes, operators, specials⟩ := d
  obtain rfl : on = e.on := funext hSwitch
  subst hQuotes hOperators hVariables hKeywords hTypes
  rfl

namespace Overrides

variable (o : Overrides) (d : Dialect)

/-- **Overrides are laid over a dialect entry by entry.** -/
theorem setting_apply (name : OptionName) :
    (o.apply d).setting name = (o.setting? name).getD (d.setting name) := by
  cases name with
  | switch s => cases h : o.switch? s <;> simp [Dialect.setting, setting?, apply, h]
  | text t =>
    cases h : o.text? t <;> cases t <;>
      simp [Dialect.setting, setting?, apply, chars, words, TextOption.setting, h]

/-- One record lies on top of another entry by entry. -/
theorem setting?_onTop (later earlier : Overrides) (name : OptionName) :
    (later.onTop earlier).setting? name = (later.setting? name).or (earlier.setting? name) := by
  cases name with
  | switch s => cases h : later.switch? s <;> simp [setting?, onTop, h]
  | text t => cases h : later.text? t <;> simp [setting?, onTop, h]

/-- **A switch that is set changes one entry.** -/
theorem setting_setSwitch (s : Switch) (value : Bool) :
    ((o.setSwitch s value).apply d).setting =
      Function.update (o.apply d).setting (.switch s) (.switch value) := by
  funext name
  rw [setting_apply, Function.update_apply, setting_apply]
  cases name with
  | switch t => by_cases h : t = s <;> simp [setting?, setSwitch, h]
  | text t => simp [setting?, setSwitch]

/-- **A text that is set changes one entry.** -/
theorem setting_setText (t : TextOption) (value : String) :
    ((o.setText t value).apply d).setting =
      Function.update (o.apply d).setting (.text t) (t.setting value) := by
  funext name
  rw [setting_apply, Function.update_apply, setting_apply]
  cases name with
  | switch s => simp [setting?, setText]
  | text u =>
    by_cases h : u = t
    · subst h
      simp [setting?, setText]
    · simp [setting?, setText, h]

/-- Laying the same record over a dialect again changes nothing. -/
theorem apply_apply : o.apply (o.apply d) = o.apply d := by
  apply Dialect.eq_of_setting
  intro name
  rw [setting_apply, setting_apply]
  cases o.setting? name <;> rfl

end Overrides

/-! ### Ways to a dialect -/

/-- A dialect with overrides stays as it is when the same overrides are laid over it. -/
theorem Dialect.withOverrides_of_withOverrides {d e : Dialect} {o : Overrides}
    (h : d.withOverrides o = .ok e) : e.withOverrides o = .ok e := by
  obtain ⟨hValid, rfl⟩ := validate_eq_ok_iff.1 h
  rw [withOverrides, Overrides.apply_apply]
  exact validate_eq_ok_iff.2 ⟨hValid, rfl⟩

/-- **Building a draft without an edit** is laying its overrides over its base, under a name. -/
theorem Draft.build_of_named {name : String} (hName : name.toList.all Text.isBlank = false)
    (base : Preset) (o : Overrides) :
    ({ Draft.named name with base := base, overrides := o } : Draft).build =
      (base.rules.withOverrides o).map fun rules => ⟨name, none, rules⟩ := by
  have hRules : ({ Draft.named name with base := base, overrides := o } : Draft).rules =
      o.apply base.rules := rfl
  rw [build, hRules, Dialect.withOverrides, if_neg (by rw [named, hName]; exact Bool.false_ne_true)]
  cases (o.apply base.rules).validate <;> rfl

/-- **Overlays compose, and the ways to a dialect agree.**  Two records laid over a dialect one
after the other are one record, which takes each option from the later one if it is set there.
Entry by entry the record wins where it sets something, so that an option that no record sets
keeps its value, and one that is set changes its own entry and no other.  A draft, the
construction from overrides of the standard dialect and the overlay itself succeed with the same
rules or fail with the same error, and an overlay over its own result gives that result. -/
theorem Overrides.overlay_laws :
    (∀ (d : Dialect) (o₁ o₂ : Overrides),
      o₂.apply (o₁.apply d) = (o₂.onTop o₁).apply d ∧
        (∀ name, (o₂.onTop o₁).setting? name =
          if (o₂.setting? name).isSome then o₂.setting? name else o₁.setting? name) ∧
        (∀ name, o₁.setting? name = none → o₂.setting? name = none →
          (o₂.apply (o₁.apply d)).setting name = d.setting name)) ∧
    (∀ (d : Dialect) (o : Overrides),
      (∀ name, (o.apply d).setting name = (o.setting? name).getD (d.setting name)) ∧
        (∀ s value, ((o.setSwitch s value).apply d).setting =
          Function.update (o.apply d).setting (.switch s) (.switch value)) ∧
        (∀ t value, ((o.setText t value).apply d).setting =
          Function.update (o.apply d).setting (.text t) (t.setting value))) ∧
    (∀ (base : Preset) (o : Overrides) (name : String), name.toList.all Text.isBlank = false →
      ({ Draft.named name with base := base, overrides := o } : Draft).build =
          ((base.rules.withOverrides o).map fun rules => ⟨name, none, rules⟩) ∧
        NamedDialect.ofOverrides name o =
          ((Preset.standard.rules.withOverrides o).map fun rules => ⟨name, none, rules⟩)) ∧
    (∀ (d e : Dialect) (o : Overrides), d.withOverrides o = .ok e → e.withOverrides o = .ok e) := by
  refine ⟨fun d o₁ o₂ => ⟨(apply_onTop o₂ o₁ d).symm, ?_, ?_⟩,
    fun d o => ⟨setting_apply o d, setting_setSwitch o d, setting_setText o d⟩,
    fun base o name hName => ⟨Draft.build_of_named hName base o,
      Draft.build_of_named hName .standard o⟩,
    fun d e o h => Dialect.withOverrides_of_withOverrides h⟩
  · intro name
    rw [setting?_onTop]
    cases o₂.setting? name <;> rfl
  · intro name h₁ h₂
    rw [setting_apply, h₂, Option.getD_none, setting_apply, h₁, Option.getD_none]

/-- MySQL with tables of its own, from a draft and from the overlay itself. -/
theorem Overrides.overlay_laws_tables :
    let o := (empty.setText .keywords "select from").setText .typeNames "int"
    (empty.setting? (.switch .hashComments) = none ∧ o.setting? (.switch .hashComments) = none ∧
      (o.apply (empty.apply Preset.mysql.rules)).setting (.switch .hashComments) =
        Preset.mysql.rules.setting (.switch .hashComments)) ∧
    ("Shop".toList.all Text.isBlank = false ∧
      ({ Draft.named "Shop" with base := .mysql, overrides := o } : Draft).build =
        (Preset.mysql.rules.withOverrides o).map fun rules => ⟨"Shop", none, rules⟩) ∧
    (Preset.mysql.rules.withOverrides o = .ok (o.apply Preset.mysql.rules) ∧
      (o.apply Preset.mysql.rules).withOverrides o = .ok (o.apply Preset.mysql.rules)) := by
  intro o
  obtain ⟨hCompose, -, hPaths, hAgain⟩ := overlay_laws
  have hBlank : "Shop".toList.all Text.isBlank = false := by decide +kernel
  have hFault : (o.apply Preset.mysql.rules).fault? = none := by decide +kernel
  have hRules : Preset.mysql.rules.withOverrides o = .ok (o.apply Preset.mysql.rules) :=
    Dialect.validate_eq_ok_iff.2 ⟨Dialect.fault?_eq_none_iff.1 hFault, rfl⟩
  exact ⟨⟨rfl, rfl, (hCompose Preset.mysql.rules empty o).2.2 (.switch .hashComments) rfl rfl⟩,
    ⟨hBlank, (hPaths .mysql o "Shop" hBlank).1⟩, hRules, hAgain _ _ o hRules⟩

end SqlTemplate
