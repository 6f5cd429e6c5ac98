import Mathlib.Data.List.Forall2
import Mathlib.Logic.Function.Basic
import SqlTemplate.Dialect.Registry
import SqlTemplate.Proofs.LetterCase

/-!
# The registry is a map

A registry is used through a history of requests: to register a draft, to
unregister a name, to look a name up.  What it answers can be said without its
list of entries.  A `Catalog` binds keys to rules, `Catalog.Serves` says what is
answered to one request and what is bound after it, and `Catalog.Run` does so for
a history.

* `Registry.key_eq_key_iff`: two names have one key exactly if they differ in the
  case of the letters `A` to `Z` alone.
* `Preset.ofName?_eq_some_iff`: a name is that of a built-in dialect exactly if it
  is its name or an alias in some case, and of one built-in dialect at most.
* `Registry.serves_serve`: one request is served as by the catalogue that the
  registry stands for.
* `Registry.catalog_run_iff`: so the answers to a history, and what is bound at
  its end, are those of the catalogue and no others.
-/

namespace SqlTemplate

/-! ### Names -/

namespace Text

/-- The same character, or one of the letters `A` to `Z` and its small form. -/
def SameLetter (c d : Char) : Prop := c = d ∨ c.toLower = d ∨ c = d.toLower

theorem eq_of_toLower_eq {c d : Char} (hc : c.toLower ≠ c) (hd : d.toLower ≠ d)
    (h : c.toLower = d.toLower) : c = d := by
  have hAll : (capitals.all fun c => capitals.all fun d => c.toLower != d.toLower || c == d)
      = true := by
    decide
  have hPair := List.all_eq_true.1 (List.all_eq_true.1 hAll c (mem_capitals_of_toLower_ne hc)) d
    (mem_capitals_of_toLower_ne hd)
  simpa [h] using hPair

theorem sameLetter_iff {c d : Char} : SameLetter c d ↔ c.toLower = d.toLower := by
  constructor
  · rintro (rfl | rfl | rfl)
    · rfl
    · exact (toLower_toLower c).symm
    · exact toLower_toLower d
  · intro h
    by_cases hc : c.toLower = c
    · exact Or.inr (Or.inr (hc.symm.trans h))
    by_cases hd : d.toLower = d
    · exact Or.inr (Or.inl (h.trans hd))
    exact Or.inl (eq_of_toLower_eq hc hd h)

end Text

/-- The names differ at most in the case of the letters `A` to `Z`. -/
def SameName (a b : String) : Prop := List.Forall₂ Text.SameLetter a.toList b.toList

theorem Registry.toList_key (name : String) : (key name).toList = Text.lower name.toList :=
  String.toList_map

/-- **Keys tell names apart, but for their case.** -/
theorem Registry.key_eq_key_iff {a b : String} : key a = key b ↔ SameName a b := by
  have hLetters : Text.SameLetter = fun c d => c.toLower = d.toLower := by
    funext c d
    exact propext Text.sameLetter_iff
  rw [String.ext_iff, toList_key, toList_key, SameName, hLetters, Text.lower, Text.lower,
    ← List.forall₂_eq_eq_eq, List.forall₂_map_left_iff, List.forall₂_map_right_iff]

namespace Preset

/-- Whether a name is that of the built-in dialect or an alias, in any case. -/
def IsNamed (p : Preset) (name : String) : Prop := ∃ own ∈ p.name :: p.aliases, SameName own name

theorem key_of_mem_names (p : Preset) : ∀ own ∈ p.name :: p.aliases, Registry.key own = own := by
  cases p <;> decide +kernel

theorem eq_of_mem_names {p q : Preset} {own : String} (hp : own ∈ p.name :: p.aliases)
    (hq : own ∈ q.name :: q.aliases) : p = q := by
  have hAll : ∀ own ∈ p.name :: p.aliases, own ∈ q.name :: q.aliases → p = q := by
    cases p <;> cases q <;> decide +kernel
  exact hAll own hp hq

theorem isNamed_iff {p : Preset} {name : String} :
    p.IsNamed name ↔ Registry.key name ∈ p.name :: p.aliases := by
  constructor
  · rintro ⟨own, hOwn, hSame⟩
    rw [← Registry.key_eq_key_iff.2 hSame, p.key_of_mem_names own hOwn]
    exact hOwn
  · intro h
    exact ⟨_, h, Registry.key_eq_key_iff.1 (p.key_of_mem_names _ h)⟩

/-- **A name belongs to one built-in dialect at most**, and is found to be its. -/
theorem ofName?_eq_some_iff {p : Preset} {name : String} :
    ofName? name = some p ↔ p.IsNamed name := by
  rw [isNamed_iff]
  constructor
  · intro h
    simpa [Registry.key] using List.find?_some h
  · intro h
    have hp : p ∈ all := by cases p <;> decide
    cases hFound : ofName? name with
    | none =>
      have hNot := List.find?_eq_none.1 hFound p hp
      exact absurd (List.contains_iff_mem.2 h) hNot
    | some q =>
      have hq : Registry.key name ∈ q.name :: q.aliases := by
        simpa [Registry.key] using List.find?_some hFound
      rw [eq_of_mem_names hq h]

theorem ofName?_eq_none_iff {name : String} :
    ofName? name = none ↔ ∀ p : Preset, ¬ p.IsNamed name := by
  simp only [← ofName?_eq_some_iff, Option.eq_none_iff_forall_ne_some, ne_eq]

end Preset

/-! ### Requests -/

/-- A request to the registry. -/
inductive Request where
  | register (draft : Draft)
  | unregister (name : String)
  | get (name : String)

/-- What is answered to a request. -/
inductive Answer where
  | registered
  | refused (e : DialectError)
  | unregistered (existed : Bool)
  | found (dialect? : Option NamedDialect)

namespace Registry

/-- Serves a request.  A draft that is refused leaves the registry as it is. -/
def serve (r : Registry) : Request → Answer × Registry
  | .register draft =>
    match r.register draft with
    | .ok after => (.registered, after)
    | .error e => (.refused e, r)
  | .unregister name => ((.unregistered (r.unregister name).1), (r.unregister name).2)
  | .get name => (.found (r.get? name), r)

/-- Serves the requests of a history, the first one first. -/
def run (r : Registry) : List Request → List Answer × Registry
  | [] => ([], r)
  | request :: requests =>
    (((r.serve request).1 :: ((r.serve request).2.run requests).1),
      ((r.serve request).2.run requests).2)

end Registry

/-! ### Catalogues -/

/-- The rules that each key is bound to. -/
abbrev Catalog : Type := String → Option Dialect

namespace Catalog

def empty : Catalog := fun _ => none

/-- The catalogue with one key bound to other rules, or to none. -/
def rebind (m : Catalog) (key : String) (rules? : Option Dialect) : Catalog :=
  Function.update m key rules?

theorem rebind_apply (m : Catalog) (key : String) (rules? : Option Dialect) (k : String) :
    m.rebind key rules? k = if k = key then rules? else m k :=
  Function.update_apply m key rules? k

@[simp] theorem rebind_rebind (m : Catalog) (key : String) (first last : Option Dialect) :
    (m.rebind key first).rebind key last = m.rebind key last := by
  rw [rebind, rebind, rebind, Function.update_idem]

theorem rebind_comm (m : Catalog) {key other : String} (h : key ≠ other)
    (rules? others? : Option Dialect) :
    (m.rebind key rules?).rebind other others? = (m.rebind other others?).rebind key rules? := by
  rw [rebind, rebind, rebind, rebind, Function.update_comm h]

/-- A draft that can be registered. -/
structure Admits (m : Catalog) (draft : Draft) : Prop where
  notBuiltIn : ∀ p : Preset, ¬ p.IsNamed draft.name
  notBlank : ∃ c ∈ draft.name.toList, Text.isBlank c = false
  valid : draft.rules.Valid
  unbound : m (Registry.key draft.name) = none

/-- Why a draft is refused.  The reasons are looked for in this order, and each is
given only where none of those before it holds. -/
inductive Refuses (m : Catalog) (draft : Draft) : DialectError → Prop
  | builtIn {p : Preset} : p.IsNamed draft.name → Refuses m draft (.alreadyExists draft.name)
  | blank : (∀ p : Preset, ¬ p.IsNamed draft.name) →
      (∀ c ∈ draft.name.toList, Text.isBlank c = true) → Refuses m draft .noName
  | invalid {fault : DialectFault} : (∀ p : Preset, ¬ p.IsNamed draft.name) →
      (∃ c ∈ draft.name.toList, Text.isBlank c = false) → draft.rules.fault? = some fault →
      Refuses m draft (.invalid fault)
  | bound {rules : Dialect} : (∀ p : Preset, ¬ p.IsNamed draft.name) →
      (∃ c ∈ draft.name.toList, Text.isBlank c = false) → draft.rules.Valid →
      m (Registry.key draft.name) = some rules → Refuses m draft (.alreadyExists draft.name)

/-- What a catalogue answers to a request, and the catalogue after it. -/
inductive Serves (m : Catalog) : Request → Answer → Catalog → Prop
  | registered {draft : Draft} : m.Admits draft →
      Serves m (.register draft) .registered
        (m.rebind (Registry.key draft.name) (some draft.rules))
  | refused {draft : Draft} {e : DialectError} : m.Refuses draft e →
      Serves m (.register draft) (.refused e) m
  | unregistered (name : String) :
      Serves m (.unregister name) (.unregistered (m (Registry.key name)).isSome)
        (m.rebind (Registry.key name) none)
  | builtIn {p : Preset} {name : String} : p.IsNamed name →
      Serves m (.get name) (.found (some p.named)) m
  | custom {name : String} {rules : Dialect} : (∀ p : Preset, ¬ p.IsNamed name) →
      m (Registry.key name) = some rules →
      Serves m (.get name) (.found (some ⟨name, none, rules⟩)) m
  | missing {name : String} : (∀ p : Preset, ¬ p.IsNamed name) → m (Registry.key name) = none →
      Serves m (.get name) (.found none) m

/-- What a catalogue answers to a history of requests, and the catalogue at its
end. -/
inductive Run : Catalog → List Request → List Answer → Catalog → Prop
  | nil (m : Catalog) : Run m [] [] m
  | cons {m middle last : Catalog} {request : Request} {requests : List Request} {answer : Answer}
      {answers : List Answer} : m.Serves request answer middle → Run middle requests answers last →
      Run m (request :: requests) (answer :: answers) last

/-! ### One request -/

theorem Refuses.not_admits {m : Catalog} {draft : Draft} {e : DialectError}
    (h : m.Refuses draft e) : ¬ m.Admits draft := by
  intro hAdmits
  cases h with
  | builtIn hNamed => exact hAdmits.notBuiltIn _ hNamed
  | blank _ hBlank =>
    obtain ⟨c, hc, hNot⟩ := hAdmits.notBlank
    rw [hBlank c hc] at hNot
    cases hNot
  | invalid _ _ hFault =>
    rw [Dialect.fault?_eq_none_iff.2 hAdmits.valid] at hFault
    cases hFault
  | bound _ _ _ hBound =>
    rw [hAdmits.unbound] at hBound
    cases hBound

/-- A draft is refused for one reason. -/
theorem Refuses.unique {m : Catalog} {draft : Draft} {e f : DialectError}
    (he : m.Refuses draft e) (hf : m.Refuses draft f) : e = f := by
  -- each reason asks that those before it do not hold
  cases he <;> cases hf <;> grind [Dialect.fault?_eq_none_iff]

/-- A catalogue has one answer to a request, and one catalogue follows. -/
theorem Serves.unique {m x y : Catalog} {request : Request} {a b : Answer}
    (ha : m.Serves request a x) (hb : m.Serves request b y) : a = b ∧ x = y := by
  cases ha with
  | registered hAdmits =>
    cases hb with
    | registered => exact ⟨rfl, rfl⟩
    | refused hRefuses => exact absurd hAdmits hRefuses.not_admits
  | refused hRefuses =>
    cases hb with
    | registered hAdmits => exact absurd hAdmits hRefuses.not_admits
    | refused hOther => exact ⟨congrArg _ (hRefuses.unique hOther), rfl⟩
  | unregistered =>
    cases hb
    exact ⟨rfl, rfl⟩
  | builtIn hNamed =>
    cases hb with
    | builtIn hOther =>
      have hSome := (Preset.ofName?_eq_some_iff.2 hNamed).symm.trans
        (Preset.ofName?_eq_some_iff.2 hOther)
      rw [Option.some.inj hSome]
      exact ⟨rfl, rfl⟩
    | custom hNot => exact absurd hNamed (hNot _)
    | missing hNot => exact absurd hNamed (hNot _)
  | custom hNot hBound =>
    cases hb with
    | builtIn hNamed => exact absurd hNamed (hNot _)
    | custom _ hOther =>
      rw [Option.some.inj (hBound.symm.trans hOther)]
      exact ⟨rfl, rfl⟩
    | missing _ hUnbound => cases hBound.symm.trans hUnbound
  | missing hNot hUnbound =>
    cases hb with
    | builtIn hNamed => exact absurd hNamed (hNot _)
    | custom _ hBound => cases hBound.symm.trans hUnbound
    | missing => exact ⟨rfl, rfl⟩

/-- A history has one list of answers. -/
theorem Run.unique {m x y : Catalog} {requests : List Request} {as bs : List Answer}
    (ha : Run m requests as x) (hb : Run m requests bs y) : as = bs ∧ x = y := by
  induction ha generalizing bs with
  | nil =>
    cases hb
    exact ⟨rfl, rfl⟩
  | cons hStep _ ih =>
    cases hb with
    | cons hOther hRest =>
      obtain ⟨rfl, rfl⟩ := hStep.unique hOther
      obtain ⟨rfl, rfl⟩ := ih hRest
      exact ⟨rfl, rfl⟩

end Catalog

namespace Registry

/-- The catalogue that a registry stands for. -/
def catalog (r : Registry) : Catalog := fun key => r.entries.lookup key

theorem catalog_cons (key : String) (rules : Dialect) (entries : List (String × Dialect)) :
    catalog ⟨(key, rules) :: entries⟩ = (catalog ⟨entries⟩).rebind key (some rules) := by
  funext k
  show ((key, rules) :: entries).lookup k = _
  rw [List.lookup_cons, Catalog.rebind_apply]
  by_cases hKey : k = key
  · rw [if_pos hKey, hKey, beq_self_eq_true]
  · rw [if_neg hKey, beq_false_of_ne hKey]
    rfl

theorem catalog_filter (key : String) (entries : List (String × Dialect)) :
    catalog ⟨entries.filter (·.1 != key)⟩ = (catalog ⟨entries⟩).rebind key none := by
  induction entries with
  | nil =>
    funext k
    rw [Catalog.rebind_apply]
    split <;> rfl
  | cons entry entries ih =>
    obtain ⟨other, rules⟩ := entry
    by_cases hKey : other = key
    · subst hKey
      rw [List.filter_cons_of_neg (by simp), ih, catalog_cons, Catalog.rebind_rebind]
    · rw [List.filter_cons_of_pos (by simpa using hKey), catalog_cons, ih, catalog_cons,
        Catalog.rebind_comm _ (Ne.symm hKey)]

/-- **A draft is registered exactly if the catalogue admits it.** -/
theorem serves_register (r : Registry) (draft : Draft) :
    r.catalog.Serves (.register draft) (r.serve (.register draft)).1
      (r.serve (.register draft)).2.catalog := by
  rw [serve, register]
  cases hName : Preset.ofName? draft.name with
  | some p => exact .refused (.builtIn (Preset.ofName?_eq_some_iff.1 hName))
  | none =>
    have hCustom := Preset.ofName?_eq_none_iff.1 hName
    rw [if_neg (by simp), Draft.build]
    by_cases hBlank : draft.name.toList.all Text.isBlank = true
    · rw [if_pos hBlank]
      exact .refused (.blank hCustom (List.all_eq_true.1 hBlank))
    · have hNotBlank : ∃ c ∈ draft.name.toList, Text.isBlank c = false := by
        simpa using hBlank
      rw [if_neg hBlank, Dialect.validate]
      cases hFault : draft.rules.fault? with
      | some fault => exact .refused (.invalid hCustom hNotBlank hFault)
      | none =>
        have hValid := Dialect.fault?_eq_none_iff.1 hFault
        cases hFound : r.find? draft.name with
        | some rules =>
          have hRefuses := Catalog.Refuses.bound (m := r.catalog) hCustom hNotBlank hValid hFound
          simpa using Catalog.Serves.refused hRefuses
        | none =>
          have hServes := Catalog.Serves.registered (m := r.catalog)
            ⟨hCustom, hNotBlank, hValid, hFound⟩
          simpa [catalog_cons] using hServes

/-- **One request is served as by the catalogue.** -/
theorem serves_serve (r : Registry) (request : Request) :
    r.catalog.Serves request (r.serve request).1 (r.serve request).2.catalog := by
  cases request with
  | register draft => exact r.serves_register draft
  | unregister name =>
    have hServes := Catalog.Serves.unregistered (m := r.catalog) name
    rw [← catalog_filter] at hServes
    exact hServes
  | get name =>
    rw [serve, get?]
    cases hName : Preset.ofName? name with
    | some p => exact .builtIn (Preset.ofName?_eq_some_iff.1 hName)
    | none =>
      have hCustom := Preset.ofName?_eq_none_iff.1 hName
      cases hFound : r.find? name with
      | some rules => exact .custom hCustom hFound
      | none => exact .missing hCustom hFound

/-! ### Histories -/

theorem run_run (r : Registry) (requests : List Request) :
    Catalog.Run r.catalog requests (r.run requests).1 (r.run requests).2.catalog := by
  induction requests generalizing r with
  | nil => exact .nil r.catalog
  | cons request requests ih => exact .cons (r.serves_serve request) (ih (r.serve request).2)

/-- **The registry is a map without regard to case, and built-in dialects keep their
names.**  Names have one key exactly if they differ in case alone; and for every
history of requests to the empty registry, the answers, and the rules bound to each
key at its end, are those of the empty catalogue and no others. -/
theorem catalog_run_iff :
    (∀ a b : String, key a = key b ↔ SameName a b) ∧
      ∀ (requests : List Request) (answers : List Answer) (m : Catalog),
        Catalog.Run .empty requests answers m ↔
          (empty.run requests).1 = answers ∧ (empty.run requests).2.catalog = m := by
  refine ⟨fun a b => key_eq_key_iff, ?_⟩
  intro requests answers m
  have hRun : Catalog.Run .empty requests (empty.run requests).1 (empty.run requests).2.catalog :=
    empty.run_run requests
  constructor
  · intro h
    exact hRun.unique h
  · rintro ⟨rfl, rfl⟩
    exact hRun

end Registry

end SqlTemplate
