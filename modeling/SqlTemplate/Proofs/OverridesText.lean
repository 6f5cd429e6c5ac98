import Mathlib.Data.List.Nodup
import SqlTemplate.Json.Overrides
import SqlTemplate.Proofs.JsonText

/-!
# Overrides are read back

A record of overrides is written as an object of the options that it sets, or as an
array of all options with `null` for those that it does not.  Reading goes through
the symbols of either form and keeps the record of what it has seen: after some of the
options, these are set as they were written and all others are unset
(`Overrides.only`).

* `Overrides.read_symbol`: reading the value of one more option keeps it so.
* `Overrides.readMembers_settings`, `Overrides.readItems_symbols`: so the members of an
  object, and the items of an array, are read to their end.
* `Overrides.parse_render`: so the record is read back from both forms.
-/

namespace SqlTemplate

open Json (Symbol Value)
open Json.Value (memberSymbols itemSymbols)

namespace OptionName

theorem mem_all (name : OptionName) : name ∈ all := by
  cases name with
  | switch s => cases s <;> decide
  | text t => cases t <;> decide

theorem nodup_all : all.Nodup := by decide

theorem ofKey?_key (name : OptionName) : ofKey? name.key = some name := by
  cases name with
  | switch s => cases s <;> decide +kernel
  | text t => cases t <;> decide +kernel

end OptionName

namespace Overrides

variable (o : Overrides)

/-- The record that sets these options only, as `o` does. -/
def only (names : List OptionName) : Overrides where
  switch? s := if .switch s ∈ names then o.switch? s else none
  text? t := if .text t ∈ names then o.text? t else none

theorem only_of_mem {names : List OptionName}
    (h : ∀ name, (o.value? name).isSome = true → name ∈ names) : o.only names = o := by
  apply Overrides.ext
  · intro s
    cases hValue : o.switch? s with
    | none => simp [only, hValue]
    | some b =>
      have hMem := h (.switch s) (by simp [value?, hValue])
      simp [only, hMem, hValue]
  · intro t
    cases hValue : o.text? t with
    | none => simp [only, hValue]
    | some value =>
      have hMem := h (.text t) (by simp [value?, hValue])
      simp [only, hMem, hValue]

/-- The symbol with which the value of an option is written. -/
def symbol : OptionName → Symbol
  | .switch s => ((o.switch? s).map Symbol.bool).getD .null
  | .text t => ((o.text? t).map Symbol.text).getD .null

theorem toSymbols_of_value? {name : OptionName} {v : Value} (h : o.value? name = some v) :
    v.toSymbols = [o.symbol name] ∧ v.WellFormed := by
  cases name with
  | switch s =>
    obtain ⟨b, hb, rfl⟩ := Option.map_eq_some_iff.1 h
    simp [symbol, hb, Value.toSymbols, Value.WellFormed]
  | text t =>
    obtain ⟨value, hValue, rfl⟩ := Option.map_eq_some_iff.1 h
    simp [symbol, hValue, Value.toSymbols, Value.WellFormed]

theorem only_switch (done : List OptionName) (s : Switch) :
    o.only (.switch s :: done) =
      (o.switch? s).elim (o.only done) ((o.only done).setSwitch s) := by
  apply Overrides.ext
  · intro u
    cases hValue : o.switch? s with
    | none =>
      by_cases hu : u = s
      · simp [only, hu, hValue]
      · simp [only, hu]
    | some b =>
      by_cases hu : u = s
      · simp [only, setSwitch, hu, hValue]
      · simp [only, setSwitch, hu]
  · intro t
    cases o.switch? s <;> simp [only, setSwitch]

theorem only_text (done : List OptionName) (t : TextOption) :
    o.only (.text t :: done) = (o.text? t).elim (o.only done) ((o.only done).setText t) := by
  apply Overrides.ext
  · intro s
    cases o.text? t <;> simp [only, setText]
  · intro u
    cases hValue : o.text? t with
    | none =>
      by_cases hu : u = t
      · simp [only, hu, hValue]
      · simp [only, hu]
    | some value =>
      by_cases hu : u = t
      · simp [only, setText, hu, hValue]
      · simp [only, setText, hu]

/-- **One more option is read as it was written**, set or not. -/
theorem read_symbol (done : List OptionName) (name : OptionName) :
    (o.only done).read name (o.symbol name) = .ok (o.only (name :: done)) := by
  cases name with
  | switch s =>
    rw [only_switch, symbol]
    cases o.switch? s <;> rfl
  | text t =>
    rw [only_text, symbol]
    cases o.text? t <;> rfl

/-! ### The object -/

/-- The options that are set, with their values. -/
def settings : List (OptionName × Value) :=
  OptionName.all.filterMap fun name => (o.value? name).map fun v => (name, v)

/-- The member of an object for an option. -/
def member (setting : OptionName × Value) : String × Value := (setting.1.key, setting.2)

theorem toJson_eq : o.toJson = .object (o.settings.map member) := by
  rw [toJson, settings, List.map_filterMap]
  congr 2
  funext name
  cases o.value? name <;> rfl

theorem mem_settings {setting : OptionName × Value} :
    setting ∈ o.settings ↔ o.value? setting.1 = some setting.2 := by
  simp only [settings, List.mem_filterMap, Option.map_eq_some_iff]
  constructor
  · rintro ⟨name, _, v, hv, rfl⟩
    exact hv
  · intro h
    exact ⟨setting.1, setting.1.mem_all, setting.2, h, rfl⟩

theorem nodup_settings : (o.settings.map Prod.fst).Nodup := by
  have hFilter : o.settings.map Prod.fst =
      OptionName.all.filter fun name => (o.value? name).isSome := by
    rw [settings, List.map_filterMap, ← List.filterMap_eq_filter]
    congr 1
    funext name
    cases h : o.value? name <;> simp [Option.guard, h]
  rw [hFilter]
  exact OptionName.nodup_all.filter _

/-- A member that is read, with another one after it. -/
theorem readMembers_comma {p q : Overrides} {seen : List OptionName} {key : String}
    {name : OptionName} {value : Symbol} (hKey : OptionName.ofKey? key = some name)
    (hNew : name ∉ seen) (hRead : p.read name value = .ok q) (rest : List Symbol) :
    p.readMembers seen (.text key :: .colon :: value :: .comma :: rest) =
      q.readMembers (name :: seen) rest := by
  simp [readMembers, hKey, hNew, hRead]

/-- A member that is read, with the end of the object after it. -/
theorem readMembers_closeObject {p q : Overrides} {seen : List OptionName} {key : String}
    {name : OptionName} {value : Symbol} (hKey : OptionName.ofKey? key = some name)
    (hNew : name ∉ seen) (hRead : p.read name value = .ok q) (rest : List Symbol) :
    p.readMembers seen (.text key :: .colon :: value :: .closeObject :: rest) =
      q.atEnd rest := by
  simp [readMembers, hKey, hNew, hRead]

/-- **The members of an object are read to its end.** -/
theorem readMembers_settings (settings : List (OptionName × Value)) (hNil : settings ≠ [])
    (hValues : ∀ setting ∈ settings, o.value? setting.1 = some setting.2)
    (hNodup : (settings.map Prod.fst).Nodup) (done : List OptionName)
    (hNew : ∀ setting ∈ settings, setting.1 ∉ done) :
    (o.only done).readMembers done (memberSymbols (settings.map member) ++ [.closeObject]) =
      .ok (o.only ((settings.map Prod.fst).reverse ++ done)) := by
  induction settings generalizing done with
  | nil => exact absurd rfl hNil
  | cons setting settings ih =>
    obtain ⟨name, v⟩ := setting
    have hSymbols : v.toSymbols = [o.symbol name] :=
      (o.toSymbols_of_value? (hValues (name, v) List.mem_cons_self)).1
    have hFresh : name ∉ done := hNew (name, v) List.mem_cons_self
    have hRead := o.read_symbol done name
    cases settings with
    | nil =>
      show (o.only done).readMembers done (.text name.key :: .colon :: v.toSymbols ++ _) = _
      rw [hSymbols]
      exact readMembers_closeObject name.ofKey?_key hFresh hRead []
    | cons next settings =>
      rw [List.map_cons, List.nodup_cons] at hNodup
      have hRest := ih (List.cons_ne_nil next settings)
        (fun x hx => hValues x (List.mem_cons_of_mem _ hx)) hNodup.2 (name :: done) (by
          intro x hx hDone
          rcases List.mem_cons.1 hDone with hName | hDone
          · exact hNodup.1 (List.mem_map.2 ⟨x, hx, hName⟩)
          · exact hNew x (List.mem_cons_of_mem _ hx) hDone)
      show (o.only done).readMembers done (.text name.key :: .colon :: v.toSymbols ++ .comma ::
        memberSymbols ((next :: settings).map member) ++ [.closeObject]) = _
      have hNames : (((name, v) :: next :: settings).map Prod.fst).reverse ++ done =
          ((next :: settings).map Prod.fst).reverse ++ name :: done := by
        simp
      rw [hSymbols, hNames, ← hRest]
      exact readMembers_comma name.ofKey?_key hFresh hRead _

theorem ofSymbols_toJson : ofSymbols o.toJson.toSymbols = .ok o := by
  have hOnly : o.only ((o.settings.map Prod.fst).reverse ++ []) = o := by
    apply o.only_of_mem
    intro name hSet
    obtain ⟨v, hv⟩ := Option.isSome_iff_exists.1 hSet
    simpa using ⟨v, o.mem_settings.2 hv⟩
  rw [toJson_eq]
  cases hSettings : o.settings with
  | nil =>
    rw [hSettings] at hOnly
    rw [← hOnly]
    rfl
  | cons setting settings =>
    have hRead := o.readMembers_settings o.settings (by simp [hSettings])
      (fun x hx => o.mem_settings.1 hx) o.nodup_settings [] (fun _ _ => List.not_mem_nil)
    rw [hOnly, hSettings] at hRead
    rw [← hRead]
    cases settings <;> rfl

/-! ### The array -/

/-- The item of an array for an option. -/
def item (name : OptionName) : Value := (o.value? name).getD .null

theorem toSymbols_item (name : OptionName) :
    (o.item name).toSymbols = [o.symbol name] ∧ (o.item name).WellFormed := by
  rw [item]
  cases hValue : o.value? name with
  | some v => exact o.toSymbols_of_value? hValue
  | none =>
    cases name with
    | switch s =>
      have hUnset : o.switch? s = none := Option.map_eq_none_iff.1 hValue
      simp [symbol, hUnset, Value.toSymbols, Value.WellFormed]
    | text t =>
      have hUnset : o.text? t = none := Option.map_eq_none_iff.1 hValue
      simp [symbol, hUnset, Value.toSymbols, Value.WellFormed]

/-- **The items of an array are read to its end.** -/
theorem readItems_symbols (names : List OptionName) (hNil : names ≠ []) (done : List OptionName)
    (count : Nat) :
    (o.only done).readItems count names (itemSymbols (names.map o.item) ++ [.closeArray]) =
      .ok (o.only (names.reverse ++ done)) := by
  induction names generalizing done count with
  | nil => exact absurd rfl hNil
  | cons name names ih =>
    have hSymbols := (o.toSymbols_item name).1
    have hRead := o.read_symbol done name
    cases names with
    | nil => simp [itemSymbols, hSymbols, readItems, hRead, atEnd]
    | cons next names =>
      have hRest := ih (List.cons_ne_nil next names) (name :: done) (count + 1)
      rw [List.reverse_cons, List.append_assoc, List.singleton_append, ← hRest]
      simp [itemSymbols, hSymbols, readItems, hRead]

theorem ofSymbols_items :
    ofSymbols (Value.array (OptionName.all.map o.item)).toSymbols = .ok o := by
  have hOnly : o.only (OptionName.all.reverse ++ []) = o := by
    apply o.only_of_mem
    intro name _
    simpa using name.mem_all
  have hRead := o.readItems_symbols OptionName.all (List.cons_ne_nil _ _) [] 0
  obtain ⟨s, rest, hSymbols, hs⟩ := Json.exists_head_itemSymbols
    (o.item (.switch .bitsAsBytes)) (OptionName.all.tail.map o.item)
  have hItems : itemSymbols (OptionName.all.map o.item) = s :: rest := hSymbols
  rw [hOnly, hItems] at hRead
  rw [Value.toSymbols, hItems, List.cons_append, List.cons_append, ofSymbols]
  · exact hRead
  · intro _ hClose
    cases hClose
    exact hs rfl

theorem parse_of_symbols {v : Value} (h : v.WellFormed) :
    parse (String.ofList v.render) = ofSymbols v.toSymbols := by
  rw [parse, String.toList_ofList, Json.symbols_of_render h]

/-- **Overrides are read back.**  Every record of overrides is read back from its JSON
text, and also from the array of its fourteen values with `null` for each option that
it leaves unset. -/
theorem parse_render :
    parse (String.ofList o.toJson.render) = .ok o ∧
      parse (String.ofList
        (Value.array (OptionName.all.map fun name => (o.value? name).getD .null)).render) =
          .ok o := by
  have hObject : o.toJson.WellFormed := by
    rw [toJson_eq]
    apply Value.wellFormed_object
    rw [List.forall_mem_map]
    intro setting hSetting
    exact (o.toSymbols_of_value? (o.mem_settings.1 hSetting)).2
  have hArray : (Value.array (OptionName.all.map o.item)).WellFormed := by
    apply Value.wellFormed_array
    rw [List.forall_mem_map]
    intro name _
    exact (o.toSymbols_item name).2
  constructor
  · rw [parse_of_symbols hObject, ofSymbols_toJson]
  · exact (parse_of_symbols hArray).trans o.ofSymbols_items

end Overrides

end SqlTemplate
