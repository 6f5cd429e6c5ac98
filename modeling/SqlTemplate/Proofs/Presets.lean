import SqlTemplate.Dialect.Preset
import SqlTemplate.Dialect.Validity

/-!
# The built-in dialects are valid

Whatever holds of all valid dialects holds of the built-in ones
(`Preset.rules_valid`).
-/

namespace SqlTemplate

namespace Vocabulary

/-- The word tables from which those of the built-in dialects are made. -/
def tables : List (List Word) :=
  [standardKeywords, standardTypes, mysqlKeywords, mysqlTypes, postgresqlKeywords, postgresqlTypes,
   bigqueryKeywords, bigqueryTypes]

/-- The characters of a name that is written out are known without decoding the
name. -/
theorem forall_name_cons {P : Word → Prop} {word : Word} {names : List String} (hWord : P word)
    (hNames : ∀ w ∈ names.map String.toList, P w) :
    ∀ w ∈ (String.ofList word :: names).map String.toList, P w := by
  rw [List.map_cons, String.toList_ofList, List.forall_mem_cons]
  exact ⟨hWord, hNames⟩

set_option maxRecDepth 4000 in
theorem isWord_of_mem_tables : ∀ table ∈ tables, ∀ w ∈ table, Text.isWord w = true := by
  simp only [tables, List.forall_mem_cons, List.not_mem_nil, false_imp_iff, implies_true, and_true]
  refine ⟨?_, ?_, ?_, ?_, ?_, ?_, ?_, ?_⟩
  all_goals
    repeat refine forall_name_cons rfl ?_
    exact List.forall_mem_nil _

end Vocabulary

namespace Preset

open Vocabulary

/-- The tables of a built-in dialect are made from the word tables. -/
theorem exists_table (p : Preset) :
    ∀ w ∈ p.rules.keywords ++ p.rules.typeNames, ∃ table ∈ tables, w ∈ table := by
  have hTable : ∀ {w : Word} {table : List Word}, w ∈ table → table ∈ tables →
      ∃ table ∈ tables, w ∈ table := fun hw hTable => ⟨_, hTable, hw⟩
  intro w hw
  cases p with
  | standard =>
    simp only [rules, List.mem_append] at hw
    rcases hw with h | h <;> exact hTable h (by simp [tables])
  | mysql | postgresql | bigquery =>
    simp only [rules, List.mem_append] at hw
    rcases hw with (h | h) | (h | h) <;> exact hTable h (by simp [tables])

theorem isWord_of_mem (p : Preset) :
    ∀ w ∈ p.rules.keywords ++ p.rules.typeNames, Text.isWord w = true := by
  intro w hw
  obtain ⟨table, hTable, hMem⟩ := p.exists_table w hw
  exact isWord_of_mem_tables table hTable w hMem

/-- **Every built-in dialect is valid.** -/
theorem rules_valid (p : Preset) : p.rules.Valid := by
  have hFindings : p.rules.findings = p.rules.findings.take 8 ++
      [Dialect.tableFault? .keyword p.rules.keywords,
       Dialect.tableFault? .typeName p.rules.typeNames] := rfl
  have hChars : (p.rules.findings.take 8).findSome? id = none := by
    cases p <;> decide +kernel
  have hKeywords : Dialect.tableFault? .keyword p.rules.keywords = none :=
    Dialect.tableFault?_eq_none_iff.2 fun w hw => p.isWord_of_mem w (List.mem_append_left _ hw)
  have hTypes : Dialect.tableFault? .typeName p.rules.typeNames = none :=
    Dialect.tableFault?_eq_none_iff.2 fun w hw => p.isWord_of_mem w (List.mem_append_right _ hw)
  rw [← Dialect.fault?_eq_none_iff, Dialect.fault?, hFindings, List.findSome?_append, hChars,
    hKeywords, hTypes]
  rfl

end Preset

end SqlTemplate
