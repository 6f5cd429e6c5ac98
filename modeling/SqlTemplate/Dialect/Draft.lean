import SqlTemplate.Dialect.Error
import SqlTemplate.Dialect.Preset
import SqlTemplate.TokenStream

/-!
# Drafts

A draft describes a new dialect: a name, the built-in dialect it starts from,
overrides, and a further edit.  Building it checks the name and the rules.
-/

namespace SqlTemplate

/-- A dialect under a name. -/
structure NamedDialect where
  name : String
  /-- The built-in dialect that it is, if it is one. -/
  preset? : Option Preset
  rules : Dialect

/-- A built-in dialect under its own name. -/
def Preset.named (p : Preset) : NamedDialect := ⟨p.name, some p, p.rules⟩

/-- A change to the rules of a dialect. -/
inductive Edit where
  | addKeyword (w : Word)
  | removeKeyword (w : Word)
  | addTypeName (w : Word)
  | removeTypeName (w : Word)
  | addIdentifierQuotes (chars : List Char)
  | addOperatorChars (chars : List Char)
  | addVariableChars (chars : List Char)
  | removeOperatorChars (chars : List Char)
  | set (s : Switch) (value : Bool)
deriving Repr

namespace Edit

/-- The table with a word in it, once. -/
def insertWord (table : List Word) (w : Word) : List Word :=
  if w ∈ table then table else table ++ [w]

/-- The table without a word. -/
def removeWord (table : List Word) (w : Word) : List Word := table.filter (· != w)

def apply (d : Dialect) : Edit → Dialect
  | addKeyword w => { d with keywords := insertWord d.keywords w }
  | removeKeyword w => { d with keywords := removeWord d.keywords w }
  | addTypeName w => { d with typeNames := insertWord d.typeNames w }
  | removeTypeName w => { d with typeNames := removeWord d.typeNames w }
  | addIdentifierQuotes chars => { d with identifierQuotes := d.identifierQuotes ++ chars }
  | addOperatorChars chars => { d with operatorChars := d.operatorChars ++ chars }
  | addVariableChars chars => { d with variableChars := d.variableChars ++ chars }
  | removeOperatorChars chars =>
    { d with operatorChars := d.operatorChars.filter (!chars.contains ·) }
  | set s value => { d with on := fun t => if t = s then value else d.on t }

/-- Several changes, one after the other. -/
def applyAll (edits : List Edit) (d : Dialect) : Dialect := edits.foldl apply d

end Edit

structure Draft where
  name : String
  base : Preset
  overrides : Overrides
  /-- Applied after the overrides. -/
  edit : Dialect → Dialect

namespace Draft

/-- A draft with a name, over the standard dialect. -/
def named (name : String) : Draft := ⟨name, .standard, .empty, id⟩

def rules (draft : Draft) : Dialect := draft.edit (draft.overrides.apply draft.base.rules)

/-- The dialect that the draft describes, under its name. -/
def build (draft : Draft) : Except DialectError NamedDialect :=
  if draft.name.toList.all Text.isBlank then .error .noName
  else
    match draft.rules.validate with
    | .error e => .error e
    | .ok rules => .ok ⟨draft.name, none, rules⟩

end Draft

/-- A dialect from overrides of the standard one. -/
def NamedDialect.ofOverrides (name : String) (o : Overrides) : Except DialectError NamedDialect :=
  { Draft.named name with overrides := o }.build

end SqlTemplate
