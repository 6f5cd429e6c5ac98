import SqlTemplate.Dialect.Basic
import SqlTemplate.Text.Escape

/-!
# Valid dialects

Not every combination of tables, switches and characters can be read.
`Dialect.fault?` looks for the first thing wrong with a dialect, in a fixed
order, and `Dialect.Valid` says what a dialect without faults looks like;
`fault?_eq_none_iff` says that the two agree.
-/

namespace SqlTemplate

/-- What a character of a dialect is used for. -/
inductive CharRole where
  | operator
  | specialVariable
  | identifierQuote
deriving DecidableEq, Repr

def CharRole.describe : CharRole → String
  | operator => "an operator"
  | specialVariable => "a special variable"
  | identifierQuote => "an identifier quote"

/-- The two word tables of a dialect. -/
inductive TableRole where
  | keyword
  | typeName
deriving DecidableEq, Repr

def TableRole.describe : TableRole → String
  | keyword => "keyword"
  | typeName => "type"

/-- What can be wrong with a dialect. -/
inductive DialectFault where
  | apostropheQuotes
  | doubleQuoteTwice
  | operatorAndVariable (c : Char)
  | hashTwice
  | reserved (role : CharRole) (c : Char)
  | quoteTwice (c : Char)
  | notWord (table : TableRole) (entry : Word)
deriving DecidableEq, Repr

def DialectFault.message : DialectFault → String
  | apostropheQuotes => "`'` delimits strings and cannot quote identifiers"
  | doubleQuoteTwice => "`\"` cannot delimit both strings and identifiers"
  | operatorAndVariable c =>
    s!"`{c}` is both an operator character and a special variable prefix"
  | hashTwice => "`#` cannot start comments and also be an operator or special variable"
  | reserved role c => s!"`{Text.escapeChar c}` cannot be used as {role.describe} character"
  | quoteTwice c => s!"`{c}` cannot quote identifiers and also be an operator or special variable"
  | notWord table entry => s!"{table.describe} table entry {Text.quoted entry} is not a word"

namespace Dialect

/-- The characters whose meaning no dialect can change. -/
def structuralChars : List Char := ['\'', '{', '}', '(', ')', '[', ']', '.', ';', ',']

/-- Whether a character already has a meaning in every dialect. -/
def isReserved (c : Char) : Bool :=
  Text.isBlank c || Text.isAlphanumeric c || c == '_' || structuralChars.contains c

/-- The first reserved character of a set. -/
def reservedFault? (role : CharRole) (chars : List Char) : Option DialectFault :=
  (chars.find? isReserved).map (.reserved role)

/-- The first entry of a table that is no word. -/
def tableFault? (table : TableRole) (entries : List Word) : Option DialectFault :=
  (entries.find? (!Text.isWord ·)).map (.notWord table)

/-- What each check finds, in the order of the checks. -/
def findings (d : Dialect) : List (Option DialectFault) :=
  [if d.isIdentifierQuote '\'' then some .apostropheQuotes else none,
   if d.on .doubleQuotedStrings && d.isIdentifierQuote '"' then some .doubleQuoteTwice else none,
   (d.operatorChars.find? d.isVariableChar).map .operatorAndVariable,
   if d.on .hashComments && (d.isOperatorChar '#' || d.isVariableChar '#')
     then some .hashTwice else none,
   reservedFault? .operator d.operatorChars,
   reservedFault? .specialVariable d.variableChars,
   reservedFault? .identifierQuote d.identifierQuotes,
   (d.identifierQuotes.find? fun c => d.isOperatorChar c || d.isVariableChar c).map .quoteTwice,
   tableFault? .keyword d.keywords,
   tableFault? .typeName d.typeNames]

/-- The first thing wrong with a dialect. -/
def fault? (d : Dialect) : Option DialectFault := d.findings.findSome? id

/-- A dialect that can be read: its character sets are disjoint, hold no
character with a fixed meaning, and its tables hold words. -/
structure Valid (d : Dialect) : Prop where
  apostrophe : '\'' ∉ d.identifierQuotes
  doubleQuote : d.on .doubleQuotedStrings = true → '"' ∉ d.identifierQuotes
  operator_not_variable : ∀ c ∈ d.operatorChars, c ∉ d.variableChars
  hash : d.on .hashComments = true → '#' ∉ d.operatorChars ∧ '#' ∉ d.variableChars
  operator_free : ∀ c ∈ d.operatorChars, isReserved c = false
  variable_free : ∀ c ∈ d.variableChars, isReserved c = false
  quote_free : ∀ c ∈ d.identifierQuotes, isReserved c = false
  quote_disjoint : ∀ c ∈ d.identifierQuotes, c ∉ d.operatorChars ∧ c ∉ d.variableChars
  keyword_word : ∀ w ∈ d.keywords, Text.isWord w = true
  typeName_word : ∀ w ∈ d.typeNames, Text.isWord w = true

theorem reservedFault?_eq_none_iff {role : CharRole} {chars : List Char} :
    reservedFault? role chars = none ↔ ∀ c ∈ chars, isReserved c = false := by
  simp [reservedFault?]

theorem tableFault?_eq_none_iff {table : TableRole} {entries : List Word} :
    tableFault? table entries = none ↔ ∀ w ∈ entries, Text.isWord w = true := by
  simp [tableFault?]

theorem fault?_eq_none_iff {d : Dialect} : d.fault? = none ↔ d.Valid := by
  simp [fault?, findings, reservedFault?_eq_none_iff, tableFault?_eq_none_iff, isIdentifierQuote,
    isOperatorChar, isVariableChar]
  constructor
  · rintro ⟨hA, hD, hOV, hH, hO, hV, hQ, hQD, hK, hT⟩
    exact ⟨hA, hD, hOV, hH, hO, hV, hQ, hQD, hK, hT⟩
  · rintro ⟨hA, hD, hOV, hH, hO, hV, hQ, hQD, hK, hT⟩
    exact ⟨hA, hD, hOV, hH, hO, hV, hQ, hQD, hK, hT⟩

end Dialect

end SqlTemplate
