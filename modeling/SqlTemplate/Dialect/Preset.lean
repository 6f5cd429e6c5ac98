import SqlTemplate.Dialect.Vocabulary

/-!
# Built-in dialects

Four dialects are built in.  Each has a name of its own and is also found under
other names, in any ASCII case.
-/

namespace SqlTemplate

/-- A built-in dialect. -/
inductive Preset where
  | standard
  | mysql
  | postgresql
  | bigquery
deriving DecidableEq, Repr

namespace Preset

def all : List Preset := [standard, mysql, postgresql, bigquery]

def name : Preset → String
  | standard => "standard"
  | mysql => "mysql"
  | postgresql => "postgresql"
  | bigquery => "bigquery"

/-- The other names of a built-in dialect. -/
def aliases : Preset → List String
  | standard => ["sql", "ansi", "generic"]
  | mysql => ["mariadb"]
  | postgresql => ["postgres", "pg"]
  | bigquery => []

/-- The built-in dialect with exactly this name. -/
def ofExactName? (s : String) : Option Preset := all.find? (·.name == s)

/-- The built-in dialect with this name or alias, in any ASCII case. -/
def ofName? (s : String) : Option Preset :=
  all.find? fun p => (p.name :: p.aliases).contains s.toLower

/-- The switches that are on. -/
def switches : Preset → List Switch
  | standard => [.doubleQuotedBits]
  | mysql =>
    [.doubleQuotedBits, .backslashEscapes, .hashComments, .spaceAfterDashes, .charsetStrings,
     .doubleQuotedStrings]
  | postgresql => [.dollarQuotes, .charsetStrings]
  | bigquery => [.bitsAsBytes, .doubleQuotedBits, .backslashEscapes, .doubleQuotedStrings]

/-- The rules of a built-in dialect. -/
def rules (p : Preset) : Dialect :=
  match p with
  | standard =>
    { keywords := Vocabulary.standardKeywords
      typeNames := Vocabulary.standardTypes
      on := p.switches.contains
      identifierQuotes := ['"']
      operatorChars := "*+-%<>!=&|~^/".toList
      variableChars := ['?'] }
  | mysql =>
    { keywords := Vocabulary.standardKeywords ++ Vocabulary.mysqlKeywords
      typeNames := Vocabulary.standardTypes ++ Vocabulary.mysqlTypes
      on := p.switches.contains
      identifierQuotes := ['\x60']
      operatorChars := "*+-%<>!=&|^/".toList
      variableChars := ['@', '?'] }
  | postgresql =>
    { keywords := Vocabulary.standardKeywords ++ Vocabulary.postgresqlKeywords
      typeNames := Vocabulary.standardTypes ++ Vocabulary.postgresqlTypes
      on := p.switches.contains
      identifierQuotes := ['"']
      operatorChars := "+-*/<>=~!@#%^&|?".toList
      variableChars := ['$'] }
  | bigquery =>
    { keywords := Vocabulary.standardKeywords ++ Vocabulary.bigqueryKeywords
      typeNames := Vocabulary.standardTypes ++ Vocabulary.bigqueryTypes
      on := p.switches.contains
      identifierQuotes := ['\x60']
      operatorChars := "*+-%<>!=&|~^/".toList
      variableChars := ['@', '?'] }

end Preset

end SqlTemplate
