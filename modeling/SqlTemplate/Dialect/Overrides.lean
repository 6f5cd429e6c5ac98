import SqlTemplate.Dialect.Basic

/-!
# Overrides

A record of overrides sets some of the fourteen options of a dialect and leaves
the rest alone.  `apply` lays it over a dialect, and `apply_onTop` says that two
records laid over one after the other are one record.
-/

namespace SqlTemplate

/-- An option whose value is a text. -/
inductive TextOption where
  | identifierQuotes
  | operatorChars
  | variableChars
  /-- A keyword table, with blanks between the words. -/
  | keywords
  /-- A type name table, with blanks between the words. -/
  | typeNames
deriving DecidableEq, Repr

def TextOption.all : List TextOption :=
  [.identifierQuotes, .operatorChars, .variableChars, .keywords, .typeNames]

/-- One of the fourteen options. -/
inductive OptionName where
  | switch (s : Switch)
  | text (t : TextOption)
deriving DecidableEq, Repr

namespace OptionName

/-- The options in the order in which they are written. -/
def all : List OptionName := Switch.all.map .switch ++ TextOption.all.map .text

/-- The key of an option and its other spellings. -/
def keys : OptionName → String × List String
  | switch .bitsAsBytes => ("treatBitsAsBytes", [])
  | switch .doubleQuotedBits => ("bitLiteralDoubleQuoteAllowed", [])
  | switch .dollarQuotes => ("dollarQuoting", ["dollarQuotingEnabled", "doubleDollarQuotedStrings"])
  | switch .backslashEscapes => ("backslashEscapes", [])
  | switch .hashComments => ("hashComments", [])
  | switch .slashComments => ("slashComments", [])
  | switch .spaceAfterDashes => ("spaceAfterDashes", [])
  | switch .doubleQuotedStrings => ("doubleQuotedStrings", [])
  | switch .charsetStrings => ("charSetCasts", [])
  | text .identifierQuotes => ("identifierQuotes", [])
  | text .operatorChars => ("operatorChars", [])
  | text .variableChars => ("specialVar", [])
  | text .keywords => ("keywords", [])
  | text .typeNames => ("types", [])

/-- The key under which the option is written. -/
def key (o : OptionName) : String := o.keys.1

/-- Every key under which the option is read. -/
def spellings (o : OptionName) : List String := o.keys.1 :: o.keys.2

/-- The option that a key names. -/
def ofKey? (k : String) : Option OptionName := all.find? (·.spellings.contains k)

end OptionName

/-- Values for some of the options. -/
structure Overrides where
  switch? : Switch → Option Bool
  text? : TextOption → Option String

namespace Overrides

/-- Sets nothing. -/
def empty : Overrides := ⟨fun _ => none, fun _ => none⟩

def setSwitch (o : Overrides) (s : Switch) (value : Bool) : Overrides :=
  { o with switch? := fun t => if t = s then some value else o.switch? t }

def setText (o : Overrides) (t : TextOption) (value : String) : Overrides :=
  { o with text? := fun u => if u = t then some value else o.text? u }

@[ext] theorem ext {o p : Overrides} (hSwitch : ∀ s, o.switch? s = p.switch? s)
    (hText : ∀ t, o.text? t = p.text? t) : o = p := by
  cases o
  cases p
  simp only [mk.injEq]
  exact ⟨funext hSwitch, funext hText⟩

/-- The later record where it sets an option, and the earlier one elsewhere. -/
def onTop (later earlier : Overrides) : Overrides :=
  ⟨fun s => later.switch? s <|> earlier.switch? s, fun t => later.text? t <|> earlier.text? t⟩

/-- The characters that a text option sets, or those it leaves. -/
def chars (o : Overrides) (t : TextOption) (current : List Char) : List Char :=
  match o.text? t with
  | some value => value.toList
  | none => current

/-- The word table that a text option sets, or the one it leaves. -/
def words (o : Overrides) (t : TextOption) (current : List Word) : List Word :=
  match o.text? t with
  | some value => Text.wordTable value.toList
  | none => current

/-- Lays the record over a dialect. -/
def apply (o : Overrides) (d : Dialect) : Dialect where
  keywords := o.words .keywords d.keywords
  typeNames := o.words .typeNames d.typeNames
  on s := (o.switch? s).getD (d.on s)
  identifierQuotes := o.chars .identifierQuotes d.identifierQuotes
  operatorChars := o.chars .operatorChars d.operatorChars
  variableChars := o.chars .variableChars d.variableChars

theorem chars_onTop (later earlier : Overrides) (t : TextOption) (current : List Char) :
    (later.onTop earlier).chars t current = later.chars t (earlier.chars t current) := by
  cases h : later.text? t <;> simp [chars, onTop, h]

theorem words_onTop (later earlier : Overrides) (t : TextOption) (current : List Word) :
    (later.onTop earlier).words t current = later.words t (earlier.words t current) := by
  cases h : later.text? t <;> simp [words, onTop, h]

theorem apply_onTop (later earlier : Overrides) (d : Dialect) :
    (later.onTop earlier).apply d = later.apply (earlier.apply d) := by
  simp only [apply, chars_onTop, words_onTop, Dialect.mk.injEq, true_and, and_true]
  funext s
  cases h : later.switch? s <;> simp [onTop, h]

end Overrides

end SqlTemplate
