import SqlTemplate.Dialect.Overrides
import SqlTemplate.Json.Value
import SqlTemplate.Text.Escape

/-!
# Overrides in JSON

A record of overrides is written as an object that has a member for each option
it sets.  It is read from the left, symbol by symbol, and the first problem ends
the reading: an unknown key, an option that comes twice, a value of the wrong
type, or text that is not JSON.  An array of all fourteen options in their order
is read as well; in both forms `null` leaves an option unset.
-/

namespace SqlTemplate

open Json (Symbol Value)

/-- What a value is expected to be. -/
inductive Expected where
  | boolean
  | text
  | record
deriving DecidableEq, Repr

def Expected.describe : Expected → String
  | boolean => "a boolean"
  | text => "a string"
  | record => "struct DialectOptions"

/-- Why a text cannot be read as overrides. -/
inductive OverridesFault where
  /-- The text is not JSON, or goes on after the record. -/
  | malformed
  | unknownKey (key : String)
  | repeated (name : OptionName)
  /-- A value is described by `found` and should have been something else. -/
  | wrongType (found : String) (expected : Expected)
  /-- An array with too few items. -/
  | tooShort (length : Nat)
deriving DecidableEq, Repr

/-- A text between backquotes. -/
def backquoted (s : String) : String := s!"`{s}`"

/-- What is wrong, but not where: the line and the column of the JSON text at which
reading stopped are not kept, so the message leaves out the words
` at line L column C` behind it.  All that is no JSON has the same message. -/
def OverridesFault.message : OverridesFault → String
  | malformed => "malformed JSON"
  | unknownKey key =>
    s!"unknown field `{key}`, expected one of "
      ++ ", ".intercalate ((OptionName.all.flatMap OptionName.spellings).map backquoted)
  | repeated name => s!"duplicate field `{name.key}`"
  | wrongType found expected => s!"invalid type: {found}, expected {expected.describe}"
  | tooShort length =>
    s!"invalid length {length}, expected struct DialectOptions with {OptionName.all.length} elements"

namespace Overrides

/-! ### Writing -/

/-- The value of an option, if it is set. -/
def value? (o : Overrides) : OptionName → Option Value
  | .switch s => (o.switch? s).map .bool
  | .text t => (o.text? t).map .text

def toJson (o : Overrides) : Value :=
  .object (OptionName.all.filterMap fun name => (o.value? name).map fun v => (name.key, v))

/-! ### Reading -/

/-- What a symbol that starts a value is called in a message.  A numeral that
stands for no number and a string that stands for no text have no name. -/
def describe? : Symbol → Option String
  | .null => some "null"
  | .bool b => some s!"boolean `{b}`"
  | .number n => n.describe?
  | .text s => some s!"string {Text.quoted s.toList}"
  | .openArray => some "sequence"
  | .openObject => some "map"
  | _ => none

/-- The fault of a symbol that starts no value of the expected type. -/
def mismatch (s : Symbol) (expected : Expected) : OverridesFault :=
  match describe? s with
  | some found => .wrongType found expected
  | none => .malformed

/-- Sets an option to the value that a symbol stands for. -/
def read (o : Overrides) (name : OptionName) (s : Symbol) : Except OverridesFault Overrides :=
  match name, s with
  | _, .null => .ok o
  | .switch switch, .bool b => .ok (o.setSwitch switch b)
  | .switch _, s => .error (mismatch s .boolean)
  | .text option, .text value => .ok (o.setText option value)
  | .text _, s => .error (mismatch s .text)

/-- The record, if the text ends with it. -/
def atEnd (o : Overrides) : List Symbol → Except OverridesFault Overrides
  | [] => .ok o
  | _ => .error .malformed

/-- The members of an object from a key on; `seen` are the options that have
come before. -/
def readMembers (o : Overrides) (seen : List OptionName) :
    List Symbol → Except OverridesFault Overrides
  | .text key :: symbols =>
    match OptionName.ofKey? key with
    | none => .error (.unknownKey key)
    | some name =>
      if name ∈ seen then .error (.repeated name)
      else
        match symbols with
        | .colon :: value :: rest =>
          match o.read name value with
          | .error fault => .error fault
          | .ok o =>
            match rest with
            | .comma :: rest => readMembers o (name :: seen) rest
            | .closeObject :: rest => o.atEnd rest
            | _ => .error .malformed
        | _ => .error .malformed
  | _ => .error .malformed

/-- The items of an array from the place of an item on, for the options that
remain after `count` others. -/
def readItems (o : Overrides) (count : Nat) :
    List OptionName → List Symbol → Except OverridesFault Overrides
  | name :: names, value :: rest =>
    match o.read name value with
    | .error fault => .error fault
    | .ok o =>
      match names, rest with
      | [], .closeArray :: rest => o.atEnd rest
      | _ :: _, .closeArray :: _ => .error (.tooShort (count + 1))
      | _ :: _, .comma :: rest => readItems o (count + 1) names rest
      | _, _ => .error .malformed
  | _, _ => .error .malformed

/-- The record that a list of symbols stands for. -/
def ofSymbols : List Symbol → Except OverridesFault Overrides
  | .openObject :: .closeObject :: rest => empty.atEnd rest
  | .openObject :: rest => readMembers empty [] rest
  | .openArray :: .closeArray :: _ => .error (.tooShort 0)
  | .openArray :: rest => readItems empty 0 OptionName.all rest
  | s :: _ => .error (mismatch s .record)
  | [] => .error .malformed

/-- The record that a JSON text stands for. -/
def parse (text : String) : Except OverridesFault Overrides :=
  ofSymbols (Json.symbols text.toList)

end Overrides

end SqlTemplate
