import SqlTemplate.Dialect.Draft

/-!
# The registry

Dialects registered under names of their own.  Names are compared without
regard to ASCII case, and a built-in dialect always keeps its names.
-/

namespace SqlTemplate

structure Registry where
  entries : List (String × Dialect)

namespace Registry

def empty : Registry := ⟨[]⟩

/-- The form of a name under which a dialect is kept. -/
def key (name : String) : String := name.toLower

/-- The dialect registered under a name. -/
def find? (r : Registry) (name : String) : Option Dialect := r.entries.lookup (key name)

/-- The dialect with a name: a built-in one, or else a registered one. -/
def get? (r : Registry) (name : String) : Option NamedDialect :=
  match Preset.ofName? name with
  | some p => some p.named
  | none => (r.find? name).map fun rules => ⟨name, none, rules⟩

/-- Builds a draft and registers it under its name. -/
def register (r : Registry) (draft : Draft) : Except DialectError Registry :=
  if (Preset.ofName? draft.name).isSome then .error (.alreadyExists draft.name)
  else
    match draft.build with
    | .error e => .error e
    | .ok built =>
      if (r.find? draft.name).isSome then .error (.alreadyExists draft.name)
      else .ok ⟨(key draft.name, built.rules) :: r.entries⟩

/-- Removes the dialect registered under a name, and tells whether there was
one. -/
def unregister (r : Registry) (name : String) : Bool × Registry :=
  ((r.find? name).isSome, ⟨r.entries.filter (·.1 != key name)⟩)

/-- Scans a text by the dialect with a name. -/
def tokenize (r : Registry) (name : String) (source : List Char) :
    Except DialectError (List Token) :=
  match r.get? name with
  | some dialect => .ok (dialect.rules.tokenize source)
  | none => .error (.unknown name)

end Registry

/-- The built-in dialect with a name. -/
def Preset.parse (name : String) : Except DialectError Preset :=
  match Preset.ofName? name with
  | some p => .ok p
  | none => .error (.unknown name)

end SqlTemplate
