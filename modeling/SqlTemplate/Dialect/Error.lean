import SqlTemplate.Dialect.Validity
import SqlTemplate.Json.Overrides

/-!
# Errors

Why a dialect cannot be made or found.
-/

namespace SqlTemplate

inductive DialectError where
  /-- The rules contradict each other. -/
  | invalid (fault : DialectFault)
  /-- The overrides cannot be read. -/
  | unreadable (fault : OverridesFault)
  /-- The name is empty or blank. -/
  | noName
  | unknown (name : String)
  | alreadyExists (name : String)
deriving DecidableEq, Repr

def DialectError.message : DialectError → String
  | invalid fault => s!"Configuration error: {fault.message}"
  | unreadable fault => s!"Configuration error: {fault.message}"
  | noName => "Configuration error: dialect name cannot be empty"
  | unknown name => s!"Unknown dialect: {name}"
  | alreadyExists name => s!"Dialect already exists: {name}"

namespace Dialect

/-- The dialect itself, if nothing is wrong with it. -/
def validate (d : Dialect) : Except DialectError Dialect :=
  match d.fault? with
  | some fault => .error (.invalid fault)
  | none => .ok d

/-- The dialect with overrides laid over it, if nothing is wrong with it then. -/
def withOverrides (d : Dialect) (o : Overrides) : Except DialectError Dialect :=
  (o.apply d).validate

theorem validate_eq_ok_iff {d e : Dialect} : d.validate = .ok e ↔ d.Valid ∧ d = e := by
  rw [validate, ← fault?_eq_none_iff]
  cases d.fault? <;> simp

end Dialect

end SqlTemplate
