import SqlTemplate.Json.Value

/-!
# Records in JSON

A record is written as an object with a member for each field.  It is read from
such an object, the members in any order, or from an array of its fields in
their own order.
-/

namespace SqlTemplate.Json.Value

/-- The value of the only member with this key. -/
def member? (members : List (String × Value)) (key : String) : Option Value :=
  match members.filter (·.1 == key) with
  | [(_, v)] => some v
  | _ => none

/-- The values of the fields of a record.  Members that are no field are
ignored. -/
def fields? (keys : List String) : Value → Option (List Value)
  | .array items => if items.length = keys.length then some items else none
  | .object members => keys.mapM (member? members)
  | _ => none

/-- Whether every member is one of the fields. -/
def hasOnly (keys : List String) : Value → Bool
  | .object members => members.all fun m => keys.contains m.1
  | _ => true

/-- A natural number of 64 bits. -/
def toNat? : Value → Option Nat
  | .number n => n.toNat?
  | _ => none

/-- The name of a constructor without arguments: a string, or the key of an
object with the single value null. -/
def constructor? : Value → Option String
  | .text s => some s
  | .object [(key, .null)] => some key
  | _ => none

def items? : Value → Option (List Value)
  | .array items => some items
  | _ => none

end SqlTemplate.Json.Value
