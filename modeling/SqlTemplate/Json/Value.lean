import SqlTemplate.Json.Symbol

/-!
# JSON values

`parse?` reads a value from a text by feeding its symbols to a stack machine;
`Value.render` writes a value without blanks.
-/

namespace SqlTemplate.Json

inductive Value where
  | null
  | bool (value : Bool)
  | number (value : Numeral)
  | text (value : String)
  /-- A string that stands for no text, or an object with such a string for a
  key.  It can be passed over, but not read. -/
  | illegible
  | array (items : List Value)
  | object (members : List (String × Value))
deriving Repr

namespace Value

def ofNat (n : Nat) : Value := .number (.ofNat n)

/-- The object with these members; it is illegible if a key stands for no
text. -/
def ofMembers (members : List (Option String × Value)) : Value :=
  match members.mapM fun (key, v) => key.map (·, v) with
  | some members => .object members
  | none => .illegible

theorem ofMembers_some (members : List (String × Value)) :
    ofMembers (members.map fun m => (some m.1, m.2)) = .object members := by
  have h : (members.map fun m => (some m.1, m.2)).mapM (fun m => m.1.map (·, m.2))
      = some members := by
    induction members with
    | nil => rfl
    | cons m rest ih => simp [ih]
  simp only [ofMembers, h]

end Value

/-! ### Reading -/

/-- A container that is still open, with what has been read of it, latest
first. -/
inductive Frame where
  | array (done : List Value)
  /-- A member of the object waits for its value. -/
  | object (done : List (Option String × Value)) (key : Option String)
deriving Repr

/-- What may come next. -/
inductive Goal where
  | value
  /-- The first item of an array, or its end. -/
  | firstItem
  /-- The first key of an object, or its end. -/
  | firstKey
  /-- Another key of an object. -/
  | key (done : List (Option String × Value))
  | colon (done : List (Option String × Value)) (key : Option String)
  /-- What follows a value. -/
  | after (v : Value)
deriving Repr

/-- The value that a single symbol is. -/
def Symbol.scalar? : Symbol → Option Value
  | null => some .null
  | bool b => some (.bool b)
  | number n => some (.number n)
  | text s => some (.text s)
  | loneSurrogate => some .illegible
  | _ => none

/-- The machine after the symbol that starts a value. -/
def startValue (stack : List Frame) (s : Symbol) : Option (List Frame × Goal) :=
  match s with
  | .openArray => some (.array [] :: stack, .firstItem)
  | .openObject => some (stack, .firstKey)
  | s => s.scalar?.map fun v => (stack, .after v)

/-- The machine after a key. -/
def startMember (stack : List Frame) (done : List (Option String × Value)) (s : Symbol) :
    Option (List Frame × Goal) :=
  match s with
  | .text key => some (stack, .colon done (some key))
  | .loneSurrogate => some (stack, .colon done none)
  | _ => none

/-- The machine after the symbol that follows a value. -/
def continueFrom (stack : List Frame) (v : Value) (s : Symbol) : Option (List Frame × Goal) :=
  match stack, s with
  | .array done :: outer, .comma => some (.array (v :: done) :: outer, .value)
  | .array done :: outer, .closeArray => some (outer, .after (.array (v :: done).reverse))
  | .object done key :: outer, .comma => some (outer, .key ((key, v) :: done))
  | .object done key :: outer, .closeObject =>
    some (outer, .after (.ofMembers ((key, v) :: done).reverse))
  | _, _ => none

/-- One step of the machine. -/
def step (state : List Frame × Goal) (s : Symbol) : Option (List Frame × Goal) :=
  let (stack, goal) := state
  match goal, s, stack with
  | .value, s, stack => startValue stack s
  | .firstItem, .closeArray, _ :: outer => some (outer, .after (.array []))
  | .firstItem, s, stack => startValue stack s
  | .firstKey, .closeObject, stack => some (stack, .after (.object []))
  | .firstKey, s, stack => startMember stack [] s
  | .key done, s, stack => startMember stack done s
  | .colon done key, .colon, stack => some (.object done key :: stack, .value)
  | .colon _ _, _, _ => none
  | .after v, s, stack => continueFrom stack v s

/-- The value that has been read when no container is open. -/
def finish : List Frame × Goal → Option Value
  | ([], .after v) => some v
  | _ => none

/-- The value that a text stands for. -/
def parse? (text : List Char) : Option Value :=
  ((symbols text).foldlM step ([], .value)).bind finish

/-! ### Writing -/

def hexDigits4 (n : Nat) : List Char :=
  [n / 4096 % 16, n / 256 % 16, n / 16 % 16, n % 16].map Nat.digitChar

/-- One character of a written string. -/
def charText (c : Char) : List Char :=
  if c == '"' then ['\\', '"']
  else if c == '\\' then ['\\', '\\']
  else if c == '\x08' then ['\\', 'b']
  else if c == '\x0C' then ['\\', 'f']
  else if c == '\n' then ['\\', 'n']
  else if c == '\r' then ['\\', 'r']
  else if c == '\t' then ['\\', 't']
  else if c.toNat < 0x20 then '\\' :: 'u' :: hexDigits4 c.toNat
  else [c]

def stringText (s : String) : List Char := '"' :: s.toList.flatMap charText ++ ['"']

namespace Value

mutual

/-- The value written without blanks. -/
def render : Value → List Char
  | .null => ['n', 'u', 'l', 'l']
  | .bool true => ['t', 'r', 'u', 'e']
  | .bool false => ['f', 'a', 'l', 's', 'e']
  | .number n => n.text
  | .text s => stringText s
  | .illegible => '"' :: '\\' :: 'u' :: hexDigits4 0xD800 ++ ['"']
  | .array items => '[' :: renderItems items ++ [']']
  | .object members => '{' :: renderMembers members ++ ['}']

def renderItems : List Value → List Char
  | [] => []
  | [v] => v.render
  | v :: w :: rest => v.render ++ ',' :: renderItems (w :: rest)

def renderMembers : List (String × Value) → List Char
  | [] => []
  | [(key, v)] => stringText key ++ ':' :: v.render
  | (key, v) :: m :: rest => stringText key ++ ':' :: v.render ++ ',' :: renderMembers (m :: rest)

end

end Value

end SqlTemplate.Json
