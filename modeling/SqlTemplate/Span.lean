import SqlTemplate.Text.Bytes

/-!
# Positions and spans

A position is found by walking over the text before it: `Position.advance`
counts bytes, lines and the characters of the current line.  A span is where a
piece of text sits: its two byte offsets and the line and column of its first
character.
-/

namespace SqlTemplate

/-- A place in a source text: the bytes before it, and its line and column,
both counted from one. -/
structure Position where
  offset : Nat
  line : Nat
  column : Nat
deriving DecidableEq, Repr

namespace Position

/-- The start of every source text. -/
def start : Position := ⟨0, 1, 1⟩

/-- The position after one more character. -/
def step (p : Position) (c : Char) : Position :=
  if c = '\n' then ⟨p.offset + c.utf8Size, p.line + 1, 1⟩
  else ⟨p.offset + c.utf8Size, p.line, p.column + 1⟩

/-- The position after a text. -/
def advance (p : Position) (text : List Char) : Position := text.foldl step p

@[simp] theorem advance_nil (p : Position) : p.advance [] = p := rfl

@[simp] theorem advance_cons (p : Position) (c : Char) (text : List Char) :
    p.advance (c :: text) = (p.step c).advance text := rfl

@[simp] theorem advance_append (p : Position) (s t : List Char) :
    p.advance (s ++ t) = (p.advance s).advance t :=
  List.foldl_append

@[simp] theorem step_offset (p : Position) (c : Char) :
    (p.step c).offset = p.offset + c.utf8Size := by
  unfold step
  split <;> rfl

@[simp] theorem advance_offset (p : Position) (text : List Char) :
    (p.advance text).offset = p.offset + Text.byteLength text := by
  induction text generalizing p with
  | nil => simp
  | cons c text ih => rw [advance_cons, ih, step_offset, Text.byteLength_cons, Nat.add_assoc]

end Position

/-- A stretch of source text. -/
structure Span where
  start : Nat
  /-- The offset just after the stretch. -/
  stop : Nat
  line : Nat
  column : Nat
deriving DecidableEq, Repr

namespace Span

/-- The span of a text that begins at a position. -/
def ofText (p : Position) (text : List Char) : Span :=
  ⟨p.offset, p.offset + Text.byteLength text, p.line, p.column⟩

/-- Length in bytes; a span that stops before its start has none. -/
def length? (s : Span) : Option Nat :=
  if s.stop < s.start then none else some (s.stop - s.start)

def isEmpty (s : Span) : Bool := s.start == s.stop

end Span

end SqlTemplate
