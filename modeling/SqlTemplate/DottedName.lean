import SqlTemplate.Token

/-!
# Dotted names

A dotted name is a run of tokens in which parts and dots alternate, with a part
at both ends and at least one dot.
-/

namespace SqlTemplate

/-- A range of indices into a list of tokens, the end excluded. -/
structure IndexRange where
  start : Nat
  stop : Nat
deriving DecidableEq, Repr

/-- Number of indices; a range that stops before its start has none. -/
def IndexRange.length (r : IndexRange) : Nat := r.stop - r.start

/-- A dotted name: which tokens it is made of, and where it stands. -/
structure DottedName where
  tokens : IndexRange
  span : Span
deriving DecidableEq, Repr

namespace DottedName

/-- Every other element, the first one included. -/
def everyOther {α : Type} : List α → List α
  | [] => []
  | [x] => [x]
  | x :: _ :: rest => x :: everyOther rest

/-- The tokens of the name without its dots. -/
def parts (n : DottedName) (tokens : List Token) : List Token :=
  everyOther ((tokens.drop n.tokens.start).take n.tokens.length)

def partCount (n : DottedName) : Nat := (n.tokens.length + 1) / 2

/-- Number of tokens at the head of a list that continue a name: dots, each with
a part after it. -/
def tailLength : List Token → Nat
  | dot :: part :: rest =>
    if dot.kind = .dot ∧ part.kind.isNamePart = true then tailLength rest + 2 else 0
  | _ => 0

theorem tailLength_le (tokens : List Token) : tailLength tokens ≤ tokens.length := by
  fun_induction tailLength tokens with
  | case1 dot part rest _ ih =>
    rw [List.length_cons, List.length_cons]
    omega
  | case2 => omega
  | case3 => omega

/-- The span from the start of one token to the end of another. -/
def cover (first last : Token) : Span :=
  ⟨first.span.start, last.span.stop, first.span.line, first.span.column⟩

/-- The dotted names of a list of tokens whose first one has the given index. -/
def findFrom (index : Nat) (tokens : List Token) : List DottedName :=
  match tokens with
  | [] => []
  | t :: rest =>
    let tail := tailLength rest
    if t.kind.isNamePart = true ∧ 0 < tail then
      ⟨⟨index, index + 1 + tail⟩, cover t ((rest.take tail).getLastD t)⟩
        :: findFrom (index + 1 + tail) (rest.drop tail)
    else findFrom (index + 1) rest
termination_by tokens.length
decreasing_by
  · simp only [List.length_drop, List.length_cons]
    omega
  · simp

/-- The dotted names of a list of tokens, from left to right. -/
def find (tokens : List Token) : List DottedName := findFrom 0 tokens

end DottedName

end SqlTemplate
