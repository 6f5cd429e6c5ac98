import SqlTemplate.Lexeme.Scan

/-!
# The scanner

A source text is scanned in one pass over two vectors, the tokens and the
diagnostics found so far.  What is wrong with a lexeme when it is read adds an
error token and its diagnostic (`addError`).  What turns out to be wrong later
makes an error of a token that is there already (`demote`), at three moments:

* a second placeholder of a quoted region, once it has been read,
* the opening quote of a region that is still open when the text ends,
* every dot that does not join two parts of a name, after the last token.

A late diagnostic comes behind those of the tokens that follow, so the
diagnostics are sorted in the end (`Diagnostic.sortByStart`).
-/

namespace SqlTemplate

/-- Where a scanner stands. -/
inductive ScanMode where
  | outside
  /-- In the quoted region that the token at `opener` opens, after `count`
  placeholders. -/
  | inside (opener count : Nat)
deriving DecidableEq, Repr

structure Scanner where
  tokens : Array Token
  /-- In the order in which they were found. -/
  diagnostics : Array Diagnostic
  mode : ScanMode
  /-- Where the text begins that is still to be read. -/
  position : Position
deriving DecidableEq, Repr

namespace Scanner

def start : Scanner := ⟨#[], #[], .outside, .start⟩

/-- The kind of the last token. -/
def previousKind (s : Scanner) : Option TokenKind := s.tokens.back?.map (·.kind)

def addToken (s : Scanner) (kind : TokenKind) (span : Span) : Scanner :=
  { s with tokens := s.tokens.push ⟨kind, span⟩ }

/-- Adds an error token and the diagnostic that explains it. -/
def addError (s : Scanner) (fault : Fault) (span : Span) : Scanner :=
  { s with
    tokens := s.tokens.push ⟨.error, span⟩
    diagnostics := s.diagnostics.push ⟨fault, span⟩ }

/-- Makes an error of the token at `i`, and adds the diagnostic that explains
it. -/
def demote (s : Scanner) (i : Nat) (fault : Fault) : Scanner :=
  match s.tokens[i]? with
  | none => s
  | some t =>
    { s with
      tokens := s.tokens.setIfInBounds i ⟨.error, t.span⟩
      diagnostics := s.diagnostics.push ⟨fault, t.span⟩ }

/-- Adds what a match takes from the head of a text, and moves behind it. -/
def take (s : Scanner) (m : Match) (text : List Char) : Scanner :=
  let taken := text.take m.length
  let span := Span.ofText s.position taken
  let moved := { s with position := s.position.advance taken }
  match m.verdict with
  | .accept kind => moved.addToken kind span
  | .reject fault => moved.addError fault span

/-! ### One step -/

/-- What stands at the head of a text. -/
def next (d : Dialect) (s : Scanner) (text : List Char) : Match :=
  match s.mode with
  | .outside => Lexeme.next d s.previousKind text
  | .inside _ count => Region.piece d count text

/-- Takes a match outside quoted regions.  The quote that opens a region leads
into it. -/
def stepOutside (s : Scanner) (m : Match) (text : List Char) : Scanner :=
  let taken := s.take m text
  if m.verdict = .accept .regionQuote then
    { taken with mode := .inside (taken.tokens.size - 1) 0 }
  else taken

/-- Takes a match inside a quoted region.  A placeholder after the first one is
taken and demoted; one that is rejected counts like the others. -/
def stepInside (s : Scanner) (opener count : Nat) (m : Match) (text : List Char) : Scanner :=
  let taken := s.take m text
  if Placeholder.startsOpen text then
    let judged :=
      if m.kind = .placeholder ∧ 0 < count then
        taken.demote (taken.tokens.size - 1) .secondPlaceholder
      else taken
    { judged with mode := .inside opener (count + 1) }
  else if m.verdict = .accept .regionQuote then { taken with mode := .outside }
  else taken

def step (s : Scanner) (m : Match) (text : List Char) : Scanner :=
  match s.mode with
  | .outside => s.stepOutside m text
  | .inside opener count => s.stepInside opener count m text

theorem next_pos (d : Dialect) (s : Scanner) (c : Char) (rest : List Char) :
    0 < (s.next d (c :: rest)).length := by
  unfold next
  split
  · exact Lexeme.next_pos d _ _
  · exact Region.piece_pos d _ c rest

/-! ### The whole text -/

/-- Reads the rest of a text. -/
def run (d : Dialect) (s : Scanner) (text : List Char) : Scanner :=
  match text with
  | [] => s
  | c :: rest =>
    let m := s.next d (c :: rest)
    run d (s.step m (c :: rest)) ((c :: rest).drop m.length)
termination_by text.length
decreasing_by
  have := next_pos d s c rest
  simp only [List.length_drop, List.length_cons]
  omega

/-- Rejects the opening quote of a region that is still open. -/
def closeRegion (s : Scanner) : Scanner :=
  match s.mode with
  | .outside => s
  | .inside opener _ => s.demote opener .unterminatedRegion

/-- Whether the tokens on both sides of the one at `i` are parts of a name. -/
def joins (s : Scanner) (i : Nat) : Bool :=
  0 < i && s.tokens[i - 1]?.any (·.kind.isNamePart) && s.tokens[i + 1]?.any (·.kind.isNamePart)

/-- Rejects the token at `i` if it is a dot that joins nothing. -/
def settleDot (s : Scanner) (i : Nat) : Scanner :=
  if s.tokens[i]?.any (·.kind = .dot) ∧ s.joins i = false then s.demote i .strayDot else s

/-- Rejects every dot that joins nothing, from the first to the last. -/
def settleDots (s : Scanner) : Scanner := (List.range s.tokens.size).foldl settleDot s

/-- What the scanner has recorded at the end of a source text. -/
def ofText (d : Dialect) (source : List Char) : Scanner :=
  (start.run d source).closeRegion.settleDots

end Scanner

end SqlTemplate
