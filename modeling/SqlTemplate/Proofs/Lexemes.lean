import SqlTemplate.TokenStream

/-!
# The lexemes of a text

What the scanner records step by step, and partly takes back later, is said here
of the text alone.  `lexemes` reads a text into lexemes with their final
verdicts, but for the dots: whether a dot joins two parts of a name depends on
the lexeme after it, so `settleDots` decides it once all lexemes are known.
Nothing of the text is lost (`text_lexemes`).  Placed in the text, a lexeme gives
one token, and one diagnostic if it is rejected (`TokenStream.ofLexemes`).

That the scanner comes to the same tokens and the same diagnostics is shown in
`SqlTemplate.Proofs.Recording`.
-/

namespace SqlTemplate

namespace Region

/-- What a region makes of a placeholder after `count` others: only the first one
is accepted. -/
def judged (count : Nat) (m : Match) : Match :=
  if m.kind == .placeholder && 0 < count then .reject .secondPlaceholder m.length else m

@[simp] theorem judged_length (count : Nat) (m : Match) : (judged count m).length = m.length := by
  unfold judged
  split <;> rfl

/-- A placeholder in a region, after `count` others. -/
def placeholder? (d : Dialect) (count : Nat) : Recogniser := fun text =>
  (Placeholder.match? d text).map (judged count)

/-- The lexeme at the head of a text inside a region, after `count`
placeholders. -/
def next (d : Dialect) (count : Nat) (text : List Char) : Match :=
  (Recogniser.firstOf [Symbol.whitespace?, placeholder? d count, close? count] text).getD
    (.reject .unexpectedRegionText (contentLength (d.on .backslashEscapes) count text))

/-- The scanner reads a piece first, and judges it afterwards. -/
theorem next_eq_judged (d : Dialect) (count : Nat) (text : List Char) :
    next d count text = judged count (piece d count text) := by
  unfold next piece placeholder? Recogniser.firstOf
  simp only [List.findSome?_cons, List.findSome?_nil]
  cases hSpace : Symbol.whitespace? text with
  | some m =>
    unfold Symbol.whitespace? at hSpace
    split at hSpace
    · cases hSpace
    · simp only [Option.ite_none_right_eq_some, Option.some.injEq] at hSpace
      obtain ⟨_, rfl⟩ := hSpace
      rfl
  | none =>
    cases Placeholder.match? d text with
    | some m => rfl
    | none =>
      cases hClose : close? count text with
      | some m =>
        unfold close? at hClose
        split at hClose
        · simp only [Option.ite_none_left_eq_some, Option.some.injEq] at hClose
          obtain ⟨_, rfl⟩ := hClose
          rfl
        · cases hClose
      | none => rfl

theorem next_eq_piece {d : Dialect} {count : Nat} {text : List Char}
    (h : Placeholder.startsOpen text = false) : next d count text = piece d count text := by
  have hMatch : Placeholder.match? d text = none := by simp [Placeholder.match?, h]
  simp only [next, piece, Recogniser.firstOf, placeholder?, List.findSome?_cons, hMatch,
    Option.map_none]

theorem next_length (d : Dialect) (count : Nat) (text : List Char) :
    (next d count text).length = (piece d count text).length := by
  rw [next_eq_judged, judged_length]

theorem next_pos (d : Dialect) (count : Nat) (c : Char) (rest : List Char) :
    0 < (next d count (c :: rest)).length := by
  rw [next_length]
  exact piece_pos d count c rest

end Region

/-- A quoted region, read from just after its opening quote: its lexemes, with
the closing quote, and the text after it.  A region that is never closed has
nothing after it. -/
structure Region where
  lexemes : List Lexeme
  after : Option (List Char)

namespace Region

/-- The region at the head of a text, after `count` placeholders. -/
def scan (d : Dialect) (count : Nat) (text : List Char) : Region :=
  match text with
  | [] => ⟨[], none⟩
  | c :: rest =>
    let m := next d count (c :: rest)
    let remaining := (c :: rest).drop m.length
    if m.verdict = .accept .regionQuote then ⟨[m.lexeme (c :: rest)], some remaining⟩
    else
      let region :=
        scan d (if Placeholder.startsOpen (c :: rest) then count + 1 else count) remaining
      ⟨m.lexeme (c :: rest) :: region.lexemes, region.after⟩
termination_by text.length
decreasing_by
  have := next_pos d count c rest
  simp only [List.length_drop, List.length_cons]
  omega

theorem length_after_lt {d : Dialect} {count : Nat} {text after : List Char}
    (h : (scan d count text).after = some after) : after.length < text.length := by
  fun_induction scan d count text with
  | case1 => simp at h
  | case2 count c rest m remaining hClose =>
    simp only [Option.some.injEq] at h
    subst h
    have := next_pos d count c rest
    simp only [remaining, m, List.length_drop, List.length_cons]
    omega
  | case3 count c rest m remaining hClose region ih =>
    have hRest := ih h
    simp only [remaining, List.length_drop, List.length_cons] at hRest ⊢
    omega

/-- The lexemes of a region and the text after it, laid end to end, are the
text. -/
theorem text_lexemes (d : Dialect) (count : Nat) (text : List Char) :
    (scan d count text).lexemes.flatMap Lexeme.text ++ (scan d count text).after.getD [] =
      text := by
  fun_induction scan d count text with
  | case1 => rfl
  | case2 count c rest m remaining hClose =>
    simpa using m.lexeme_text_append (c :: rest)
  | case3 count c rest m remaining hClose region ih =>
    rw [List.flatMap_cons, List.append_assoc]
    exact (congrArg _ ih).trans (m.lexeme_text_append (c :: rest))

end Region

/-- The lexemes of a text, where `before` is the kind of the token before it.
If a quoted region is never closed, its opening quote is rejected. -/
def lexemes (d : Dialect) (before : Option TokenKind) (text : List Char) : List Lexeme :=
  match text with
  | [] => []
  | c :: rest =>
    let m := Lexeme.next d before (c :: rest)
    let remaining := (c :: rest).drop m.length
    if m.verdict = .accept .regionQuote then
      let region := Region.scan d 0 remaining
      match _h : region.after with
      | none => ⟨(c :: rest).take m.length, .reject .unterminatedRegion⟩ :: region.lexemes
      | some after =>
        m.lexeme (c :: rest) :: (region.lexemes ++ lexemes d (some .regionQuote) after)
    else m.lexeme (c :: rest) :: lexemes d (some m.kind) remaining
termination_by text.length
decreasing_by
  · have hRegion := Region.length_after_lt _h
    simp only [remaining, List.length_drop, List.length_cons] at hRegion ⊢
    omega
  · have := Lexeme.next_pos d before (c :: rest)
    simp only [List.length_drop, List.length_cons]
    omega

/-- The lexemes of a text, laid end to end, are the text. -/
theorem text_lexemes (d : Dialect) (before : Option TokenKind) (text : List Char) :
    (lexemes d before text).flatMap Lexeme.text = text := by
  fun_induction lexemes d before text with
  | case1 => rfl
  | case2 before c rest m remaining _ region hOpen =>
    have hRegion := Region.text_lexemes d 0 remaining
    rw [hOpen] at hRegion
    rw [List.flatMap_cons, ← List.append_nil (region.lexemes.flatMap _)]
    exact (congrArg _ hRegion).trans (m.lexeme_text_append _)
  | case3 before c rest m remaining _ region after hClosed ih =>
    have hRegion := Region.text_lexemes d 0 remaining
    rw [hClosed] at hRegion
    rw [List.flatMap_cons, List.flatMap_append, ih]
    exact (congrArg _ hRegion).trans (m.lexeme_text_append _)
  | case4 before c rest m remaining _ ih =>
    rw [List.flatMap_cons, ih]
    exact m.lexeme_text_append _

namespace Lexeme

/-- The lexeme as it is decided, given whether it stands between two parts of a name. -/
def settled (between : Bool) (x : Lexeme) : Lexeme :=
  if x.kind = .dot ∧ between = false then { x with verdict := .reject .strayDot } else x

/-- Nothing is changed but a dot that joins nothing, and that dot was accepted: an error
is no dot. -/
theorem settled_cases (between : Bool) (x : Lexeme) :
    x.settled between = x ∨
      ∃ text, x = ⟨text, .accept .dot⟩ ∧ between = false ∧
        x.settled between = ⟨text, .reject .strayDot⟩ := by
  by_cases hStray : x.kind = .dot ∧ between = false
  · obtain ⟨text, verdict⟩ := x
    obtain rfl : verdict = .accept .dot := (Verdict.kind_eq_iff (by decide)).1 hStray.1
    exact .inr ⟨text, rfl, hStray.2, if_pos hStray⟩
  · exact .inl (if_neg hStray)

variable {between : Bool} {x : Lexeme}

theorem settled_of_ne_dot (h : x.kind ≠ .dot) : x.settled between = x :=
  if_neg fun hStray => h hStray.1

theorem settled_eq_self (h : (x.settled between).kind ≠ .error) : x.settled between = x := by
  rcases x.settled_cases between with hSelf | ⟨text, -, -, hStray⟩
  · exact hSelf
  · rw [hStray] at h
    exact absurd rfl h

@[simp] theorem settled_text (between : Bool) (x : Lexeme) :
    (x.settled between).text = x.text := by
  unfold settled
  split <;> rfl

theorem settled_isNamePart (between : Bool) (x : Lexeme) :
    (x.settled between).kind.isNamePart = x.kind.isNamePart := by
  rcases x.settled_cases between with hSelf | ⟨text, rfl, -, hStray⟩
  · rw [hSelf]
  · rw [hStray]
    rfl

/-- A dot that is left stands between two parts of a name. -/
theorem between_of_settled_dot (h : (x.settled between).kind = .dot) : between = true := by
  rw [← Bool.not_eq_false]
  intro hStray
  by_cases hKind : x.kind = .dot
  · rw [settled, if_pos ⟨hKind, hStray⟩] at h
    cases h
  · rw [settled_of_ne_dot hKind] at h
    exact hKind h

end Lexeme

/-- Rejects every dot that does not stand between two parts of a name; `before`
is the kind of the lexeme before the list. -/
def settleDots (before : Option TokenKind) : List Lexeme → List Lexeme
  | [] => []
  | x :: rest =>
    x.settled (before.any (·.isNamePart) && rest.head?.any (·.kind.isNamePart))
      :: settleDots (some x.kind) rest

/-- The span of each lexeme, where `p` is the position of the first one. -/
def placed (p : Position) : List Lexeme → List (Span × Verdict)
  | [] => []
  | x :: rest => (Span.ofText p x.text, x.verdict) :: placed (p.advance x.text) rest

namespace TokenStream

def token (entry : Span × Verdict) : Token := ⟨entry.2.kind, entry.1⟩

def diagnostic? : Span × Verdict → Option Diagnostic
  | (_, .accept _) => none
  | (span, .reject fault) => some ⟨fault, span⟩

/-- The stream of a text with these lexemes. -/
def ofLexemes (xs : List Lexeme) : TokenStream :=
  let entries := placed .start xs
  ⟨entries.map token, entries.filterMap diagnostic?⟩

end TokenStream

end SqlTemplate
