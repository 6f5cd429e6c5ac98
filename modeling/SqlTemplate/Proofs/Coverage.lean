import SqlTemplate.Proofs.Recording

/-!
# The tokens tile the source

Nothing of a source text is lost, read twice or cut in the middle of a
character.  `Tiles` says it of the tokens of a text, `CutsInside` of the cuts
that reading makes on the way, and `scan_tiles` joins them.

The tokens of any non-empty lexemes tile the text of these lexemes
(`tokensAt_tiles`); what is left to show of reading is that every lexeme takes
at least one character (`text_ne_nil_of_mem_settledLexemes`) and never more than there
are (`CutsInside`), so that no cut is moved back to the end of the text.
-/

namespace SqlTemplate

/-- Whether an offset falls between two characters of the UTF-8 form of a text,
before the first one or after the last one. -/
def Text.IsBoundary (text : List Char) (offset : Nat) : Prop :=
  String.Pos.Raw.IsValid (String.ofList text) ⟨offset⟩

/-- These tokens tile the source: they follow one another without gaps from its
first byte to its last, and each of them holds at least one character. -/
structure Tiles (source : List Char) (tokens : List Token) : Prop where
  first : ∀ t after, tokens = t :: after → t.span.start = 0
  adjacent : ∀ before t u after, tokens = before ++ t :: u :: after → u.span.start = t.span.stop
  last : ∀ before t, tokens = before ++ [t] → t.span.stop = Text.byteLength source
  nonempty : ∀ t ∈ tokens, t.span.start < t.span.stop
  boundary : ∀ t ∈ tokens,
    Text.IsBoundary source t.span.start ∧ Text.IsBoundary source t.span.stop
  texts : tokens.flatMap (Token.text source) = source
  /-- There is one token at least for a text, and one at most for a character. -/
  count : (source ≠ [] → tokens ≠ []) ∧ tokens.length ≤ source.length

/-- At the end of the source stands a text from which the first `n` characters
can be cut off: there are so many, and in the bytes of the source the cut falls
between two characters. -/
def IsCut (source text : List Char) (n : Nat) : Prop :=
  n ≤ text.length ∧
    Text.IsBoundary source
      (Text.byteLength source - Text.byteLength text + Text.byteLength (text.take n))

/-- The cuts that reading makes at the head of a text fall inside the text: the
end of the lexeme, and the places where the parts of numbers, words, variables,
literals, comments and placeholders are told apart. -/
structure CutsInside (d : Dialect) (source text : List Char) : Prop where
  lexeme : text ≠ [] → ∀ before, IsCut source text (Lexeme.next d before text).length
  regionLexeme : text ≠ [] → ∀ count, IsCut source text (Region.next d count text).length
  word : IsCut source text (Text.wordRun text)
  wholeNumber : IsCut source text (Number.digitRun text)
  mantissa : IsCut source text (Number.mantissaLength text)
  sign : IsCut source text (Number.signLength text)
  sigils : text ≠ [] → IsCut source text (Symbol.sigilLength text)
  blockComment : Comment.startsBlock text = true → IsCut source text 2
  literalBody : ∀ quote escapes n, Quoted.length? quote escapes text.tail = some n →
    2 ≤ n ∧ IsCut source text n
  charsetName : IsCut source text (text.takeWhile Char.isAlphanum).length
  dollarTag : ∀ n, Literal.tagLength? text.tail = some n → IsCut source text (n + 2)
  opener : Placeholder.startsOpen text = true → IsCut source text 2
  expressionStart : Placeholder.startsOpen text = true →
    IsCut source text (Placeholder.expressionStart text)
  expressionStop : Placeholder.startsOpen text = true → ∀ n,
    Placeholder.expression d (text.drop (Placeholder.expressionStart text)) = .ok n →
    IsCut source text (Placeholder.expressionStart text + n)
  closeStart : Placeholder.startsOpen text = true → ∀ n,
    Placeholder.expression d (text.drop (Placeholder.expressionStart text)) = .ok n →
    IsCut source text (Placeholder.closeStart text n)

/-! ### Tokens of non-empty lexemes -/

theorem Text.byteLength_eq_utf8ByteSize (text : List Char) :
    Text.byteLength text = (String.ofList text).utf8ByteSize := by
  induction text with
  | nil => rfl
  | cons c text ih => rw [Text.byteLength_cons, ih, String.ofList_cons, String.utf8ByteSize_append,
      String.utf8ByteSize_singleton]

theorem Text.length_le_byteLength (text : List Char) : text.length ≤ byteLength text := by
  induction text with
  | nil => exact Nat.le_refl 0
  | cons c text ih =>
    have hPos := c.utf8Size_pos
    rw [List.length_cons, byteLength_cons]
    omega

/-- The bytes of a beginning of a text end between two characters. -/
theorem Text.isBoundary_append (before after : List Char) :
    Text.IsBoundary (before ++ after) (Text.byteLength before) := by
  rw [Text.IsBoundary, String.Pos.Raw.isValid_ofList]
  exact ⟨before.length, by rw [List.take_left, Text.byteLength_eq_utf8ByteSize]⟩

theorem length_le_length_textOf {xs : List Lexeme} (h : ∀ x ∈ xs, x.text ≠ []) :
    xs.length ≤ (textOf xs).length := by
  induction xs with
  | nil => exact Nat.le_refl 0
  | cons x xs ih =>
    have hHead := List.length_pos_iff.2 (h x List.mem_cons_self)
    have hRest := ih fun y hy => h y (List.mem_cons_of_mem x hy)
    rw [textOf_cons, List.length_append, List.length_cons]
    omega

theorem length_tokensAt (p : Position) (xs : List Lexeme) :
    (tokensAt p xs).length = xs.length := by
  rw [tokensAt, List.length_map, length_placed]

/-- **Non-empty lexemes tile their text.** -/
theorem tokensAt_tiles {xs : List Lexeme} (h : ∀ x ∈ xs, x.text ≠ []) :
    Tiles (textOf xs) (tokensAt .start xs) where
  first := by
    intro t after hSplit
    obtain ⟨x, vs, rfl, rfl, _⟩ := tokensAt_eq_cons_iff.1 hSplit
    rfl
  adjacent := by
    intro before t u after hSplit
    obtain ⟨us, ws, rfl, _, hRest⟩ := tokensAt_eq_append_iff.1 hSplit
    obtain ⟨x, vs, rfl, rfl, hNext⟩ := tokensAt_eq_cons_iff.1 hRest
    obtain ⟨y, zs, rfl, rfl, _⟩ := tokensAt_eq_cons_iff.1 hNext
    exact Position.advance_offset _ _
  last := by
    intro before t hSplit
    obtain ⟨us, ws, rfl, _, hRest⟩ := tokensAt_eq_append_iff.1 hSplit
    obtain ⟨x, vs, rfl, rfl, hNil⟩ := tokensAt_eq_cons_iff.1 hRest
    have hvs : vs = [] := by
      have := congrArg List.length hNil
      rw [length_tokensAt] at this
      exact List.length_eq_zero_iff.1 this
    subst hvs
    rw [Span.ofText, start_advance_offset, textOf_append, textOf_cons, textOf_nil,
      List.append_nil, Text.byteLength_append]
  nonempty := by
    intro t ht
    obtain ⟨us, x, vs, rfl, rfl⟩ := mem_tokensAt ht
    have hText := h x (by simp)
    have hBytes := Nat.pos_of_ne_zero (mt Text.byteLength_eq_zero_iff.1 hText)
    exact Nat.lt_add_of_pos_right hBytes
  boundary := by
    intro t ht
    obtain ⟨us, x, vs, rfl, rfl⟩ := mem_tokensAt ht
    rw [Span.ofText, start_advance_offset, ← Text.byteLength_append, textOf_append, textOf_cons]
    refine ⟨Text.isBoundary_append _ _, ?_⟩
    rw [← List.append_assoc]
    exact Text.isBoundary_append _ _
  texts := by
    have hTexts := text_tokensAt [] xs []
    rw [Position.advance_nil, List.nil_append, List.append_nil] at hTexts
    rw [List.flatMap_def, hTexts, textOf, List.flatMap_def]
  count := by
    refine ⟨?_, ?_⟩
    · intro hSource hTokens
      have := congrArg List.length hTokens
      rw [length_tokensAt] at this
      rw [List.length_eq_zero_iff.1 this] at hSource
      exact hSource rfl
    · rw [length_tokensAt]
      exact length_le_length_textOf h

/-! ### Reading takes characters -/

/-- Deciding the dots changes no text. -/
theorem text_settleDots (before : Option TokenKind) (xs : List Lexeme) :
    (settleDots before xs).map Lexeme.text = xs.map Lexeme.text := by
  induction xs generalizing before with
  | nil => rfl
  | cons x xs ih =>
    rw [settleDots, List.map_cons, ih, Lexeme.settled_text, List.map_cons]

theorem textOf_settledLexemes (d : Dialect) (source : List Char) :
    textOf (settledLexemes d source) = source := by
  rw [settledLexemes, textOf_congr (text_settleDots none _)]
  exact text_lexemes d none source

/-- The text of a token of a source is the text of its lexeme. -/
theorem text_of_settledLexemes {d : Dialect} {source : List Char} {us vs : List Lexeme}
    {x : Lexeme} (h : settledLexemes d source = us ++ x :: vs) :
    Token.text source ⟨x.kind, Span.ofText (Position.start.advance (textOf us)) x.text⟩ =
      x.text := by
  rw [← textOf_settledLexemes d source, h, textOf_append, textOf_cons]
  exact text_ofText _ _ _ _

theorem isCut {source text : List Char} (h : text <:+ source) {n : Nat} (hn : n ≤ text.length) :
    IsCut source text n := by
  obtain ⟨before, rfl⟩ := h
  refine ⟨hn, ?_⟩
  have hBoundary := Text.isBoundary_append (before ++ text.take n) (text.drop n)
  rw [List.append_assoc, List.take_append_drop, Text.byteLength_append] at hBoundary
  rwa [Text.byteLength_append, Nat.add_sub_cancel]

theorem cutsInside (d : Dialect) {source text : List Char} (h : text <:+ source) :
    CutsInside d source text where
  lexeme := fun hText before => isCut h (Lexeme.next_le d before hText)
  regionLexeme := by
    intro hText count
    cases text with
    | nil => exact absurd rfl hText
    | cons c rest => exact isCut h (Region.next_le d count c rest)
  word := isCut h (Text.wordRun_le text)
  wholeNumber := isCut h (Number.digitRun_le text)
  mantissa := isCut h (Number.mantissaLength_le text)
  sign := isCut h (Number.signLength_le text)
  sigils := fun hText => isCut h (Symbol.sigilLength_le hText)
  blockComment := fun hBlock => isCut h (Brackets.two_le_of_startsWith hBlock)
  literalBody := by
    intro quote escapes n hn
    have hBody := Literal.body_le hn
    exact ⟨hBody.1, isCut h (by omega)⟩
  charsetName := isCut h (Text.length_takeWhile_le _ _)
  dollarTag := by
    intro n hn
    have hTag := Literal.tagLength?_lt hn
    rw [List.length_tail] at hTag
    exact isCut h (by omega)
  opener := fun hOpen => isCut h (Brackets.two_le_of_startsWith hOpen)
  expressionStart := fun hOpen =>
    isCut h (Placeholder.expressionStart_le (Brackets.two_le_of_startsWith hOpen))
  expressionStop := fun hOpen _ hn =>
    isCut h (Placeholder.expressionStop_le (Brackets.two_le_of_startsWith hOpen) hn)
  closeStart := fun hOpen _ hn =>
    isCut h (Placeholder.closeStart_le (Brackets.two_le_of_startsWith hOpen) hn)

/-- **The tokens tile the source.**  For every dialect and every text, reading
ends, the tokens follow one another from the first byte to the last, and at
every place where reading can stand each of its cuts falls inside the text and
between two characters. -/
theorem scan_tiles (d : Dialect) (source : List Char) :
    Tiles source (d.scan source).tokens ∧
      ∀ text, text <:+ source → CutsInside d source text := by
  refine ⟨?_, fun text hText => cutsInside d hText⟩
  have hTiles := tokensAt_tiles (text_ne_nil_of_mem_settledLexemes d source)
  rwa [textOf_settledLexemes, ← tokens_scan] at hTiles

end SqlTemplate
