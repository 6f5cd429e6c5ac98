import Mathlib.Order.Bounds.Basic
import SqlTemplate.Proofs.NestedComments
import SqlTemplate.Proofs.PlaceholderGrammar
import SqlTemplate.Proofs.Recovery

/-!
# Dollar quotes

A dollar quote stands between two copies of its delimiter, a tag between dollars.  The delimiter
may overlap itself and the body may end with a part of it, so what is said here is said of the
prefixes of a text and not of its body:

* `Literal.IsTag` and `Literal.delimiter`: the empty tag and words, and the delimiters with them.
* `Literal.EnclosedAt`: a prefix that starts and ends with a delimiter, the two apart.
* `Literal.tagLength?_eq_some_iff`: reading a tag finds exactly the delimiter at the head.
* `Literal.dollar_delimiter`: the shortest enclosed prefix is the string.
* `Literal.isLeast_enclosedAt`: which prefix that is, if no copy of the delimiter ends before the
  last one.

The main statement is `Literal.match?_dollarQuote`.
-/

namespace SqlTemplate.Literal

/-- What may stand between the dollars of a delimiter. -/
def IsTag (tag : List Char) : Prop := tag = [] ∨ Text.isWord tag = true

/-- A tag between dollars. -/
def delimiter (tag : List Char) : List Char := '$' :: (tag ++ ['$'])

/-- The first `n` characters of the text start with the delimiter and end with another copy
of it. -/
structure EnclosedAt (mark text : List Char) (n : Nat) : Prop where
  le_length : n ≤ text.length
  two_mul_le : 2 * mark.length ≤ n
  starts : mark <+: text.take n
  ends : mark <:+ text.take n

variable {tag mark text rest : List Char} {n : Nat}

/-! ### Tags -/

theorem length_delimiter (tag : List Char) : (delimiter tag).length = tag.length + 2 := by
  simp [delimiter]

theorem delimiter_append (tag rest : List Char) :
    delimiter tag ++ rest = '$' :: (tag ++ '$' :: rest) := by
  simp [delimiter]

theorem tagLength?_of_isTag (h : IsTag tag) (rest : List Char) :
    tagLength? (tag ++ '$' :: rest) = some tag.length := by
  rcases h with rfl | hWord
  · rfl
  · have hRun : Text.wordRun (tag ++ '$' :: rest) = tag.length :=
      congrArg List.length (Text.takeWhile_run (Placeholder.isWordChar_of_isWord hWord)
        (show Text.isWordChar '$' = false by decide))
    have hStart := Placeholder.startsWord_of_isWord hWord ('$' :: rest)
    cases tag with
    | nil => cases hWord
    | cons a tag =>
      have ha : a ≠ '$' := by
        rintro rfl
        revert hStart
        rw [List.cons_append, Text.startsWord]
        decide
      rw [List.cons_append] at hRun hStart ⊢
      rw [tagLength?_cons ha, hRun, ← List.cons_append, List.drop_left, List.head?_cons, if_pos]
      simpa [Text.startsWord] using hStart

theorem exists_isTag_of_tagLength? (h : tagLength? text = some n) :
    ∃ tag rest, IsTag tag ∧ text = tag ++ '$' :: rest ∧ n = tag.length := by
  unfold tagLength? at h
  split at h
  · next rest =>
    cases h
    exact ⟨[], rest, Or.inl rfl, rfl, rfl⟩
  · rw [Option.ite_none_right_eq_some, Bool.and_eq_true, beq_iff_eq, Option.some.injEq] at h
    obtain ⟨⟨hStart, hDollar⟩, rfl⟩ := h
    obtain ⟨rest, hRest⟩ := List.head?_eq_some_iff.1 hDollar
    refine ⟨text.takeWhile Text.isWordChar, rest, Or.inr (Placeholder.isWord_takeWhile hStart),
      ?_, rfl⟩
    have hTake : text.take (Text.wordRun text) = text.takeWhile Text.isWordChar :=
      (List.prefix_iff_eq_take.1 (List.takeWhile_prefix _)).symm
    rw [← hTake, ← hRest, List.take_append_drop]

/-- **Reading a tag finds the delimiter at the head of a text**, without its first dollar. -/
theorem tagLength?_eq_some_iff :
    tagLength? text = some n ↔
      ∃ tag rest, IsTag tag ∧ text = tag ++ '$' :: rest ∧ n = tag.length := by
  refine ⟨exists_isTag_of_tagLength?, ?_⟩
  rintro ⟨tag, rest, hTag, rfl, rfl⟩
  exact tagLength?_of_isTag hTag rest

/-! ### Enclosed prefixes -/

/-- After its first copy, another copy of the delimiter ends what is enclosed. -/
theorem enclosedAt_append_iff :
    EnclosedAt mark (mark ++ rest) n ↔
      ∃ body after, rest = body ++ (mark ++ after) ∧ n = (mark ++ (body ++ mark)).length := by
  constructor
  · rintro ⟨hLe, hTwo, hStarts, before, hBefore⟩
    have hLength : n = before.length + mark.length := by
      rw [← List.length_append, hBefore, List.length_take, Nat.min_eq_left hLe]
    -- the first copy does not reach into the last one
    have hFirst : mark <+: before := by
      rw [← hBefore] at hStarts
      exact List.prefix_of_prefix_length_le hStarts (List.prefix_append _ _) (by omega)
    obtain ⟨body, rfl⟩ := hFirst
    refine ⟨body, (mark ++ rest).drop n, ?_, ?_⟩
    · have hText := List.take_append_drop n (mark ++ rest)
      rw [← hBefore, List.append_assoc, List.append_assoc] at hText
      exact (List.append_cancel_left hText).symm
    · rw [hLength]
      simp only [List.length_append]
      omega
  · rintro ⟨body, after, rfl, rfl⟩
    have hText : mark ++ (body ++ (mark ++ after)) = mark ++ (body ++ mark) ++ after := by
      simp only [List.append_assoc]
    have hTake : (mark ++ (body ++ (mark ++ after))).take
        (mark ++ (body ++ mark)).length = mark ++ (body ++ mark) := by
      rw [hText, List.take_left]
    refine ⟨?_, ?_, ?_, ?_⟩
    · rw [hText]
      exact (List.prefix_append _ after).length_le
    · simp only [List.length_append]
      omega
    · rw [hTake]
      exact List.prefix_append _ _
    · rw [hTake, ← List.append_assoc]
      exact List.suffix_append _ _

/-- **A dollar quote is the shortest enclosed prefix**, or all of the text if none is
enclosed. -/
theorem dollar_delimiter (mark rest : List Char) :
    (∃ n, IsLeast {n | EnclosedAt mark (mark ++ rest) n} n ∧
        dollar mark.length (mark ++ rest) = .accept .string n) ∨
      ((∀ n, ¬EnclosedAt mark (mark ++ rest) n) ∧
        dollar mark.length (mark ++ rest) =
          .reject .unterminatedDollarString (mark ++ rest).length) := by
  rw [dollar, List.take_left, List.drop_left]
  cases hFound : Text.indexOf? mark rest with
  | none =>
    refine Or.inr ⟨?_, rfl⟩
    intro n hEnclosed
    obtain ⟨body, after, rfl, -⟩ := enclosedAt_append_iff.1 hEnclosed
    exact Text.not_infix_of_indexOf? hFound ⟨body, after, List.append_assoc _ _ _⟩
  | some k =>
    obtain ⟨⟨after, hAfter⟩, hFirst⟩ := Text.occurs_of_indexOf? hFound
    have hBound := Text.indexOf?_le hFound
    refine Or.inl ⟨_, ⟨?_, ?_⟩, rfl⟩
    · refine enclosedAt_append_iff.2 ⟨rest.take k, after, ?_, ?_⟩
      · rw [hAfter, List.take_append_drop]
      · simp only [List.length_append, List.length_take]
        omega
    · intro m hEnclosed
      obtain ⟨body, other, hRest, rfl⟩ := enclosedAt_append_iff.1 hEnclosed
      have hBody := hFirst body other hRest
      simp only [List.length_append]
      omega

/-- **A body is passed over** if no copy of the delimiter starts in it, also none that reaches
into the delimiter behind it. -/
theorem isLeast_enclosedAt {body : List Char}
    (hBody : ¬mark <:+: body ++ mark.dropLast) (after : List Char) :
    IsLeast {n | EnclosedAt mark (mark ++ (body ++ (mark ++ after))) n}
      (mark ++ (body ++ mark)).length := by
  refine ⟨enclosedAt_append_iff.2 ⟨body, after, rfl, rfl⟩, ?_⟩
  intro m hEnclosed
  obtain ⟨other, after', hRest, rfl⟩ := enclosedAt_append_iff.1 hEnclosed
  suffices hLe : body.length ≤ other.length by
    simp only [List.length_append]
    omega
  by_contra hShort
  have hNe : mark ≠ [] := by
    rintro rfl
    exact hBody List.nil_infix
  -- the earlier copy ends before the last character of the later one
  have hOther : other ++ mark <+: body ++ (mark ++ after) := by
    rw [hRest, ← List.append_assoc]
    exact List.prefix_append _ _
  have hLater : body ++ mark.dropLast <+: body ++ (mark ++ after) := by
    rw [List.prefix_append_right_inj]
    exact (List.dropLast_prefix mark).trans (List.prefix_append _ _)
  have hInside : other ++ mark <+: body ++ mark.dropLast := by
    refine List.prefix_of_prefix_length_le hOther hLater ?_
    have hPos := List.length_pos_iff.2 hNe
    simp only [List.length_append, List.length_dropLast]
    omega
  exact hBody ((List.suffix_append other mark).isInfix.trans hInside.isInfix)

/-! ### Literals at a dollar -/

variable {d : Dialect}

theorem match?_of_dollar (hQuotes : d.on .dollarQuotes = true) (rest : List Char) :
    match? d ('$' :: rest) =
      (tagLength? rest).map fun width => dollar (width + 2) ('$' :: rest) := by
  rw [match?_eq_dollar? (by decide) (by decide), dollar?, if_pos hQuotes]

theorem match?_delimiter (hQuotes : d.on .dollarQuotes = true) (hTag : IsTag tag)
    (rest : List Char) :
    match? d (delimiter tag ++ rest) =
      some (dollar (delimiter tag).length (delimiter tag ++ rest)) := by
  rw [delimiter_append, match?_of_dollar hQuotes, tagLength?_of_isTag hTag, length_delimiter]
  rfl

/-- With a delimiter at its head, a text starts with the shortest prefix it encloses. -/
theorem match?_shortest (hQuotes : d.on .dollarQuotes = true) (hTag : IsTag tag)
    (h : delimiter tag <+: text) :
    (∃ n, IsLeast {n | EnclosedAt (delimiter tag) text n} n ∧
        match? d text = some (.accept .string n)) ∨
      ((∀ n, ¬EnclosedAt (delimiter tag) text n) ∧
        match? d text = some (.reject .unterminatedDollarString text.length)) := by
  obtain ⟨rest, rfl⟩ := h
  simpa only [match?_delimiter hQuotes hTag, Option.some.injEq] using
    dollar_delimiter (delimiter tag) rest

/-- **Dollar quotes are exact and opaque.**  At a dollar there is a literal exactly if a
delimiter stands there.  It is the shortest prefix of the text that the delimiter encloses, and
all of the text is an error if there is none.  So a body in which no copy of the delimiter starts
is passed over, whatever else stands in it, and the token at the head of a source has exactly
this extent. -/
theorem match?_dollarQuote (d : Dialect) (hQuotes : d.on .dollarQuotes = true) :
    (∀ rest, match? d ('$' :: rest) = none ↔
      ∀ tag, IsTag tag → ¬delimiter tag <+: '$' :: rest) ∧
    (∀ tag text, IsTag tag → delimiter tag <+: text →
      (∃ n, IsLeast {n | EnclosedAt (delimiter tag) text n} n ∧
          match? d text = some (.accept .string n)) ∨
        ((∀ n, ¬EnclosedAt (delimiter tag) text n) ∧
          match? d text = some (.reject .unterminatedDollarString text.length))) ∧
    (∀ tag body after, IsTag tag →
      ¬delimiter tag <:+: body ++ (delimiter tag).dropLast →
      match? d (delimiter tag ++ (body ++ (delimiter tag ++ after))) =
          some (.accept .string (delimiter tag ++ (body ++ delimiter tag)).length) ∧
        (d.scan (delimiter tag ++ (body ++ (delimiter tag ++ after)))).tokens.head? =
          some ⟨.string,
            ⟨0, Text.byteLength (delimiter tag ++ (body ++ delimiter tag)), 1, 1⟩⟩) := by
  refine ⟨fun rest => ⟨?_, ?_⟩, fun tag text => match?_shortest hQuotes, ?_⟩
  · rintro hNone tag hTag ⟨after, hAfter⟩
    rw [← hAfter, match?_delimiter hQuotes hTag] at hNone
    cases hNone
  · intro hNoTag
    rw [match?_of_dollar hQuotes, Option.map_eq_none_iff, Option.eq_none_iff_forall_ne_some]
    intro n hn
    obtain ⟨tag, after, hTag, rfl, -⟩ := tagLength?_eq_some_iff.1 hn
    exact hNoTag tag hTag ⟨after, delimiter_append tag after⟩
  · intro tag body after hTag hBody
    have hLeast := isLeast_enclosedAt hBody after
    have hMatch : match? d (delimiter tag ++ (body ++ (delimiter tag ++ after))) =
        some (.accept .string (delimiter tag ++ (body ++ delimiter tag)).length) := by
      rcases match?_shortest hQuotes hTag (List.prefix_append _ _) with ⟨n, hn, hFound⟩ | ⟨hNone, -⟩
      · rw [hFound, hn.unique hLeast]
      · exact absurd hLeast.1 (hNone _)
    have hText : delimiter tag ++ (body ++ (delimiter tag ++ after)) =
        delimiter tag ++ (body ++ delimiter tag) ++ after := by
      simp only [List.append_assoc]
    refine ⟨hMatch, ?_⟩
    rw [head?_tokens (by simp [delimiter]) (by decide) (Lexeme.next_of_literal hMatch),
      hText, List.take_left]

/-- A body with a quote, another tag and a placeholder in it, which ends with a dollar. -/
theorem match?_dollarQuote_tag :
    Preset.postgresql.rules.on .dollarQuotes = true ∧
      Literal.match? Preset.postgresql.rules "$é$it's $$ \x7b\x7b a$$é$ b".toList =
        some (.accept .string 19) := by
  have hQuotes : Preset.postgresql.rules.on .dollarQuotes = true := by decide +kernel
  have hTag : IsTag ['é'] := Or.inr (by decide +kernel)
  have hBody := ((match?_dollarQuote Preset.postgresql.rules hQuotes).2.2 ['é']
    "it's $$ \x7b\x7b a$".toList " b".toList hTag (by decide +kernel)).1
  exact ⟨hQuotes, hBody⟩

end SqlTemplate.Literal
