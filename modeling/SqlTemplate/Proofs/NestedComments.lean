import SqlTemplate.Proofs.Reading

/-!
# Nested comments

Reading a block comment counts how deep it is.  The grammar says it without a count: between
an opener and its closer there are pairs of marks, each with such a text inside, and characters
at which no mark starts (`Brackets.Items`).

* `Brackets.close?_items`: the search passes over such a text at any depth, and comes out at
  the same depth.
* `Brackets.exists_items_of_close?`: what the search passes over, up to the closer of its
  depth, is such a text.
* `Brackets.exists_isPair_of_close?` and `Brackets.IsPair.close?_eq`: so it finds exactly the
  pair that starts with the opener before it.

The main statement is `scan_blockComment`.
-/

namespace SqlTemplate

namespace Brackets

variable (b : Brackets)

/-- The closer as a text. -/
def close : List Char := [b.closer.1, b.closer.2]

/-- An opener and its closer with a text between them. -/
def pair (inner : List Char) : List Char := b.opener.1 :: b.opener.2 :: (inner ++ b.close)

/-- Whether an opener or a closer starts here. -/
def startsMark (text : List Char) : Bool :=
  startsWith b.opener text || startsWith b.closer text

/-- What may stand before a closer: pairs with such a text inside, and characters at which no
mark starts. -/
inductive Items : List Char → Prop
  | nil : Items []
  | pair {inner after : List Char} : Items inner → Items after → Items (b.pair inner ++ after)
  | char {c : Char} {after : List Char} : b.startsMark (c :: (after ++ b.close)) = false →
      Items after → Items (c :: after)

/-- One whole nesting construct. -/
def IsPair (text : List Char) : Prop := ∃ inner, b.Items inner ∧ text = b.pair inner

/-- How the search goes on after a closer that it met at this depth. -/
def leave : Nat → List Char → Option Nat
  | 0, _ => some 0
  | outer + 1, rest => b.close? outer rest

variable {b}

theorem startsMark_cons_cons {c e : Char} {rest : List Char} :
    b.startsMark (c :: e :: rest) = false ↔ (c, e) ≠ b.opener ∧ (c, e) ≠ b.closer := by
  simp only [startsMark, startsWith, Bool.or_eq_false_iff, Bool.and_eq_false_imp, beq_iff_eq,
    beq_eq_false_iff_ne, ne_eq, Prod.ext_iff, not_and]

/-! ### The search by what stands at its head -/

theorem close?_opener (k : Nat) (rest : List Char) :
    b.close? k (b.opener.1 :: b.opener.2 :: rest) = (b.close? (k + 1) rest).map (· + 2) := by
  rw [close?_cons_cons, if_pos rfl]

theorem close?_closer (hMarks : b.opener ≠ b.closer) (k : Nat) (rest : List Char) :
    b.close? k (b.close ++ rest) = (b.leave k rest).map (· + 2) := by
  rw [close, List.cons_append, List.cons_append, List.nil_append, close?_cons_cons,
    if_neg (fun hSame => hMarks hSame.symm), if_pos rfl]
  cases k <;> rfl

theorem close?_plain {c e : Char} {rest : List Char}
    (h : b.startsMark (c :: e :: rest) = false) (k : Nat) :
    b.close? k (c :: e :: rest) = (b.close? k (e :: rest)).map (· + 1) := by
  obtain ⟨hOpen, hClose⟩ := startsMark_cons_cons.1 h
  rw [close?_cons_cons, if_neg hOpen, if_neg hClose]

/-! ### The search and the grammar -/

/-- **Items are passed over** at any depth. -/
theorem close?_items (hMarks : b.opener ≠ b.closer) {items : List Char} (h : b.Items items)
    (k : Nat) (rest : List Char) :
    b.close? k (items ++ (b.close ++ rest)) =
      (b.leave k rest).map (· + (items.length + 2)) := by
  induction h generalizing k rest with
  | nil => rw [List.nil_append, close?_closer hMarks, List.length_nil, Nat.zero_add]
  | @pair inner after _ _ ihInner ihAfter =>
    have hText : b.pair inner ++ after ++ (b.close ++ rest) =
        b.opener.1 :: b.opener.2 :: (inner ++ (b.close ++ (after ++ (b.close ++ rest)))) := by
      simp [pair]
    -- the inner closer leads back to the depth at which the pair was opened
    have hBack : b.leave (k + 1) (after ++ (b.close ++ rest)) =
        (b.leave k rest).map (· + (after.length + 2)) := ihAfter k rest
    rw [hText, close?_opener, ihInner, hBack, Option.map_map, Option.map_map]
    congr 1
    funext m
    simp only [Function.comp, pair, close, List.length_append, List.length_cons, List.length_nil]
    omega
  | @char c after hPlain _ ih =>
    have hRest := ih k rest
    obtain ⟨e, more, hMore⟩ : ∃ e more, after ++ b.close = e :: more := by
      cases after with
      | nil => exact ⟨_, _, rfl⟩
      | cons e after => exact ⟨e, _, rfl⟩
    rw [← List.append_assoc, hMore, List.cons_append] at hRest
    rw [hMore, startsMark_cons_cons] at hPlain
    rw [List.cons_append, ← List.append_assoc, hMore, List.cons_append,
      close?_plain (startsMark_cons_cons.2 hPlain), hRest, Option.map_map]
    rfl

/-- **What is passed over is items**, up to the closer of this depth. -/
theorem exists_items_of_close? {k : Nat} {text : List Char} {n : Nat}
    (h : b.close? k text = some n) :
    ∃ items rest m, b.Items items ∧ text = items ++ (b.close ++ rest) ∧
      b.leave k rest = some m ∧ n = items.length + 2 + m := by
  induction hLength : text.length using Nat.strongRecOn generalizing text k n with
  | ind length ih =>
    subst hLength
    match text, h with
    | [], h => simp [close?] at h
    | [_], h => simp [close?] at h
    | c :: e :: rest, h =>
      simp only [List.length_cons] at ih
      by_cases hOpen : (c, e) = b.opener
      · rw [close?_cons_cons, if_pos hOpen] at h
        obtain ⟨n, hn, rfl⟩ := Option.map_eq_some_iff.1 h
        -- the pair up to its closer, and then what follows it at the depth of the pair
        obtain ⟨inner, after, m, hInner, rfl, hAfter, rfl⟩ := ih rest.length (by omega) hn rfl
        obtain ⟨items, beyond, m, hItems, rfl, hBeyond, rfl⟩ := ih after.length
          (by simp only [List.length_append]; omega) (k := k) hAfter rfl
        have hFirst : c = b.opener.1 := congrArg Prod.fst hOpen
        have hSecond : e = b.opener.2 := congrArg Prod.snd hOpen
        subst hFirst hSecond
        refine ⟨b.pair inner ++ items, beyond, m, .pair hInner hItems, by simp [pair], hBeyond, ?_⟩
        simp only [pair, close, List.length_append, List.length_cons, List.length_nil]
        omega
      · by_cases hClose : (c, e) = b.closer
        · rw [close?_cons_cons, if_neg hOpen, if_pos hClose] at h
          have hFirst : c = b.closer.1 := congrArg Prod.fst hClose
          have hSecond : e = b.closer.2 := congrArg Prod.snd hClose
          subst hFirst hSecond
          cases k with
          | zero =>
            cases h
            exact ⟨[], rest, 0, .nil, rfl, rfl, rfl⟩
          | succ outer =>
            obtain ⟨m, hm, rfl⟩ := Option.map_eq_some_iff.1 h
            exact ⟨[], rest, m, .nil, rfl, hm, by rw [List.length_nil, Nat.zero_add, Nat.add_comm]⟩
        · rw [close?_cons_cons, if_neg hOpen, if_neg hClose] at h
          obtain ⟨n, hn, rfl⟩ := Option.map_eq_some_iff.1 h
          obtain ⟨items, after, m, hItems, hRest, hAfter, rfl⟩ :=
            ih (rest.length + 1) (by omega) hn rfl
          obtain ⟨more, hMore⟩ : ∃ more, items ++ b.close = e :: more := by
            cases items with
            | nil =>
              rw [List.nil_append, close, List.cons_append, List.cons.injEq] at hRest
              exact ⟨_, by rw [hRest.1]; rfl⟩
            | cons a items =>
              rw [List.cons_append, List.cons.injEq] at hRest
              exact ⟨_, by rw [hRest.1]; rfl⟩
          refine ⟨c :: items, after, m, .char ?_ hItems, by rw [hRest]; rfl, hAfter, ?_⟩
          · rw [hMore]
            exact startsMark_cons_cons.2 ⟨hOpen, hClose⟩
          · rw [List.length_cons]
            omega

theorem length_pair (inner : List Char) : (b.pair inner).length = inner.length + 4 := by
  simp [pair, close]

/-- **The search finds a pair** that starts with the opener before it. -/
theorem exists_isPair_of_close? {rest : List Char} {n : Nat} (h : b.close? 0 rest = some n) :
    ∃ text, b.IsPair text ∧ text <+: b.opener.1 :: b.opener.2 :: rest ∧ n + 2 = text.length := by
  obtain ⟨items, after, m, hItems, rfl, hLeave, rfl⟩ := exists_items_of_close? h
  cases hLeave
  exact ⟨b.pair items, ⟨items, hItems, rfl⟩, ⟨after, by simp [pair]⟩, (length_pair items).symm⟩

/-- **Every such pair is found.** -/
theorem IsPair.close?_eq (hMarks : b.opener ≠ b.closer) {text rest : List Char}
    (h : b.IsPair text) (hText : text <+: b.opener.1 :: b.opener.2 :: rest) :
    b.close? 0 rest = some (text.length - 2) := by
  obtain ⟨items, hItems, rfl⟩ := h
  obtain ⟨after, hAfter⟩ := hText
  have hRest : rest = items ++ (b.close ++ after) := by
    rw [pair, List.cons_append, List.cons_append, List.append_assoc] at hAfter
    exact (List.cons.inj (List.cons.inj hAfter).2).2.symm
  rw [hRest, close?_items hMarks hItems, leave, Option.map_some, Nat.zero_add, length_pair]
  rfl

/-- At the head of a text stands one pair at most. -/
theorem IsPair.eq_of_prefix (hMarks : b.opener ≠ b.closer) {pair pair' rest : List Char}
    (h : b.IsPair pair) (h' : b.IsPair pair') (hText : pair <+: b.opener.1 :: b.opener.2 :: rest)
    (hText' : pair' <+: b.opener.1 :: b.opener.2 :: rest) : pair = pair' := by
  have hLength : pair.length - 2 = pair'.length - 2 :=
    Option.some.inj ((h.close?_eq hMarks hText).symm.trans (h'.close?_eq hMarks hText'))
  obtain ⟨items, -, rfl⟩ := h
  obtain ⟨items', -, rfl⟩ := h'
  rw [length_pair, length_pair] at hLength
  have hSame : (b.pair items).length = (b.pair items').length := by
    rw [length_pair, length_pair]
    omega
  exact (List.prefix_of_prefix_length_le hText hText' (Nat.le_of_eq hSame)).eq_of_length hSame

end Brackets

/-! ### Block comments in a source -/

/-- A block comment, or all of the text if it is never closed. -/
theorem Lexeme.next_blockComment (d : Dialect) (before : Option TokenKind) (rest : List Char) :
    next d before ('/' :: '*' :: rest) =
      match Brackets.comment.close? 0 rest with
      | some n => .accept .blockComment (n + 2)
      | none => .reject .unterminatedBlockComment ('/' :: '*' :: rest).length := by
  have hSpace : Symbol.whitespace? ('/' :: '*' :: rest) = none :=
    Region.whitespace?_eq_none (by decide)
  have hLiteral := Literal.match?_eq_none (d := d) (c := '/') (by decide) (by decide) ('*' :: rest)
  have hBlock : Comment.block? ('/' :: '*' :: rest) =
      some (match Brackets.comment.close? 0 rest with
        | some n => .accept .blockComment (n + 2)
        | none => .reject .unterminatedBlockComment ('/' :: '*' :: rest).length) := by
    have hDrop : ('/' :: '*' :: rest).drop 2 = rest := rfl
    have hStarts : Comment.startsBlock ('/' :: '*' :: rest) = true := rfl
    rw [Comment.block?, if_pos hStarts, hDrop]
    cases Brackets.comment.close? 0 rest <;> rfl
  simp [next, Recogniser.firstOf, forms, hSpace, hLiteral, hBlock, Placeholder.match?,
    Placeholder.startsOpen, Placeholder.unmatchedClose?, Placeholder.startsClose,
    Brackets.startsWith, Brackets.placeholder, Region.apostrophe?, Comment.line?,
    Comment.startsLine]

/-- A source that one step rejects as a whole. -/
theorem scan_of_reject {d : Dialect} {text : List Char} {fault : Fault} (hText : text ≠ [])
    (h : Lexeme.next d none text = .reject fault text.length) :
    d.scan text = ⟨[⟨.error, ⟨0, Text.byteLength text, 1, 1⟩⟩],
      [⟨fault, ⟨0, Text.byteLength text, 1, 1⟩⟩]⟩ := by
  have hLexemes : lexemes d none text = [⟨text, .reject fault⟩] := by
    rw [lexemes_of_plain hText (by rw [h]; exact fun hQuote => by cases hQuote), h, Match.lexeme,
      Match.reject_length, List.take_length, List.drop_length, lexemes]
    rfl
  have hSpan : Span.ofText .start text = ⟨0, Text.byteLength text, 1, 1⟩ := by
    rw [Span.ofText, Position.start, Nat.zero_add]
  rw [scan_eq, settledLexemes, hLexemes, ← hSpan]
  rfl

/-- The first token of a text whose first lexeme is accepted, and is no dot or quote of a
region. -/
theorem head?_tokens {d : Dialect} {text : List Char} {kind : TokenKind} {n : Nat}
    (hText : text ≠ []) (hKind : kind ∉ [TokenKind.dot, .regionQuote])
    (h : Lexeme.next d none text = .accept kind n) :
    (d.scan text).tokens.head? = some ⟨kind, ⟨0, Text.byteLength (text.take n), 1, 1⟩⟩ := by
  simp only [List.mem_cons, List.not_mem_nil, or_false, not_or] at hKind
  have hDot : ((Match.accept kind n).lexeme text).kind ≠ .dot := hKind.1
  rw [scan_eq, settledLexemes, lexemes_of_plain hText (by rw [h]; simpa using hKind.2), h,
    settleDots, Lexeme.settled_of_ne_dot hDot, tokensAt_cons, List.head?_cons, Match.lexeme,
    Match.accept_length, Span.ofText, Position.start, Nat.zero_add]
  rfl

/-- **Block comments nest.**  A source that starts with the opener of a block comment has such a
comment as its first token exactly if the grammar derives the text of that token, and there is
at most one text at the head of the source that the grammar derives.  If there is none, the
whole source is one error, a block comment that is never closed. -/
theorem scan_blockComment (d : Dialect) (rest : List Char) :
    (∀ n, (d.scan ('/' :: '*' :: rest)).tokens.head? = some ⟨.blockComment, ⟨0, n, 1, 1⟩⟩ ↔
      ∃ comment, Brackets.comment.IsPair comment ∧ comment <+: '/' :: '*' :: rest ∧
        n = Text.byteLength comment) ∧
    (∀ comment other, Brackets.comment.IsPair comment → Brackets.comment.IsPair other →
      comment <+: '/' :: '*' :: rest → other <+: '/' :: '*' :: rest → comment = other) ∧
    ((∀ comment, Brackets.comment.IsPair comment → ¬comment <+: '/' :: '*' :: rest) →
      d.scan ('/' :: '*' :: rest) =
        ⟨[⟨.error, ⟨0, Text.byteLength ('/' :: '*' :: rest), 1, 1⟩⟩],
          [⟨.unterminatedBlockComment,
            ⟨0, Text.byteLength ('/' :: '*' :: rest), 1, 1⟩⟩]⟩) := by
  have hMarks : Brackets.comment.opener ≠ Brackets.comment.closer := by decide
  have hText : '/' :: '*' :: rest ≠ [] := List.cons_ne_nil _ _
  have hNext := Lexeme.next_blockComment d none rest
  have hUnique : ∀ comment other, Brackets.comment.IsPair comment →
      Brackets.comment.IsPair other → comment <+: '/' :: '*' :: rest →
      other <+: '/' :: '*' :: rest → comment = other := by
    intro comment other hComment hOther hHead hHead'
    exact hComment.eq_of_prefix hMarks hOther hHead hHead'
  cases hClose : Brackets.comment.close? 0 rest with
  | none =>
    have hNone : ∀ comment, Brackets.comment.IsPair comment →
        ¬comment <+: '/' :: '*' :: rest := by
      intro comment hComment hHead
      rw [hComment.close?_eq hMarks hHead] at hClose
      cases hClose
    rw [hClose] at hNext
    have hScan := scan_of_reject hText hNext
    refine ⟨fun n => iff_of_false ?_ ?_, hUnique, fun _ => hScan⟩
    · rw [hScan]
      exact fun hHead => by cases hHead
    · rintro ⟨comment, hComment, hHead, -⟩
      exact hNone comment hComment hHead
  | some m =>
    obtain ⟨comment, hComment, hHead, hLength⟩ := Brackets.exists_isPair_of_close? hClose
    rw [hClose] at hNext
    have hToken := head?_tokens hText (by decide) hNext
    have hTake : ('/' :: '*' :: rest).take (m + 2) = comment := by
      rw [hLength]
      exact (List.prefix_iff_eq_take.1 hHead).symm
    rw [hTake] at hToken
    refine ⟨fun n => ⟨fun hFound => ?_, ?_⟩, hUnique, fun hNone => ?_⟩
    · rw [hToken, Option.some.injEq, Token.mk.injEq, Span.mk.injEq] at hFound
      exact ⟨comment, hComment, hHead, hFound.2.2.1.symm⟩
    · rintro ⟨other, hOther, hHead', rfl⟩
      rw [hToken, hUnique comment other hComment hOther hHead hHead']
    · exact absurd hHead (hNone comment hComment)

end SqlTemplate
