import SqlTemplate.Lexeme.Placeholder
import SqlTemplate.Lexeme.Symbol

/-!
# Strings and quoted regions

An apostrophe opens a string, unless a placeholder opens before the string
closes.  In that case it opens a quoted region: the quotes and what stands
between them are lexemes of their own.  Between the quotes there may be
whitespace and one placeholder; everything else is rejected piece by piece.
-/

namespace SqlTemplate

/-- What an apostrophe opens. -/
inductive QuotePlan where
  /-- A string that takes so many characters. -/
  | string (length : Nat)
  /-- A string that is never closed. -/
  | unterminated
  /-- A quoted region around a placeholder. -/
  | region
deriving DecidableEq, Repr

namespace QuotePlan

/-- The plan with `n` more characters in front. -/
def shift (n : Nat) : QuotePlan → QuotePlan
  | string length => string (length + n)
  | unterminated => unterminated
  | region => region

/-- What the text after an apostrophe makes of it.  The length of a string does
not count the apostrophe. -/
def ofText (escapes : Bool) : List Char → QuotePlan
  | [] => unterminated
  | c :: rest =>
    if escapes && c == '\\' then
      match rest with
      | [] => unterminated
      | _ :: after => (ofText escapes after).shift 2
    else if c == '\'' then
      match rest with
      | [] => string 1
      | next :: after => if next == '\'' then (ofText escapes after).shift 2 else string 1
    else if c == '{' && rest.head? == some '{' then region
    else (ofText escapes rest).shift 1

end QuotePlan

namespace Region

/-- The lexeme that an apostrophe starts; for a region that is its opening
quote. -/
def apostrophe? (d : Dialect) : Recogniser
  | '\'' :: rest =>
    match QuotePlan.ofText (d.on .backslashEscapes) rest with
    | .string n => some (.accept .string (n + 1))
    | .unterminated => some (.reject .unterminatedString (rest.length + 1))
    | .region => some (.accept .regionQuote 1)
  | _ => none

/-- The quote that closes a region after `count` placeholders.  Before the first
one a doubled quote closes nothing. -/
def close? (count : Nat) : Recogniser
  | '\'' :: rest =>
    if count == 0 && rest.head? == some '\'' then none else some (.accept .regionQuote 1)
  | _ => none

/-- Length of the text up to whitespace, a placeholder or a quote.  Before the
first placeholder a doubled quote is part of the text. -/
def contentLength (escapes : Bool) (count : Nat) : List Char → Nat
  | [] => 0
  | c :: rest =>
    if c == '\'' then
      match rest with
      | [] => 0
      | next :: after =>
        if count == 0 && next == '\'' then contentLength escapes count after + 2 else 0
    else if escapes && c == '\\' then
      match rest with
      | [] => 1
      | _ :: after => contentLength escapes count after + 2
    else if Text.isSpace c || Placeholder.startsOpen (c :: rest) then 0
    else contentLength escapes count rest + 1

/-- What stands at the head of a text inside a region, after `count`
placeholders; whether another placeholder may stand there is not asked here. -/
def piece (d : Dialect) (count : Nat) (text : List Char) : Match :=
  (Recogniser.firstOf [Symbol.whitespace?, Placeholder.match? d, close? count] text).getD
    (.reject .unexpectedRegionText (contentLength (d.on .backslashEscapes) count text))

/-! ### Progress -/

theorem apostrophe?_progress (d : Dialect) : Recogniser.Progress (apostrophe? d) := by
  intro text m h
  unfold apostrophe? at h
  split at h
  · split at h <;>
      · simp only [Option.some.injEq] at h
        subst h
        simp
  · simp at h

theorem close?_progress (count : Nat) : Recogniser.Progress (close? count) := by
  intro text m h
  unfold close? at h
  split at h
  · simp only [Option.ite_none_left_eq_some, Option.some.injEq] at h
    obtain ⟨_, rfl⟩ := h
    simp
  · simp at h

theorem contentLength_pos {d : Dialect} {escapes : Bool} {count : Nat} {c : Char}
    {rest : List Char}
    (h : Recogniser.firstOf [Symbol.whitespace?, Placeholder.match? d, close? count] (c :: rest)
      = none) : 0 < contentLength escapes count (c :: rest) := by
  simp only [Recogniser.firstOf, List.findSome?_eq_none_iff, List.forall_mem_cons] at h
  obtain ⟨hSpace, hOpen, hClose, _⟩ := h
  simp only [Symbol.whitespace?, ite_eq_right_iff, reduceCtorEq, imp_false] at hSpace
  simp only [Placeholder.match?, ite_eq_right_iff, reduceCtorEq, imp_false] at hOpen
  unfold contentLength
  by_cases hQuote : c = '\''
  · subst hQuote
    cases rest with
    | nil => simp [close?] at hClose
    | cons next after =>
      simp only [close?, List.head?_cons] at hClose
      by_cases hDouble : count == 0 && next == '\''
      · simp [hDouble]
      · simp_all
  · simp only [beq_iff_eq, hQuote, if_false]
    split
    · split <;> omega
    · simp [hSpace, hOpen]

theorem piece_pos (d : Dialect) (count : Nat) (c : Char) (rest : List Char) :
    0 < (piece d count (c :: rest)).length := by
  unfold piece
  cases h : Recogniser.firstOf [Symbol.whitespace?, Placeholder.match? d, close? count]
      (c :: rest) with
  | none => exact contentLength_pos h
  | some m =>
    refine Recogniser.firstOf_progress ?_ _ _ h
    simp only [List.forall_mem_cons, List.not_mem_nil, false_imp_iff, implies_true, and_true]
    exact ⟨Symbol.whitespace?_progress, Placeholder.match?_progress d, close?_progress count⟩

end Region

end SqlTemplate
