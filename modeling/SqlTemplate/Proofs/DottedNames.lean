import SqlTemplate.DottedName
import SqlTemplate.Proofs.Classification
import SqlTemplate.Proofs.QuotedRuns

/-!
# Reading dotted names

The parts of a dotted name are words, quoted identifiers and placeholders, in any order
(`NamePart`).  Joined by dots they are read one after the other:

* `Literal.match?_of_word`: a word that a dot follows is no literal, whatever its first
  letter is.
* `NamePart.next_eq`: each part is one lexeme if a dot stands before or after it.
* `NamePart.lexemes_join`: so all of them are, with the dots between them.
* `DottedName.find_of_intersperse`: parts and dots that alternate are found as one name.

The main statement is `scan_dottedName`.
-/

namespace SqlTemplate

open Verdict (accept reject)

variable {d : Dialect}

/-! ### Parts -/

/-- A text in which each quote is written twice. -/
def Quoted.doubled (quote : Char) (value : List Char) : List Char :=
  value.flatMap fun c => if c = quote then [quote, quote] else [c]

/-- Where there are no escapes, only the quotes of a value have to be written twice. -/
theorem Quoted.doubled_eq_encode (quote : Char) (value : List Char) :
    doubled quote value = encode quote false value := by
  refine congrArg (value.flatMap ·) (funext fun c => ?_)
  by_cases hc : c = quote
  · rw [if_pos hc, if_pos (Or.inl hc), hc]
  · rw [if_neg hc, if_neg (by simp [hc])]

theorem Quoted.body_doubled (quote : Char) (value : List Char) :
    Body quote false (doubled quote value) := by
  rw [doubled_eq_encode]
  exact body_encode quote false value

/-- A part of a dotted name: any word, an identifier between double quotes or backquotes if
the dialect has them, or a well-formed placeholder. -/
inductive NamePart (d : Dialect) where
  | word (w : Word) (isWord : Text.isWord w = true)
  | quoted (quote : Char) (value : List Char) (mem : quote ∈ d.identifierQuotes)
      (sign : quote ∈ ['"', '\x60'])
  | placeholder (text : List Char) (isWhole : Placeholder.IsWhole d text)

namespace NamePart

/-- The part as it is written. -/
def text : NamePart d → List Char
  | word w _ => w
  | quoted quote value _ _ => quote :: (Quoted.doubled quote value ++ [quote])
  | placeholder text _ => text

def kind : NamePart d → TokenKind
  | word _ _ => .identifier
  | quoted _ _ _ _ => .quotedIdentifier
  | placeholder _ _ => .placeholder

/-- The parts with dots between them. -/
def join (parts : List (NamePart d)) : List Char := List.intercalate ['.'] (parts.map text)

def lexeme (p : NamePart d) : Lexeme := ⟨p.text, accept p.kind⟩

theorem isNamePart_kind (p : NamePart d) : p.kind.isNamePart = true := by
  cases p <;> rfl

end NamePart

/-! ### Reading one part -/

/-- What may stand after a part: nothing, or a dot. -/
def Text.EndsPart (rest : List Char) : Prop := ∀ c, rest.head? = some c → c = '.'

section Word

variable {w rest : List Char} (hw : ∀ x ∈ w, Text.isWordChar x = true)
  (hRest : Text.EndsPart rest)

include hw hRest

/-- No quote stands where a word goes on or ends. -/
theorem Text.head_of_word {c : Char} (h : (w ++ rest).head? = some c) : c ≠ '\'' ∧ c ≠ '"' := by
  cases w with
  | nil =>
    rw [hRest c h]
    decide
  | cons x w =>
    cases h
    have hx := hw c List.mem_cons_self
    constructor <;>
      · rintro rfl
        exact absurd hx (by decide)

/-- The name of a character set ends at no quote. -/
theorem Literal.charset_of_word :
    ((w ++ rest).drop (charsetLength (w ++ rest))).head? ≠ some '\'' := by
  induction w with
  | nil =>
    cases rest with
    | nil => simp
    | cons c rest =>
      have hc := hRest c rfl
      subst hc
      simp [charsetLength]
  | cons x w ih =>
    cases hx : x.isAlphanum with
    | false =>
      have hQuote := (Text.head_of_word hw hRest rfl).1
      simpa [charsetLength, hx] using hQuote
    | true =>
      have hTail := ih fun y hy => hw y (List.mem_cons_of_mem x hy)
      simpa [charsetLength, hx] using hTail

theorem Text.wordRun_of_word : Text.wordRun (w ++ rest) = w.length := by
  have hEnd : rest.takeWhile Text.isWordChar = [] := by
    cases rest with
    | nil => rfl
    | cons c rest =>
      have hc := hRest c rfl
      subst hc
      exact List.takeWhile_cons_of_neg (by decide)
  rw [Text.wordRun, List.takeWhile_append_of_pos hw, hEnd, List.append_nil]

end Word

/-- **A word before a dot is no literal.** -/
theorem Literal.match?_of_word {w rest : List Char} (hw : Text.isWord w = true)
    (hRest : Text.EndsPart rest) : Literal.match? d (w ++ rest) = none := by
  cases w with
  | nil => cases hw
  | cons c w =>
    simp only [Text.isWord, Bool.and_eq_true, List.all_eq_true] at hw
    have hFirst : c ≠ '0' ∧ c ≠ '$' := by
      constructor <;>
        · rintro rfl
          exact absurd hw.1 (by decide)
    -- two literals start with a character that starts no word, and the others have a quote
    -- after their letters
    have hRadix : radix? (c :: (w ++ rest)) = none := by simp [radix?, hFirst]
    have hDollar : dollar? d (c :: (w ++ rest)) = none := by simp [dollar?, hFirst]
    have hCharset : charset? d (c :: (w ++ rest)) = none := by
      by_cases hc : c = '_'
      · subst hc
        have hQuote : ((w ++ rest).drop (charsetLength (w ++ rest))).head? ≠ some '\'' :=
          charset_of_word hw.2 hRest
        rw [charset?_eq, beq_false_of_ne hQuote, Bool.and_false]
        rfl
      · simp [charset?, hc]
    have hQuoted : bits? d (c :: (w ++ rest)) = none ∧ hex? (c :: (w ++ rest)) = none ∧
        escape? (c :: (w ++ rest)) = none ∧ national? d (c :: (w ++ rest)) = none := by
      cases hNext : w ++ rest with
      | nil => exact ⟨rfl, rfl, rfl, rfl⟩
      | cons x more =>
        have hx := Text.head_of_word (c := x) hw.2 hRest (by rw [hNext]; rfl)
        simp [bits?, hex?, escape?, national?, hx]
    simp [match?, Recogniser.firstOf, forms, hRadix, hDollar, hCharset, hQuoted]

namespace Lexeme

variable {before : Option TokenKind} {rest : List Char}

/-- A word beside a dot is a name, whatever the tables say. -/
theorem next_of_word (hd : d.Valid) {w : Word} (hw : Text.isWord w = true)
    (hRest : Text.EndsPart rest) (hDot : rest.head? = some '.' ∨ before = some .dot) :
    next d before (w ++ rest) = .accept .identifier w.length := by
  have hLiteral := Literal.match?_of_word (d := d) hw hRest
  cases w with
  | nil => cases hw
  | cons c w =>
    simp only [Text.isWord, Bool.and_eq_true, List.all_eq_true] at hw
    have hc := Text.isWordChar_of_isWordStart hw.1
    have hRun : Text.wordRun (c :: w ++ rest) = (c :: w).length :=
      Text.wordRun_of_word (List.forall_mem_cons.2 ⟨hc, hw.2⟩) hRest
    have hKind : Symbol.wordKindAt d before (c :: w ++ rest) = .identifier := by
      rw [Symbol.wordKindAt, hRun, List.drop_left, if_pos]
      simpa using hDot
    rw [List.cons_append] at hLiteral hRun hKind ⊢
    rw [next_of_wordChar hd hc hLiteral, Symbol.number?_of_isWordStart hw.1, Symbol.word?,
      if_pos hw.1, hRun, hKind]
    rfl

/-- Nothing else starts with the quote of a quoted identifier. -/
theorem next_of_quoted (hd : d.Valid) {quote : Char} {body : List Char}
    (hQuote : quote ∈ d.identifierQuotes) (hSign : quote ∈ ['"', '\x60'])
    (hBody : Quoted.Body quote false body) (hHead : rest.head? ≠ some quote) :
    next d before (quote :: (body ++ quote :: rest)) =
      .accept .quotedIdentifier (body.length + 2) := by
  have hString : Symbol.string? d (quote :: (body ++ quote :: rest)) = none := by
    have hOff : quote = '"' → d.on .doubleQuotedStrings = false := by
      rintro rfl
      rw [← Bool.not_eq_true]
      exact fun hOn => hd.doubleQuote hOn hQuote
    simpa [Symbol.string?] using hOff
  have hFacts : (['"', '\x60'].all fun c => decide (Text.isSpace c = false ∧
      c ∉ ['\'', '-', '#', '/', '0', '_', '$'] ∧ c.toLower ∉ ['b', 'x', 'e', 'n'] ∧
      c ≠ '{' ∧ c ≠ '}')) = true := by
    decide
  obtain ⟨hSpace, hFirst, hLetter, hOpen, hClose⟩ :=
    of_decide_eq_true (List.all_eq_true.1 hFacts quote hSign)
  obtain ⟨hStartsOpen, hStartsClose⟩ :=
    Placeholder.starts_of_ne hOpen hClose (body ++ quote :: rest)
  rw [next_eq_late hSpace hFirst hLetter hStartsOpen hStartsClose]
  simp only [Recogniser.firstOf, lateForms, List.findSome?_cons, hString,
    Symbol.quotedIdentifier?_body hQuote hBody hHead, Option.getD_some]

end Lexeme

namespace NamePart

/-- **A part is read as one lexeme** before a dot, or at the end after a dot. -/
theorem next_eq (hd : d.Valid) (p : NamePart d) {before : Option TokenKind} {rest : List Char}
    (hRest : Text.EndsPart rest) (hDot : rest.head? = some '.' ∨ before = some .dot) :
    Lexeme.next d before (p.text ++ rest) = .accept p.kind p.text.length := by
  cases p with
  | word w isWord => exact Lexeme.next_of_word hd isWord hRest hDot
  | quoted quote value mem sign =>
    have hHead : rest.head? ≠ some quote := by
      intro hHead
      rw [hRest quote hHead] at sign
      exact absurd sign (by decide)
    have hText : (quoted quote value mem sign).text ++ rest =
        quote :: (Quoted.doubled quote value ++ quote :: rest) := by
      simp [text]
    rw [hText, Lexeme.next_of_quoted hd mem sign (Quoted.body_doubled quote value) hHead]
    simp [text, kind]
  | placeholder text isWhole => exact Lexeme.next_of_isWhole before isWhole rest

theorem text_ne_nil (p : NamePart d) : p.text ≠ [] := by
  cases p with
  | word w isWord =>
    rintro rfl
    cases isWord
  | quoted quote value mem sign => exact List.cons_ne_nil _ _
  | placeholder text isWhole =>
    obtain ⟨rest, rfl⟩ := Region.head_of_isWhole isWhole
    exact List.cons_ne_nil _ _

theorem kind_ne (p : NamePart d) {kind : TokenKind} (h : kind.isNamePart = false) :
    p.kind ≠ kind := by
  rintro rfl
  rw [isNamePart_kind] at h
  cases h

theorem join_cons_cons (p q : NamePart d) (parts : List (NamePart d)) :
    join (p :: q :: parts) = p.text ++ (['.'] ++ join (q :: parts)) := by
  rw [join, List.map_cons, List.map_cons, List.intercalate_cons_cons, List.append_assoc, join,
    List.map_cons]

/-- After a part a dot is no start of a fraction. -/
theorem next_dot (hd : d.Valid) (p : NamePart d) (rest : List Char) :
    Lexeme.next d (some p.kind) (['.'] ++ rest) = .accept .dot 1 := by
  have hNumber : Symbol.number? (some p.kind) ('.' :: rest) = none := by
    simp [Symbol.number?, Number.startsDigit, isNamePart_kind]
  obtain ⟨hOpen, hClose⟩ :=
    Placeholder.starts_of_ne (c := '.') (by decide) (by decide) rest
  exact Lexeme.next_of_mark hd rfl hOpen hClose hNumber

/-- The lexemes of a dotted name. -/
def lexemes (parts : List (NamePart d)) : List Lexeme :=
  (parts.map lexeme).intersperse ⟨['.'], accept .dot⟩

/-- **Parts and dots are read one after the other.**  The induction is on the parts; it goes
on after a dot, so that the last part has a dot before it. -/
theorem lexemes_join (hd : d.Valid) (parts : List (NamePart d)) :
    ∀ before : Option TokenKind, 2 ≤ parts.length ∨ before = some .dot →
      SqlTemplate.lexemes d before (join parts) = lexemes parts := by
  induction parts with
  | nil =>
    intro before _
    rw [join, List.map_nil, List.intercalate_nil, SqlTemplate.lexemes]
    rfl
  | cons p parts ih =>
    intro before h
    cases parts with
    | nil =>
      have hBefore : before = some .dot := h.resolve_left (by simp)
      have hNext : Lexeme.next d before (p.text ++ []) = .accept p.kind p.text.length :=
        p.next_eq hd (by simp [Text.EndsPart]) (Or.inr hBefore)
      have hRead := lexemes_append p.text_ne_nil (p.kind_ne rfl) hNext
      rw [List.append_nil, SqlTemplate.lexemes] at hRead
      rw [join, List.map_singleton, List.intercalate_singleton, hRead]
      rfl
    | cons q parts =>
      have hNext : Lexeme.next d before (p.text ++ (['.'] ++ join (q :: parts))) =
          .accept p.kind p.text.length :=
        p.next_eq hd (by simp [Text.EndsPart]) (Or.inl rfl)
      rw [join_cons_cons, lexemes_append p.text_ne_nil (p.kind_ne rfl) hNext,
        lexemes_append (List.cons_ne_nil _ _) (by decide) (p.next_dot hd _),
        ih (some .dot) (Or.inr rfl)]
      rfl

end NamePart

/-! ### Alternating lists -/

theorem map_intersperse {α β : Type} (f : α → β) (sep : α) (xs : List α) :
    (xs.intersperse sep).map f = (xs.map f).intersperse (f sep) := by
  induction xs with
  | nil => rfl
  | cons x xs ih =>
    cases xs with
    | nil => rfl
    | cons y ys =>
      rw [List.intersperse_cons_cons, List.map_cons, List.map_cons, ih]
      rfl

theorem eq_or_mem_of_mem_intersperse {α : Type} {sep x : α} {xs : List α}
    (h : x ∈ xs.intersperse sep) : x = sep ∨ x ∈ xs := by
  induction xs with
  | nil => cases h
  | cons y xs ih =>
    cases xs with
    | nil => exact Or.inr h
    | cons z zs =>
      rw [List.intersperse_cons_cons, List.mem_cons, List.mem_cons] at h
      rcases h with rfl | rfl | h
      · exact Or.inr List.mem_cons_self
      · exact Or.inl rfl
      · exact (ih h).imp_right (List.mem_cons_of_mem y)

theorem head?_intersperse {α : Type} (sep x : α) (xs : List α) :
    ((x :: xs).intersperse sep).head? = some x := by
  cases xs <;> rfl

theorem DottedName.map_everyOther {α β : Type} (f : α → β) (xs : List α) :
    (everyOther xs).map f = everyOther (xs.map f) := by
  fun_induction everyOther xs with
  | case1 => rfl
  | case2 => rfl
  | case3 x y rest ih => rw [List.map_cons, ih, List.map_cons, List.map_cons, everyOther]

theorem DottedName.everyOther_intersperse {α : Type} (sep : α) (xs : List α) :
    everyOther (xs.intersperse sep) = xs := by
  induction xs with
  | nil => rfl
  | cons x xs ih =>
    cases xs with
    | nil => rfl
    | cons y ys => rw [List.intersperse_cons_cons, everyOther, ih]

section Alternating

variable {kinds : List TokenKind} (hKinds : ∀ kind ∈ kinds, kind.isNamePart = true)

include hKinds

theorem dotsJoin_intersperse (before : Option TokenKind) :
    DotsJoin before (kinds.intersperse .dot) := by
  induction kinds generalizing before with
  | nil => trivial
  | cons k ks ih =>
    rw [List.forall_mem_cons] at hKinds
    have hDot : k ≠ .dot := by
      rintro rfl
      cases hKinds.1
    cases ks with
    | nil => exact ⟨fun h => absurd h hDot, trivial⟩
    | cons l ls =>
      refine ⟨fun h => absurd h hDot, fun _ => ⟨hKinds.1, ?_⟩, ih hKinds.2 _⟩
      rw [head?_intersperse]
      exact (List.forall_mem_cons.1 hKinds.2).1

/-- Dots and parts that alternate to the end continue a name to the end. -/
theorem DottedName.tailLength_of_intersperse {t : Token} {tokens : List Token}
    (h : (t :: tokens).map (·.kind) = kinds.intersperse .dot) :
    tailLength tokens = tokens.length := by
  induction kinds generalizing t tokens with
  | nil => cases h
  | cons k ks ih =>
    rw [List.forall_mem_cons] at hKinds
    cases ks with
    | nil =>
      cases tokens with
      | nil => rfl
      | cons u us => cases h
    | cons l ls =>
      rw [List.intersperse_cons_cons, List.map_cons, List.cons.injEq] at h
      obtain ⟨dot, more, rfl, hDot, hMore⟩ := List.map_eq_cons_iff.1 h.2
      have hHead := congrArg List.head? hMore
      rw [head?_intersperse] at hHead
      cases more with
      | nil => cases hHead
      | cons part rest =>
        have hPart : part.kind = l := Option.some.inj hHead
        have hName : part.kind.isNamePart = true := by
          rw [hPart]
          exact (List.forall_mem_cons.1 hKinds.2).1
        rw [tailLength, if_pos ⟨hDot, hName⟩, ih hKinds.2 hMore]
        rfl

/-- **Parts and dots that alternate are one dotted name.** -/
theorem DottedName.find_of_intersperse {t : Token} {tokens : List Token} (hTokens : tokens ≠ [])
    (h : (t :: tokens).map (·.kind) = kinds.intersperse .dot) :
    find (t :: tokens) = [⟨⟨0, tokens.length + 1⟩, cover t (tokens.getLastD t)⟩] := by
  have hTail := tailLength_of_intersperse hKinds h
  have hName : t.kind.isNamePart = true := by
    cases kinds with
    | nil => cases h
    | cons k ks =>
      have hHead := congrArg List.head? h
      rw [head?_intersperse] at hHead
      rw [show t.kind = k from Option.some.inj hHead]
      exact hKinds k List.mem_cons_self
  rw [find, findFrom, hTail, List.take_length, List.drop_length,
    if_pos ⟨hName, List.length_pos_iff.2 hTokens⟩, findFrom, Nat.zero_add, Nat.add_comm]

end Alternating

/-! ### Scanning a dotted name -/

namespace NamePart

variable {parts : List (NamePart d)}

theorem kind_lexemes (parts : List (NamePart d)) :
    (lexemes parts).map Lexeme.kind = (parts.map kind).intersperse .dot := by
  rw [lexemes, map_intersperse, List.map_map]
  rfl

theorem text_lexemes (parts : List (NamePart d)) :
    (lexemes parts).map Lexeme.text = (parts.map text).intersperse ['.'] := by
  rw [lexemes, map_intersperse, List.map_map]
  rfl

theorem forall_isNamePart (parts : List (NamePart d)) :
    ∀ k ∈ parts.map kind, k.isNamePart = true :=
  List.forall_mem_map.2 fun p _ => p.isNamePart_kind

theorem faultless (hd : d.Valid) (h : 2 ≤ parts.length) :
    Faultless d (join parts) (lexemes parts) where
  lexemes_eq := lexemes_join hd parts none (Or.inl h)
  accepted := by
    intro x hx
    rcases eq_or_mem_of_mem_intersperse hx with rfl | hMem
    · decide
    · obtain ⟨p, -, rfl⟩ := List.mem_map.1 hMem
      exact p.kind_ne rfl
  dots := by
    rw [kind_lexemes]
    exact dotsJoin_intersperse (forall_isNamePart parts) none

end NamePart

/-- **Lexemes that alternate with dots are found as one name**, from the first byte of the
source to the last. -/
theorem Faultless.find_eq {source : List Char} {xs : List Lexeme} {kinds : List TokenKind}
    (h : Faultless d source xs) (hKinds : ∀ kind ∈ kinds, kind.isNamePart = true)
    (hLexemes : xs.map Lexeme.kind = kinds.intersperse .dot) (hLength : 2 ≤ kinds.length) :
    DottedName.find (d.scan source).tokens =
      [⟨⟨0, (d.scan source).tokens.length⟩, ⟨0, Text.byteLength source, 1, 1⟩⟩] := by
  have hCount : xs.length = 2 * kinds.length - 1 := by
    have hMap := congrArg List.length hLexemes
    rwa [List.length_map, List.length_intersperse] at hMap
  have hTiles := tokensAt_tiles h.text_ne_nil
  rw [h.textOf_eq] at hTiles
  cases xs with
  | nil =>
    rw [List.length_nil] at hCount
    omega
  | cons x xs =>
    have hAll : (tokensAt .start (x :: xs)).map (·.kind) = kinds.intersperse .dot := by
      rw [kind_tokensAt, hLexemes]
    rw [h.tokens_eq, tokensAt_cons]
    rw [tokensAt_cons] at hAll hTiles
    have hTokens : (tokensAt (Position.start.advance x.text) xs).length = xs.length :=
      length_tokensAt _ xs
    generalize tokensAt (Position.start.advance x.text) xs = rest at hAll hTiles hTokens
    rw [List.length_cons] at hCount
    have hRest : rest ≠ [] := by
      rintro rfl
      rw [List.length_nil] at hTokens
      omega
    obtain ⟨init, last, rfl⟩ : ∃ init last, rest = init ++ [last] :=
      ⟨_, _, (List.dropLast_concat_getLast hRest).symm⟩
    -- the tokens tile the source, so that the last one ends with it
    have hStop := hTiles.last (_ :: init) last rfl
    rw [DottedName.find_of_intersperse hKinds hRest hAll, List.getLastD_concat, DottedName.cover,
      hStop]
    rfl

/-- **Every part of a dotted name is read alike.**  Two or more parts joined by dots, each of
them a word, a quoted identifier or a placeholder, are read without faults, part by part
and dot by dot; even keywords are names here.  They form one dotted name, which has these
parts and is all of the source. -/
theorem scan_dottedName (d : Dialect) (hd : d.Valid) (parts : List (NamePart d))
    (hParts : 2 ≤ parts.length) :
    (d.scan (NamePart.join parts)).diagnostics = [] ∧
      (d.scan (NamePart.join parts)).kinds = (parts.map NamePart.kind).intersperse .dot ∧
      (d.scan (NamePart.join parts)).tokens.map (Token.text (NamePart.join parts)) =
        (parts.map NamePart.text).intersperse ['.'] ∧
      ∃ name, DottedName.find (d.scan (NamePart.join parts)).tokens = [name] ∧
        name.partCount = parts.length ∧
        (name.parts (d.scan (NamePart.join parts)).tokens).map (·.kind) =
          parts.map NamePart.kind ∧
        name.span = ⟨0, Text.byteLength (NamePart.join parts), 1, 1⟩ := by
  have hFaultless := NamePart.faultless hd hParts
  have hKinds := NamePart.forall_isNamePart parts
  have hFound := hFaultless.find_eq hKinds (NamePart.kind_lexemes parts) (by simpa using hParts)
  have hTokenKinds : (d.scan (NamePart.join parts)).tokens.map (·.kind) =
      (parts.map NamePart.kind).intersperse .dot := by
    rw [hFaultless.tokens_eq, kind_tokensAt, NamePart.kind_lexemes]
  refine ⟨hFaultless.diagnostics_eq_nil, hTokenKinds, ?_, _, hFound, ?_, ?_, rfl⟩
  · have hTexts := text_tokensAt [] (NamePart.lexemes parts) []
    rw [Position.advance_nil, List.nil_append, List.append_nil, hFaultless.textOf_eq] at hTexts
    rw [hFaultless.tokens_eq, hTexts, NamePart.text_lexemes]
  · have hCount := congrArg List.length hTokenKinds
    rw [List.length_map, List.length_intersperse, List.length_map] at hCount
    simp only [DottedName.partCount, IndexRange.length, hCount]
    omega
  · simp only [DottedName.parts, IndexRange.length, List.drop_zero, Nat.sub_zero, List.take_length]
    rw [DottedName.map_everyOther, hTokenKinds, DottedName.everyOther_intersperse]

/-- A keyword, an identifier with a quote in it, a placeholder and a letter with which a
literal could start. -/
def NamePart.mixed : List (NamePart Preset.standard.rules) :=
  [.word "SELECT".toList (by decide +kernel),
   .quoted '"' "a\".b".toList (by decide +kernel) (by decide),
   .placeholder "\x7b\x7b x.y \x7d\x7d".toList (by unfold Placeholder.IsWhole; decide +kernel),
   .word "b".toList (by decide +kernel)]

theorem scan_dottedName_mixed :
    NamePart.join NamePart.mixed = "SELECT.\"a\"\".b\".\x7b\x7b x.y \x7d\x7d.b".toList ∧
      2 ≤ NamePart.mixed.length ∧
      (Preset.standard.rules.scan (NamePart.join NamePart.mixed)).diagnostics = [] ∧
      (Preset.standard.rules.scan (NamePart.join NamePart.mixed)).kinds =
        [.identifier, .dot, .quotedIdentifier, .dot, .placeholder, .dot, .identifier] ∧
      ∃ name, DottedName.find
          (Preset.standard.rules.scan (NamePart.join NamePart.mixed)).tokens = [name] ∧
        name.partCount = 4 := by
  obtain ⟨hClean, hKinds, -, name, hName, hCount, -⟩ :=
    scan_dottedName Preset.standard.rules (Preset.rules_valid .standard) NamePart.mixed (by decide)
  exact ⟨by decide +kernel, by decide, hClean, hKinds, name, hName, hCount⟩

end SqlTemplate
